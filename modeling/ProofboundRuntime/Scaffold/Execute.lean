import ProofboundRuntime.Lib.Sorting
import ProofboundRuntime.Scaffold.Search

/-!
# The scaffold report

`execute` of `scaffold.rs`, up to the writing of its report.  The two nested loops over the
queue and the needed objects of its first entry are one loop: a round handles the next needed
object of the entry at hand, or takes an entry from the queue.
-/

namespace ProofboundRuntime.Scaffold

open Result Checked Loop Worklist Sorting

/-- `MAX_DEPENDENCIES`. -/
def maxDependencies : Nat := 256

structure Dependency where
  soname : String
  declaredBy : String
  selected : Artifact
  searchRule : SearchRule
  candidates : List Candidate
deriving DecidableEq

structure RuntimeRootSuggestion where
  path : String
  provenance : List String
deriving DecidableEq

structure ScaffoldReport where
  schema : String
  safePolicy : Bool
  hostProfile : String
  executable : Artifact
  interpreter : Option Artifact
  resolutionInputs : List Artifact
  dependencies : List Dependency
  suggestedRuntimeRoots : List RuntimeRootSuggestion
  openItems : List OpenItem
deriving DecidableEq

/-- `REPORT_SCHEMA`. -/
def reportSchema : String := "proofbound-runtime-plan-scaffold/1"

/-! ## Open items -/

def standardOpenItems : List OpenItem :=
  [⟨.chooseWriteRoots, "choose every writable root"⟩,
    ⟨.chooseEnvironment, "choose every inherited environment variable name"⟩,
    ⟨.chooseLimits, "choose wall-time, process, output, memory, and swap limits"⟩,
    ⟨.chooseNetworkMode, "choose the Runtime network profile"⟩,
    ⟨.dynamicLoadsUnresolved, "review plugins, language packages, and runtime dlopen calls"⟩,
    ⟨.configurationUnresolved, "review configuration and environment-dependent searches"⟩]

def LoaderCache.openItems (cache : LoaderCache) : List OpenItem :=
  if cache.unavailable then
    [⟨.loaderDataUnavailable,
      "the selected host profile had no readable loader cache or musl path file"⟩]
  else []

def DynamicInfo.openItems (info : DynamicInfo) : List OpenItem :=
  info.unsupportedTokens.map fun token => ⟨.unsupportedDynamicToken, token⟩

def conflictItems (soname : String) (candidates : List Candidate) : List OpenItem :=
  if 1 < candidates.length then
    [⟨.searchPathConflict,
      soname ++ " has " ++ Decimal.text candidates.length ++ " viable ordered candidates"⟩]
  else []

/-- The order of the set of open items. -/
def OpenItem.cmp (left right : OpenItem) : Ordering :=
  (Utf8.cmp left.code.asStr right.code.asStr).then (Utf8.cmp left.detail right.detail)

/-! ## The loop -/

/-- The variables of the loop: the entry at hand with the needed objects that remain. -/
structure Exploration where
  parent : QueueEntry
  sonames : List String
  queue : List QueueEntry
  seen : List String
  dependencies : List Dependency
  openItems : List OpenItem
  bytesRead : Nat
deriving DecidableEq

/-- The search path that an object passes on. -/
def passedRpath (parent : QueueEntry) : Except ScaffoldError (List (List UInt8) × List OpenItem) :=
  if parent.info.runpath = [] then do
    let (paths, items) ← expandPaths parent.info.rpath parent.artifact.resolved
    pure (deduplicatePaths (parent.inheritedRpath ++ paths), items)
  else pure (deduplicatePaths parent.inheritedRpath, [])

section Loop

variable (env : Environment) (profile : HostProfile) (cache : LoaderCache)

/-- The body of the inner loop. -/
def handleNeeded (s : Exploration) (soname : String) (sonames : List String) :
    Except ScaffoldError Exploration := do
  rejectIf (maxDependencies ≤ s.dependencies.length) .boundExceeded
  let (candidates, items) ← searchCandidates env s.parent soname profile cache
  let first ← okOr candidates.head? .dependencyMissing
  let ((selected, bytes), bytesRead) ←
    env.inspectArtifact (Utf8.bytes first.path) false s.bytesRead
  let info ← unchecked .elfInvalid (parseElf bytes profile.architecture)
  let dependencies := s.dependencies ++
    [⟨soname, s.parent.artifact.resolved, selected, first.searchRule, candidates⟩]
  let openItems := s.openItems ++ items ++ conflictItems soname candidates ++ info.openItems
  if selected.resolved ∈ s.seen then
    pure { s with sonames, dependencies, openItems, bytesRead }
  else do
    let (inherited, items) ← passedRpath s.parent
    pure { s with
      sonames
      queue := s.queue ++ [⟨selected, info, inherited⟩]
      seen := s.seen ++ [selected.resolved]
      dependencies
      openItems := openItems ++ items
      bytesRead }

/-- One round. -/
def exploreRound (s : Exploration) : Round Exploration (Except ScaffoldError Exploration) :=
  match s.sonames, s.queue with
  | [], [] => .leave (.ok s)
  | [], parent :: queue => .next { s with parent, sonames := parent.info.needed, queue }
  | soname :: sonames, _ =>
    match handleNeeded env profile cache s soname sonames with
    | .ok s => .next s
    | .error error => .leave (.error error)

/-- Before the loop, with the executable at hand. -/
def Exploration.start (root : QueueEntry) (openItems : List OpenItem) (bytesRead : Nat) :
    Exploration :=
  ⟨root, root.info.needed, [], [root.artifact.resolved], [], openItems, bytesRead⟩

/-- A bound on the rounds. -/
def Exploration.measure (s : Exploration) : Nat :=
  2 * (maxDependencies - s.dependencies.length) + s.queue.length

/-- The loop. -/
def explore (s : Exploration) : Except ScaffoldError Exploration :=
  (run (exploreRound env profile cache) (s.measure + 1) s).getD (.error .boundExceeded)

end Loop

/-! ## Suggestions -/

/-- The path of the parent, as text. -/
def parentText (resolved : String) : Except ScaffoldError String := do
  let parent ← okOr (parentPath resolved) .elfDynamicInvalid
  pathText parent

/-- The reason for a root. -/
def Dependency.provenance (dependency : Dependency) : String :=
  dependency.soname ++ " required by " ++ dependency.declaredBy ++ " via " ++
    dependency.searchRule.asStr

/-- The files that ask for a root, with the reason. -/
def rootRequests (interpreter : Option Artifact) (dependencies : List Dependency) :
    List (String × String) :=
  interpreter.toList.map (fun interpreter => (interpreter.resolved, "ELF PT_INTERP")) ++
    dependencies.map fun dependency => (dependency.selected.resolved, dependency.provenance)

/-- The entry of a root in the map. -/
def rootEntry (request : String × String) : Except ScaffoldError (String × String) := do
  let path ← parentText request.1
  pure (path, request.2)

def runtimeRootSuggestions (interpreter : Option Artifact) (dependencies : List Dependency) :
    Except ScaffoldError (List RuntimeRootSuggestion) := do
  let entries ← collect rootEntry (rootRequests interpreter dependencies)
  pure ((ordered Utf8.cmp (entries.map Prod.fst)).map fun path =>
    ⟨path, ordered Utf8.cmp ((entries.filter (·.1 = path)).map Prod.snd)⟩)

/-! ## The report -/

/-- The order of the dependencies. -/
def Dependency.cmp (left right : Dependency) : Ordering :=
  (Utf8.cmp left.declaredBy right.declaredBy).then (Utf8.cmp left.soname right.soname)

/-- `inspect_artifact` of the interpreter, if there is one. -/
def inspectInterpreter (env : Environment) (interpreter : Option String) (bytesRead : Nat) :
    Except ScaffoldError (Option Artifact × Nat) :=
  match interpreter with
  | none => pure (none, bytesRead)
  | some path => do
    let ((artifact, _), bytesRead) ← env.inspectArtifact (Utf8.bytes path) true bytesRead
    pure (some artifact, bytesRead)

def execute (env : Environment) (executable : List UInt8) (profile : String) :
    Except ScaffoldError ScaffoldReport := do
  let profile ← HostProfile.parse profile
  let ((executable, bytes), bytesRead) ← env.inspectArtifact executable true 0
  let rootInfo ← unchecked .elfInvalid (parseElf bytes profile.architecture)
  requireInterpreterFamily rootInfo.interpreter profile.loader
  let (interpreter, bytesRead) ← inspectInterpreter env rootInfo.interpreter bytesRead
  let (cache, bytesRead) ← loaderCache env profile bytesRead
  let openItems := standardOpenItems ++ cache.openItems ++ rootInfo.openItems
  let s ← explore env profile cache (.start ⟨executable, rootInfo, []⟩ openItems bytesRead)
  let dependencies := sortBy Dependency.cmp s.dependencies
  let suggestedRuntimeRoots ← runtimeRootSuggestions interpreter dependencies
  pure ⟨reportSchema, false, profile.name, executable, interpreter, cache.inputs, dependencies,
    suggestedRuntimeRoots, ordered OpenItem.cmp s.openItems⟩

/-! ## What a success says -/

/-- The steps of `execute`. -/
structure Executes (env : Environment) (executable : List UInt8) (profile : String)
    (report : ScaffoldReport) (hostProfile : HostProfile) (root : QueueEntry)
    (cache : LoaderCache) (s : Exploration) : Prop where
  parses : HostProfile.parse profile = .ok hostProfile
  inspects : ∃ bytes total,
    env.inspectArtifact executable true 0 = .ok ((report.executable, bytes), total) ∧
    parseElf bytes hostProfile.architecture = .ok root.info
  rootArtifact : root.artifact = report.executable
  rootInherited : root.inheritedRpath = []
  family : requireInterpreterFamily root.info.interpreter hostProfile.loader = .ok ()
  interprets : ∃ bytesRead total,
    inspectInterpreter env root.info.interpreter bytesRead = .ok (report.interpreter, total)
  loads : ∃ bytesRead total, loaderCache env hostProfile bytesRead = .ok (cache, total)
  explores : ∃ bytesRead, explore env hostProfile cache
    (.start root (standardOpenItems ++ cache.openItems ++ root.info.openItems) bytesRead) = .ok s
  dependencies : report.dependencies = sortBy Dependency.cmp s.dependencies
  suggests : runtimeRootSuggestions report.interpreter report.dependencies =
    .ok report.suggestedRuntimeRoots
  inputs : report.resolutionInputs = cache.inputs
  items : report.openItems = ordered OpenItem.cmp s.openItems
  schema : report.schema = reportSchema
  safePolicy : report.safePolicy = false
  profileName : report.hostProfile = hostProfile.name

theorem executes_of_execute {env : Environment} {executable : List UInt8} {profile : String}
    {report : ScaffoldReport} (h : execute env executable profile = .ok report) :
    ∃ hostProfile root cache s,
      Executes env executable profile report hostProfile root cache s := by
  rw [execute] at h
  obtain ⟨hostProfile, hprofile, h⟩ := bind_eq_ok.mp h
  obtain ⟨⟨⟨artifact, bytes⟩, total⟩, hinspect, h⟩ := bind_eq_ok.mp h
  obtain ⟨info, hinfo, h⟩ := bind_eq_ok.mp h
  obtain ⟨hfamily, h⟩ := check_bind_eq_ok.mp h
  obtain ⟨⟨interpreter, total'⟩, hinterpreter, h⟩ := bind_eq_ok.mp h
  obtain ⟨⟨cache, total''⟩, hcache, h⟩ := bind_eq_ok.mp h
  obtain ⟨s, hexplore, h⟩ := bind_eq_ok.mp h
  obtain ⟨roots, hroots, h⟩ := bind_eq_ok.mp h
  cases pure_eq_ok.mp h
  exact ⟨hostProfile, ⟨artifact, info, []⟩, cache, s, {
    parses := hprofile
    inspects := ⟨bytes, total, hinspect, mapError_eq_ok.mp hinfo⟩
    rootArtifact := rfl
    rootInherited := rfl
    family := hfamily
    interprets := ⟨total, total', hinterpreter⟩
    loads := ⟨total', total'', hcache⟩
    explores := ⟨total'', hexplore⟩
    dependencies := rfl
    suggests := hroots
    inputs := rfl
    items := rfl
    schema := rfl
    safePolicy := rfl
    profileName := rfl }⟩

end ProofboundRuntime.Scaffold
