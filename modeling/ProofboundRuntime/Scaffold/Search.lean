import ProofboundRuntime.Lib.Worklist
import ProofboundRuntime.Scaffold.Artifact
import ProofboundRuntime.Scaffold.Elf

/-!
# Where an object is searched

The host profiles, the loader data, the search paths of an object and the candidates found
along them, as in `scaffold.rs`.  A set that the source inserts open items into is the list
of the items inserted.
-/

namespace ProofboundRuntime.Scaffold

open Result Worklist
open ProofboundRuntime.Path (components isAbsolute)

/-! ## Profiles -/

inductive LoaderFamily where
  | glibc
  | musl
deriving DecidableEq

structure HostProfile where
  name : String
  architecture : Architecture
  loader : LoaderFamily
  defaultDirectories : List String
deriving DecidableEq

def HostProfile.parse (value : String) : Except ScaffoldError HostProfile :=
  if value = "linux-glibc-x86-64-v1" then
    .ok ⟨"linux-glibc-x86-64-v1", .x86_64, .glibc, ["/lib/x86_64-linux-gnu",
      "/usr/lib/x86_64-linux-gnu", "/lib64", "/usr/lib64", "/lib", "/usr/lib"]⟩
  else if value = "linux-glibc-aarch64-v1" then
    .ok ⟨"linux-glibc-aarch64-v1", .aarch64, .glibc, ["/lib/aarch64-linux-gnu",
      "/usr/lib/aarch64-linux-gnu", "/lib64", "/usr/lib64", "/lib", "/usr/lib"]⟩
  else if value = "linux-musl-x86-64-v1" then
    .ok ⟨"linux-musl-x86-64-v1", .x86_64, .musl, ["/lib", "/usr/local/lib", "/usr/lib"]⟩
  else if value = "linux-musl-aarch64-v1" then
    .ok ⟨"linux-musl-aarch64-v1", .aarch64, .musl, ["/lib", "/usr/local/lib", "/usr/lib"]⟩
  else .error .profileUnsupported

def requireInterpreterFamily (interpreter : Option String) (family : LoaderFamily) :
    Except ScaffoldError Unit := do
  match interpreter with
  | none => pure ()
  | some interpreter =>
    let name ← okOr (Path.fileName (Utf8.bytes interpreter)) .elfInterpreterMismatch
    let starts (text : String) : Prop := Utf8.bytes text <+: name
    match family with
    | .glibc => rejectIf (¬(starts "ld-linux" ∨ starts "ld64.so")) .elfInterpreterMismatch
    | .musl => rejectIf (¬(starts "ld-musl-" ∧ Utf8.bytes ".so.1" <:+ name)) .elfInterpreterMismatch

/-! ## Loader data -/

/-- `deduplicate_paths`; paths with the same components are equal. -/
def deduplicatePaths (paths : List (List UInt8)) : List (List UInt8) := firstsBy components paths

structure LoaderCache where
  /-- The paths of the cache with their sonames, in the order of the cache. -/
  entries : List (String × List UInt8)
  extraDirectories : List (List UInt8)
  inputs : List Artifact
  unavailable : Bool
deriving DecidableEq

/-- `LoaderCache::default`, without the data. -/
def LoaderCache.missing : LoaderCache := ⟨[], [], [], true⟩

/-- `str::to_ascii_lowercase`. -/
def toAsciiLowercase (text : String) : String := String.ofList (text.toList.map Char.toLower)

def architectureMatches (architecture : Architecture) (qualifier : String) : Bool :=
  match architecture with
  | .x86_64 => Words.containsText qualifier "x86-64" || Words.containsText qualifier "x86_64"
  | .aarch64 => Words.containsText qualifier "aarch64"

/-- One line of the output of `ldconfig -p`. -/
def cacheLine (architecture : Architecture) (line : String) :
    Except ScaffoldError (Option (String × List UInt8)) :=
  match Words.splitOnce line " => " with
  | none => pure none
  | some (left, path) =>
    match (Words.asciiWords left).head? with
    | none => pure none
    | some soname =>
      if architectureMatches architecture (toAsciiLowercase left) then do
        let path := Utf8.bytes (Words.trim path)
        rejectIf (isAbsolute path = false ∨ soname.toList.contains '/' = true) .loaderDataInvalid
        pure (some (soname, path))
      else pure none

section Environment

variable (env : Environment)

/-- `inspect_artifact` of loader data. -/
def inspectLoaderData (path : String) (executable : Bool) (bytesRead : Nat) :
    Except ScaffoldError ((Artifact × List UInt8) × Nat) :=
  (env.inspectArtifact (Utf8.bytes path) executable bytesRead).mapError fun _ => .loaderDataInvalid

def glibcCache (architecture : Architecture) (bytesRead : Nat) :
    Except ScaffoldError (LoaderCache × Nat) :=
  match ["/sbin/ldconfig", "/usr/sbin/ldconfig"].find? fun path =>
    env.hasMetadata (Utf8.bytes path) with
  | none => pure (.missing, bytesRead)
  | some helper =>
    if env.hasMetadata (Utf8.bytes "/etc/ld.so.cache") then do
      let ((helper, _), bytesRead) ← inspectLoaderData env helper true bytesRead
      let ((cache, _), bytesRead) ← inspectLoaderData env "/etc/ld.so.cache" false bytesRead
      let (success, stdout) ← okOr (env.ldconfig helper.resolved) .loaderDataInvalid
      rejectIf (success = false ∨ maxStringTableBytes < stdout.length) .loaderDataInvalid
      let text ← okOr (Utf8.fromUtf8 stdout) .loaderDataInvalid
      let entries ← collect (cacheLine architecture) ((Words.lines text).drop 1)
      pure (⟨entries.filterMap id, [], [helper, cache], false⟩, bytesRead)
    else pure (.missing, bytesRead)

/-- `str::split([':', '\n'])`, each part trimmed, without empty parts. -/
def pathEntries (text : String) : List String :=
  ((text.toList.splitOnP fun c => c == ':' || c == '\n').map fun part =>
    Words.trim (String.ofList part)).filter (· ≠ "")

def muslPaths (architecture : Architecture) (bytesRead : Nat) :
    Except ScaffoldError (LoaderCache × Nat) :=
  let path := match architecture with
    | .x86_64 => "/etc/ld-musl-x86_64.path"
    | .aarch64 => "/etc/ld-musl-aarch64.path"
  if env.hasMetadata (Utf8.bytes path) then do
    let ((input, bytes), bytesRead) ← inspectLoaderData env path false bytesRead
    let text ← okOr (Utf8.fromUtf8 bytes) .loaderDataInvalid
    let directories := (pathEntries text).map Utf8.bytes
    rejectIf ((directories.any fun path => !isAbsolute path) = true) .loaderDataInvalid
    pure (⟨[], deduplicatePaths directories, [input], false⟩, bytesRead)
  else pure (.missing, bytesRead)

def loaderCache (profile : HostProfile) (bytesRead : Nat) :
    Except ScaffoldError (LoaderCache × Nat) :=
  match profile.loader with
  | .glibc => glibcCache env profile.architecture bytesRead
  | .musl => muslPaths env profile.architecture bytesRead

end Environment

/-! ## Search paths -/

inductive OpenItemCode where
  | chooseWriteRoots
  | chooseEnvironment
  | chooseLimits
  | chooseNetworkMode
  | dynamicLoadsUnresolved
  | configurationUnresolved
  | loaderDataUnavailable
  | unsupportedDynamicToken
  | relativeSearchPath
  | searchPathConflict
deriving DecidableEq

def OpenItemCode.asStr : OpenItemCode → String
  | .chooseWriteRoots => "choose-write-roots"
  | .chooseEnvironment => "choose-environment"
  | .chooseLimits => "choose-limits"
  | .chooseNetworkMode => "choose-network-mode"
  | .dynamicLoadsUnresolved => "dynamic-loads-unresolved"
  | .configurationUnresolved => "configuration-unresolved"
  | .loaderDataUnavailable => "loader-data-unavailable"
  | .unsupportedDynamicToken => "unsupported-dynamic-token"
  | .relativeSearchPath => "relative-search-path"
  | .searchPathConflict => "search-path-conflict"

structure OpenItem where
  code : OpenItemCode
  detail : String
deriving DecidableEq

/-- `Path::parent` of a path as `resolve_symlinks` returns them. -/
def parentPath (path : String) : Option (List UInt8) :=
  match normalNames (Utf8.bytes path) with
  | [] => none
  | names => some (pathBytes names.dropLast)

/-- `$ORIGIN` in an entry. -/
def expandOrigin (origin entry : String) : String :=
  Words.replace (Words.replace entry "$\x7bORIGIN\x7d" origin) "$ORIGIN" origin

/-- The directory of an entry, or the open item that it leaves. -/
def expandEntry (origin entry : String) : OpenItem ⊕ List UInt8 :=
  let expanded := expandOrigin origin entry
  if expanded.toList.contains '$' then .inl ⟨.unsupportedDynamicToken, entry⟩
  else if isAbsolute (Utf8.bytes expanded) then .inr (Utf8.bytes expanded)
  else .inl ⟨.relativeSearchPath, entry⟩

def expandPaths (entries : List String) (object : String) :
    Except ScaffoldError (List (List UInt8) × List OpenItem) := do
  let origin ← okOr (parentPath object) .elfDynamicInvalid
  let origin ← pathText origin
  let expanded := entries.map (expandEntry origin)
  pure (deduplicatePaths (expanded.filterMap Sum.getRight?), expanded.filterMap Sum.getLeft?)

/-! ## Candidates -/

/-- `MAX_SEARCH_DIRECTORIES`. -/
def maxSearchDirectories : Nat := 256

inductive SearchRule where
  | elfRpath
  | elfRunpath
  | inheritedRpath
  | glibcLoaderCacheExact
  | muslPathFile
  | profileDefault
deriving DecidableEq

def SearchRule.asStr : SearchRule → String
  | .elfRpath => "elf-rpath"
  | .elfRunpath => "elf-runpath"
  | .inheritedRpath => "inherited-rpath"
  | .glibcLoaderCacheExact => "glibc-loader-cache-exact"
  | .muslPathFile => "musl-path-file"
  | .profileDefault => "profile-default"

structure Candidate where
  path : String
  searchRule : SearchRule
deriving DecidableEq

structure QueueEntry where
  artifact : Artifact
  info : DynamicInfo
  inheritedRpath : List (List UInt8)
deriving DecidableEq

namespace QueueEntry

variable (parent : QueueEntry)

/-- A `DT_RUNPATH` hides the `DT_RPATH`. -/
def dynamicPaths : List String :=
  if parent.info.runpath = [] then parent.info.rpath else parent.info.runpath

def dynamicRule : SearchRule := if parent.info.runpath = [] then .elfRpath else .elfRunpath

/-- The candidates in the order of the search, existing or not. -/
def search (soname : String) (profile : HostProfile) (cache : LoaderCache)
    (expanded : List (List UInt8)) : List (List UInt8 × SearchRule) :=
  let within (rule : SearchRule) (directories : List (List UInt8)) :=
    directories.map fun path => (Path.join path (Utf8.bytes soname), rule)
  within parent.dynamicRule expanded ++ within .inheritedRpath parent.inheritedRpath ++
    ((cache.entries.filter (·.1 = soname)).map fun entry => (entry.2, .glibcLoaderCacheExact)) ++
    within .muslPathFile cache.extraDirectories ++
    within .profileDefault (profile.defaultDirectories.map Utf8.bytes)

end QueueEntry

def candidate (found : List UInt8 × SearchRule) : Except ScaffoldError Candidate := do
  let path ← pathText found.1
  pure ⟨path, found.2⟩

def searchCandidates (env : Environment) (parent : QueueEntry) (soname : String)
    (profile : HostProfile) (cache : LoaderCache) :
    Except ScaffoldError (List Candidate × List OpenItem) := do
  let (expanded, items) ← expandPaths parent.dynamicPaths parent.artifact.resolved
  let search := parent.search soname profile cache expanded
  let found := (firstsBy (fun found => components found.1) search).filter fun found =>
    env.hasMetadata found.1
  let candidates ← collect candidate found
  rejectIf (maxSearchDirectories < candidates.length) .boundExceeded
  pure (candidates, items)

end ProofboundRuntime.Scaffold
