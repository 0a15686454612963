import ProofboundRuntime.Lib.Sha256
import ProofboundRuntime.Scaffold.Execute

/-!
# The dependency closure

A needed object of an object comes to a dependency and to an entry, whatever was found and
read before: `link`.  The loop of `execute` is a work list over these links, so what it finds
is the least set of objects that holds the executable and is closed under them, and its
dependencies are those of all needed objects of the set.
-/

namespace ProofboundRuntime.Scaffold

open Result Checked Loop Worklist Sorting
open ProofboundRuntime.Path (components isAbsolute)

/-- What one needed object of an object comes to: the dependency and the entry. -/
abbrev Link := Dependency × QueueEntry

abbrev QueueEntry.resolved (entry : QueueEntry) : String := entry.artifact.resolved

/-- The needed objects, with the objects that need them. -/
def neededPairs (objects : List QueueEntry) : List (QueueEntry × String) :=
  objects.flatMap fun parent => parent.info.needed.map fun soname => (parent, soname)

section Link

variable (env : Environment) (profile : HostProfile) (cache : LoaderCache)

/-- The first candidate, inspected on its own; it inherits the search path of the object. -/
def link (parent : QueueEntry) (soname : String) : Except ScaffoldError Link := do
  let (candidates, _) ← searchCandidates env parent soname profile cache
  let first ← okOr candidates.head? .dependencyMissing
  let ((selected, bytes), _) ← env.inspectArtifact (Utf8.bytes first.path) false 0
  let info ← unchecked .elfInvalid (parseElf bytes profile.architecture)
  let (inherited, _) ← passedRpath parent
  pure (⟨soname, parent.resolved, selected, first.searchRule, candidates⟩,
    ⟨selected, info, inherited⟩)

/-- The entries that needed objects come to. -/
def targets (parent : QueueEntry) (sonames : List String) : List QueueEntry :=
  (sonames.filterMap fun soname => (link env profile cache parent soname).toOption).map Prod.snd

def neededTargets (parent : QueueEntry) : List QueueEntry :=
  targets env profile cache parent parent.info.needed

/-- A link for each needed object. -/
def AreLinks (pairs : List (QueueEntry × String)) (links : List Link) : Prop :=
  List.Forall₂ (fun pair l => link env profile cache pair.1 pair.2 = .ok l) pairs links

end Link

variable {env : Environment} {profile : HostProfile} {cache : LoaderCache}
  {s s' : Exploration} {soname : String} {sonames : List String}

/-! ## One round -/

/-- The state after a needed object. -/
structure Handles (s : Exploration) (sonames : List String) (l : Link) (s' : Exploration) :
    Prop where
  room : s.dependencies.length < maxDependencies
  parent : s'.parent = s.parent
  sonames : s'.sonames = sonames
  queue : s'.queue = if l.2.resolved ∈ s.seen then s.queue else s.queue ++ [l.2]
  seen : s'.seen = if l.2.resolved ∈ s.seen then s.seen else s.seen ++ [l.2.resolved]
  dependencies : s'.dependencies = s.dependencies ++ [l.1]

variable {parent : QueueEntry}

/-- The search path that is passed on has been expanded for the search. -/
theorem passedRpath_of_searchCandidates {found : List Candidate × List OpenItem}
    (h : searchCandidates env parent soname profile cache = .ok found) :
    ∃ passed, passedRpath parent = .ok passed := by
  rw [searchCandidates] at h
  obtain ⟨expanded, hexpand, -⟩ := bind_eq_ok.mp h
  rw [passedRpath]
  rw [QueueEntry.dynamicPaths] at hexpand
  split
  next hrunpath =>
    rw [if_pos hrunpath] at hexpand
    rw [hexpand, ok_bind]
    exact ⟨_, rfl⟩
  next => exact ⟨_, rfl⟩

theorem handles_of_handleNeeded
    (h : handleNeeded env profile cache s soname sonames = .ok s') :
    ∃ l, link env profile cache s.parent soname = .ok l ∧ Handles s sonames l s' := by
  rw [handleNeeded, check_bind_eq_ok, rejectIf_eq_ok, not_le] at h
  obtain ⟨hroom, h⟩ := h
  obtain ⟨⟨candidates, items⟩, hsearch, h⟩ := bind_eq_ok.mp h
  obtain ⟨first, hfirst, h⟩ := bind_eq_ok.mp h
  obtain ⟨⟨⟨selected, bytes⟩, total⟩, hinspect, h⟩ := bind_eq_ok.mp h
  obtain ⟨info, hinfo, h⟩ := bind_eq_ok.mp h
  obtain ⟨⟨inherited, passed⟩, hpassed⟩ := passedRpath_of_searchCandidates hsearch
  have hlink : link env profile cache s.parent soname =
      .ok (⟨soname, s.parent.resolved, selected, first.searchRule, candidates⟩,
        ⟨selected, info, inherited⟩) := by
    rw [link, hsearch, ok_bind]
    dsimp only
    rw [hfirst, ok_bind, Environment.inspectArtifact_zero hinspect, ok_bind]
    dsimp only
    rw [hinfo, ok_bind, hpassed, ok_bind]
    rfl
  refine ⟨_, hlink, ?_⟩
  dsimp only at h
  split at h
  next hseen =>
    cases pure_eq_ok.mp h
    exact ⟨hroom, rfl, rfl, (if_pos hseen).symm, (if_pos hseen).symm, rfl⟩
  next hseen =>
    rw [hpassed, ok_bind] at h
    cases pure_eq_ok.mp h
    exact ⟨hroom, rfl, rfl, (if_neg hseen).symm, (if_neg hseen).symm, rfl⟩

/-- A round handles a needed object, or takes an entry from the queue. -/
inductive Proceeds (env : Environment) (profile : HostProfile) (cache : LoaderCache) :
    Exploration → Exploration → Prop
  | handle {s s' : Exploration} {soname : String} {sonames : List String} {l : Link} :
      s.sonames = soname :: sonames →
      link env profile cache s.parent soname = .ok l →
      Handles s sonames l s' →
      Proceeds env profile cache s s'
  | take {s : Exploration} {parent : QueueEntry} {queue : List QueueEntry} :
      s.sonames = [] →
      s.queue = parent :: queue →
      Proceeds env profile cache s
        { s with parent := parent, sonames := parent.info.needed, queue := queue }

theorem proceeds_of_round (h : exploreRound env profile cache s = .next s') :
    Proceeds env profile cache s s' := by
  rw [exploreRound] at h
  split at h
  next => cases h
  next parent queue hsonames hqueue =>
    cases h
    exact .take hsonames hqueue
  next soname sonames hsonames =>
    split at h
    next s'' hhandle =>
      cases h
      obtain ⟨l, hlink, hhandles⟩ := handles_of_handleNeeded hhandle
      exact .handle hsonames hlink hhandles
    next => cases h

theorem leave_ok_of_exploreRound (h : exploreRound env profile cache s = .leave (.ok s')) :
    s' = s ∧ s.sonames = [] ∧ s.queue = [] := by
  rw [exploreRound] at h
  split at h
  next hsonames hqueue =>
    cases h
    exact ⟨rfl, hsonames, hqueue⟩
  next => cases h
  next =>
    split at h
    next => cases h
    next => cases h

/-- A handled object takes room for one more dependency, and adds one entry at most. -/
theorem Proceeds.measure_lt (h : Proceeds env profile cache s s') : s'.measure < s.measure := by
  cases h with
  | handle _ _ hhandles =>
    have hroom := hhandles.room
    have hlength : s'.dependencies.length = s.dependencies.length + 1 := by
      rw [hhandles.dependencies, List.length_append, List.length_singleton]
    have hqueue : s'.queue.length ≤ s.queue.length + 1 := by
      rw [hhandles.queue]
      split
      · omega
      · rw [List.length_append, List.length_singleton]
    rw [Exploration.measure, Exploration.measure]
    omega
  | take _ hqueue =>
    have hlength := congrArg List.length hqueue
    rw [List.length_cons] at hlength
    rw [Exploration.measure, Exploration.measure, hlength]
    exact Nat.lt_succ_self _

/-- The loop ends, whatever the objects need. -/
theorem leaves_explore (env : Environment) (profile : HostProfile) (cache : LoaderCache)
    (s : Exploration) : Leaves (exploreRound env profile cache) s (explore env profile cache s) := by
  have hnext : ∀ s s', exploreRound env profile cache s = .next s' → s'.measure < s.measure :=
    fun s s' hround => (proceeds_of_round hround).measure_lt
  obtain ⟨result, hrun⟩ := exists_run_eq hnext (Nat.lt_succ_self s.measure)
  have hexplore : explore env profile cache s = result := by
    rw [explore, hrun]
    rfl
  rw [hexplore]
  exact ⟨_, hrun⟩

/-! ## The whole loop -/

theorem targets_cons_of_link {l : Link} (h : link env profile cache parent soname = .ok l) :
    targets env profile cache parent (soname :: sonames) =
      l.2 :: targets env profile cache parent sonames := by
  rw [targets, List.filterMap_cons, h]
  rfl

/-- The invariant of the loop. -/
structure Explored (env : Environment) (profile : HostProfile) (cache : LoaderCache)
    (root : QueueEntry) (taken : List QueueEntry) (links : List Link) (s : Exploration) : Prop where
  progress : Progress (neededTargets env profile cache) QueueEntry.resolved root taken s.queue
    (targets env profile cache s.parent s.sonames)
  seen : s.seen = (taken ++ s.queue).map QueueEntry.resolved
  areLinks : ∃ pairs, pairs ++ s.sonames.map (fun soname => (s.parent, soname)) = neededPairs taken ∧
    AreLinks env profile cache pairs links
  dependencies : s.dependencies = links.map Prod.fst

section Run

variable {root : QueueEntry} {openItems : List OpenItem} {taken : List QueueEntry}
  {links : List Link} {bytesRead : Nat}

theorem explored_start :
    Explored env profile cache root [root] [] (.start root openItems bytesRead) where
  progress := (Progress.start _ _ root).take
  seen := rfl
  areLinks := ⟨[], List.flatMap_singleton .. |>.symm, .nil⟩
  dependencies := rfl

theorem Explored.proceeds (h : Explored env profile cache root taken links s)
    (hproceeds : Proceeds env profile cache s s') :
    ∃ taken links, Explored env profile cache root taken links s' := by
  cases hproceeds with
  | @handle _ soname sonames l hsonames hlink hhandles =>
    obtain ⟨pairs, hpairs, hlinks⟩ := h.areLinks
    rw [hsonames] at hpairs
    have hprogress := h.progress
    rw [hsonames, targets_cons_of_link hlink] at hprogress
    have hnext := hprogress.handle
    rw [← h.seen, ← hhandles.queue, ← hhandles.parent, ← hhandles.sonames] at hnext
    refine ⟨taken, links ++ [l], hnext, ?_, ⟨pairs ++ [(s.parent, soname)], ?_, ?_⟩, ?_⟩
    · rw [hhandles.seen, hhandles.queue]
      split
      · exact h.seen
      · rw [h.seen]
        simp
    · rw [← hpairs, hhandles.parent, hhandles.sonames]
      simp
    · exact List.rel_append hlinks (.cons hlink .nil)
    · rw [hhandles.dependencies, h.dependencies, List.map_append]
      rfl
  | @take parent queue hsonames hqueue =>
    obtain ⟨pairs, hpairs, hlinks⟩ := h.areLinks
    rw [hsonames, List.map_nil, List.append_nil] at hpairs
    have hprogress := h.progress
    rw [hsonames, hqueue] at hprogress
    refine ⟨taken ++ [parent], links, hprogress.take, ?_, ⟨pairs, ?_, hlinks⟩, h.dependencies⟩
    · show s.seen = _
      rw [h.seen, hqueue]
      simp
    · rw [hpairs, neededPairs, neededPairs, List.flatMap_append, List.flatMap_singleton]

/-- What the loop leaves with. -/
theorem explored_of_explore (h : explore env profile cache (.start root openItems bytesRead) = .ok s) :
    ∃ objects links, Explores (neededTargets env profile cache) QueueEntry.resolved root objects ∧
      AreLinks env profile cache (neededPairs objects) links ∧
      s.dependencies = links.map Prod.fst := by
  have hleaves := leaves_explore env profile cache (.start root openItems bytesRead)
  rw [h] at hleaves
  have hstart : ∃ taken links, Explored env profile cache root taken links
      (.start root openItems bytesRead) := ⟨_, _, explored_start⟩
  have hnext : ∀ s s', (∃ taken links, Explored env profile cache root taken links s) →
      exploreRound env profile cache s = .next s' →
      ∃ taken links, Explored env profile cache root taken links s' := by
    intro s s' ⟨taken, links, hs⟩ hround
    exact hs.proceeds (proceeds_of_round hround)
  obtain ⟨last, ⟨objects, links, hlast⟩, hround⟩ := hleaves.exists_last hstart hnext
  obtain ⟨rfl, hsonames, hqueue⟩ := leave_ok_of_exploreRound hround
  obtain ⟨hprogress, -, ⟨pairs, hpairs, hlinks⟩, hdependencies⟩ := hlast
  rw [hsonames, List.map_nil, List.append_nil] at hpairs
  rw [hsonames, hqueue] at hprogress
  exact ⟨objects, links, hprogress.explores, hpairs ▸ hlinks, hdependencies⟩

/-- A loop that succeeds has emptied the queue. -/
theorem queue_eq_nil_of_explore (h : explore env profile cache s = .ok s') :
    s'.sonames = [] ∧ s'.queue = [] := by
  have hleaves := leaves_explore env profile cache s
  rw [h] at hleaves
  obtain ⟨last, -, hround⟩ := hleaves.exists_last trivial fun _ _ _ _ => trivial
  obtain ⟨rfl, hempty⟩ := leave_ok_of_exploreRound hround
  exact hempty

end Run

/-! ## Searches

What a search is, by the entries of the image and the loader data alone. -/

/-- The parent directory of a path: the path of its names without the last one. -/
def IsParentOf (path parent : String) : Prop :=
  ∃ names name, normalNames (Utf8.bytes path) = names ++ [name] ∧
    Utf8.bytes parent = pathBytes names

/-- The directory that an entry of a search path names.  `$ORIGIN` is the directory of the object;
an entry with another dollar sign and a relative one name none. -/
def EntryNames (origin entry : String) (directory : List UInt8) : Prop :=
  ∃ text, text = Words.replace (Words.replace entry "$\x7bORIGIN\x7d" origin) "$ORIGIN" origin ∧
    '$' ∉ text.toList ∧ isAbsolute (Utf8.bytes text) = true ∧ directory = Utf8.bytes text

/-- The directories that a search path names, in its order. -/
inductive Directories (origin : String) : List String → List (List UInt8) → Prop
  | nil : Directories origin [] []
  | named {entry : String} {directory : List UInt8} {entries : List String}
      {directories : List (List UInt8)} : EntryNames origin entry directory →
      Directories origin entries directories →
      Directories origin (entry :: entries) (directory :: directories)
  | skipped {entry : String} {entries : List String} {directories : List (List UInt8)} :
      (∀ directory, ¬ EntryNames origin entry directory) →
      Directories origin entries directories → Directories origin (entry :: entries) directories

/-- The entries of the image name these directories, each once. -/
def SearchPath (object : String) (entries : List String) (directories : List (List UInt8)) : Prop :=
  ∃ origin named, IsParentOf object origin ∧ Directories origin entries named ∧
    directories = firstsBy components named

/-- The search path of an object itself: the `DT_RUNPATH`, or without one the `DT_RPATH`. -/
def OwnPath (parent : QueueEntry) (rule : SearchRule) (own : List (List UInt8)) : Prop :=
  (parent.info.runpath ≠ [] ∧ rule = .elfRunpath ∧
    SearchPath parent.resolved parent.info.runpath own) ∨
  (parent.info.runpath = [] ∧ rule = .elfRpath ∧ SearchPath parent.resolved parent.info.rpath own)

/-- The places of a search, in its order: along the object's own search path, along the inherited
one, in the loader cache, in the directories of the path file and in the default ones. -/
def SearchOrder (profile : HostProfile) (cache : LoaderCache) (parent : QueueEntry)
    (soname : String) (places : List (List UInt8 × SearchRule)) : Prop :=
  let within (rule : SearchRule) (directories : List (List UInt8)) :=
    directories.map fun directory => (Path.join directory (Utf8.bytes soname), rule)
  ∃ rule own, OwnPath parent rule own ∧ places =
    within rule own ++ within .inheritedRpath parent.inheritedRpath ++
    ((cache.entries.filter (·.1 = soname)).map fun entry => (entry.2, .glibcLoaderCacheExact)) ++
    within .muslPathFile cache.extraDirectories ++
    within .profileDefault (profile.defaultDirectories.map Utf8.bytes)

/-- The search path that an object passes on: what it inherits, and its `DT_RPATH` if it has no
`DT_RUNPATH`. -/
structure Passes (parent : QueueEntry) (inherited : List (List UInt8)) : Prop where
  rpath : parent.info.runpath = [] → ∃ own, SearchPath parent.resolved parent.info.rpath own ∧
    inherited = firstsBy components (parent.inheritedRpath ++ own)
  runpath : parent.info.runpath ≠ [] → inherited = firstsBy components parent.inheritedRpath

/-- A needed object comes to a dependency and to an entry: the candidates are the places of the
search where there is something, and the first one is selected and inspected. -/
structure Selects (env : Environment) (profile : HostProfile) (cache : LoaderCache)
    (parent : QueueEntry) (needed : String) (dependency : Dependency) (target : QueueEntry) :
    Prop where
  soname : dependency.soname = needed
  declaredBy : dependency.declaredBy = parent.resolved
  candidates : ∃ places, SearchOrder profile cache parent needed places ∧
    (dependency.candidates.map fun candidate => (Utf8.bytes candidate.path, candidate.searchRule)) =
      (firstsBy (fun place => components place.1) places).filter fun place =>
        env.hasMetadata place.1
  first : dependency.candidates.head? =
    some ⟨dependency.selected.requested, dependency.searchRule⟩
  selected : target.artifact = dependency.selected
  inspects : ∃ names file, env.Inspects (Utf8.bytes dependency.selected.requested) false
      dependency.selected names file ∧
    parseElf file.bytes profile.architecture = .ok target.info
  inherited : Passes parent target.inheritedRpath

theorem expandEntry_eq_inr {origin entry : String} {directory : List UInt8} :
    expandEntry origin entry = .inr directory ↔ EntryNames origin entry directory := by
  simp only [expandEntry, EntryNames, exists_eq_left, List.contains_iff_mem]
  rw [← expandOrigin]
  generalize expandOrigin origin entry = text
  by_cases hdollar : '$' ∈ text.toList
  · simp [hdollar]
  by_cases habsolute : isAbsolute (Utf8.bytes text) = true
  · simp [hdollar, habsolute, eq_comm]
  · simp [hdollar, habsolute]

theorem directories_expandEntry (origin : String) (entries : List String) :
    Directories origin entries ((entries.map (expandEntry origin)).filterMap Sum.getRight?) := by
  induction entries with
  | nil => exact .nil
  | cons entry entries ih =>
    rw [List.map_cons, List.filterMap_cons]
    cases hentry : expandEntry origin entry with
    | inl item =>
      refine .skipped (fun directory hnames => ?_) ih
      simp [expandEntry_eq_inr.mpr hnames] at hentry
    | inr directory => exact .named (expandEntry_eq_inr.mp hentry) ih

theorem parentText_eq_ok {path parent : String} :
    parentText path = .ok parent ↔ IsParentOf path parent := by
  have hparent : ∀ {names}, parentPath path = some names ↔ ∃ front name,
      normalNames (Utf8.bytes path) = front ++ [name] ∧ pathBytes front = names := by
    intro names
    rw [parentPath]
    cases normalNames (Utf8.bytes path) using List.reverseRecOn with
    | nil => simp
    | append_singleton front name => simp
  simp only [parentText, bind_eq_ok, okOr_eq_ok, hparent, pathText_eq_ok, IsParentOf]
  constructor
  · rintro ⟨_, ⟨names, name, hnames, rfl⟩, hbytes⟩
    exact ⟨names, name, hnames, hbytes⟩
  · rintro ⟨names, name, hnames, hbytes⟩
    exact ⟨_, ⟨names, name, hnames, rfl⟩, hbytes⟩

variable {items : List OpenItem}

theorem searchPath_of_expandPaths {entries : List String} {object : String}
    {directories : List (List UInt8)} (h : expandPaths entries object = .ok (directories, items)) :
    SearchPath object entries directories := by
  rw [expandPaths] at h
  obtain ⟨bytes, hbytes, h⟩ := bind_eq_ok.mp h
  obtain ⟨origin, horigin, h⟩ := bind_eq_ok.mp h
  cases pure_eq_ok.mp h
  have hparent : parentText object = .ok origin := by
    rw [parentText, hbytes, ok_bind, horigin]
  exact ⟨origin, _, parentText_eq_ok.mp hparent, directories_expandEntry origin entries, rfl⟩

theorem passes_of_passedRpath {inherited : List (List UInt8)}
    (h : passedRpath parent = .ok (inherited, items)) : Passes parent inherited := by
  rw [passedRpath] at h
  split at h
  next hrunpath =>
    obtain ⟨⟨own, items'⟩, hexpand, h⟩ := bind_eq_ok.mp h
    cases pure_eq_ok.mp h
    exact ⟨fun _ => ⟨own, searchPath_of_expandPaths hexpand, rfl⟩, fun hne => absurd hrunpath hne⟩
  next hrunpath =>
    cases pure_eq_ok.mp h
    exact ⟨fun hnil => absurd hnil hrunpath, fun _ => rfl⟩

theorem candidates_of_searchCandidates {candidates : List Candidate}
    (h : searchCandidates env parent soname profile cache = .ok (candidates, items)) :
    ∃ places, SearchOrder profile cache parent soname places ∧
      (candidates.map fun candidate => (Utf8.bytes candidate.path, candidate.searchRule)) =
        (firstsBy (fun place => components place.1) places).filter fun place =>
          env.hasMetadata place.1 := by
  rw [searchCandidates] at h
  obtain ⟨⟨expanded, items'⟩, hexpand, h⟩ := bind_eq_ok.mp h
  obtain ⟨candidates', hcandidates, h⟩ := bind_eq_ok.mp h
  obtain ⟨-, h⟩ := check_bind_eq_ok.mp h
  cases pure_eq_ok.mp h
  have hcandidate : ∀ {found : List UInt8 × SearchRule} {c : Candidate},
      candidate found = .ok c ↔ found = (Utf8.bytes c.path, c.searchRule) ∧ True := by
    intro found c
    obtain ⟨path, rule⟩ := found
    obtain ⟨text, rule'⟩ := c
    simp only [candidate, bind_eq_ok, pathText_eq_ok, pure_eq_ok, Candidate.mk.injEq, Prod.mk.injEq,
      and_true]
    constructor
    · rintro ⟨_, hpath, rfl, rfl⟩
      exact ⟨hpath.symm, rfl⟩
    · rintro ⟨rfl, rfl⟩
      exact ⟨text, rfl, rfl, rfl⟩
  rw [collect_eq_ok_iff_eq_map hcandidate] at hcandidates
  refine ⟨parent.search soname profile cache expanded, ?_, hcandidates.1.symm⟩
  refine ⟨parent.dynamicRule, expanded, ?_, rfl⟩
  have hown := searchPath_of_expandPaths hexpand
  rw [QueueEntry.dynamicPaths] at hown
  rw [OwnPath, QueueEntry.dynamicRule]
  by_cases hrunpath : parent.info.runpath = []
  · rw [if_pos hrunpath] at hown
    exact .inr ⟨hrunpath, if_pos hrunpath, hown⟩
  · rw [if_neg hrunpath] at hown
    exact .inl ⟨hrunpath, if_neg hrunpath, hown⟩

theorem selects_of_link {l : Link} (h : link env profile cache parent soname = .ok l) :
    Selects env profile cache parent soname l.1 l.2 := by
  rw [link] at h
  obtain ⟨⟨candidates, items⟩, hsearch, h⟩ := bind_eq_ok.mp h
  obtain ⟨first, hfirst, h⟩ := bind_eq_ok.mp h
  obtain ⟨⟨⟨selected, bytes⟩, total⟩, hinspect, h⟩ := bind_eq_ok.mp h
  obtain ⟨info, hinfo, h⟩ := bind_eq_ok.mp h
  obtain ⟨⟨inherited, passed⟩, hpassed, h⟩ := bind_eq_ok.mp h
  cases pure_eq_ok.mp h
  obtain ⟨names, file, hfile, rfl, -⟩ := Environment.inspectArtifact_eq_ok.mp hinspect
  have hrequested : selected.requested = first.path :=
    Utf8.bytes_injective (pathText_eq_ok.mp hfile.requested)
  refine ⟨rfl, rfl, candidates_of_searchCandidates hsearch, ?_, rfl, ⟨names, file, ?_, ?_⟩,
    passes_of_passedRpath hpassed⟩
  · rw [hrequested]
    exact okOr_eq_ok.mp hfirst
  · rwa [hrequested]
  · exact mapError_eq_ok.mp hinfo

theorem mem_neededTargets {parent target : QueueEntry} :
    target ∈ neededTargets env profile cache parent ↔
      ∃ soname ∈ parent.info.needed, ∃ l, link env profile cache parent soname = .ok l ∧
        l.2 = target := by
  have hoption : ∀ soname l, (link env profile cache parent soname).toOption = some l ↔
      link env profile cache parent soname = .ok l := by
    intro soname l
    cases link env profile cache parent soname <;> simp [Except.toOption]
  simp only [neededTargets, targets, List.mem_map, List.mem_filterMap, hoption]
  constructor
  · rintro ⟨l, ⟨soname, hsoname, hlink⟩, htarget⟩
    exact ⟨soname, hsoname, l, hlink, htarget⟩
  · rintro ⟨soname, hsoname, l, hlink, htarget⟩
    exact ⟨l, ⟨soname, hsoname, hlink⟩, htarget⟩

variable {links : List Link}

/-- The links of the needed objects come to their targets. -/
theorem AreLinks.filterMap {pairs : List (QueueEntry × String)}
    (h : AreLinks env profile cache pairs links) :
    pairs.filterMap (fun pair => (link env profile cache pair.1 pair.2).toOption) = links := by
  induction h with
  | nil => rfl
  | cons hlink _ ih => rw [List.filterMap_cons, hlink, Except.toOption, ih]

theorem AreLinks.targets {objects : List QueueEntry}
    (h : AreLinks env profile cache (neededPairs objects) links) :
    objects.flatMap (neededTargets env profile cache) = links.map Prod.snd := by
  rw [← h.filterMap, neededPairs, List.filterMap_flatMap, List.map_flatMap]
  congr 1
  funext parent
  rw [neededTargets, Scaffold.targets, List.filterMap_map]
  rfl

/-- The objects are the least set that holds the executable and is closed under selection, and
the selections are those of all needed objects of the set.  Each object has the search path that
the first object to select it passes on. -/
structure DependencyClosure (env : Environment) (profile : HostProfile) (cache : LoaderCache)
    (root : QueueEntry) (objects : List QueueEntry) (selections : List (Dependency × QueueEntry)) :
    Prop where
  head : objects.head? = some root
  distinct : (objects.map QueueEntry.resolved).Nodup
  selects : List.Forall₂ (fun pair selection =>
    Selects env profile cache pair.1 pair.2 selection.1 selection.2) (neededPairs objects) selections
  closed : ∀ selection ∈ selections, selection.2.resolved ∈ objects.map QueueEntry.resolved
  least : ∀ paths : Set String, root.resolved ∈ paths →
    (∀ parent ∈ objects, parent.resolved ∈ paths → ∀ soname ∈ parent.info.needed,
      ∀ dependency target, Selects env profile cache parent soname dependency target →
        target.resolved ∈ paths) →
    ∀ object ∈ objects, object.resolved ∈ paths
  firsts : objects = firstsBy QueueEntry.resolved (root :: selections.map Prod.snd)

theorem dependencyClosure_of_explores {root : QueueEntry} {objects : List QueueEntry}
    (h : Explores (neededTargets env profile cache) QueueEntry.resolved root objects)
    (hlinks : AreLinks env profile cache (neededPairs objects) links) :
    DependencyClosure env profile cache root objects links := by
  refine ⟨h.head?, h.nodup, hlinks.imp fun _ _ hlink => selects_of_link hlink, ?_, ?_, ?_⟩
  · intro selection hselection
    have hmem := List.mem_map_of_mem (f := Prod.snd) hselection
    rw [← hlinks.targets] at hmem
    obtain ⟨parent, hparent, htarget⟩ := List.mem_flatMap.mp hmem
    exact h.closed hparent htarget
  · intro paths hroot hclosed
    refine h.least (fun object => object.resolved ∈ paths) hroot
      fun parent hparent hmem target htarget => ?_
    obtain ⟨soname, hsoname, l, hlink, rfl⟩ := mem_neededTargets.mp htarget
    exact hclosed parent hparent hmem soname hsoname _ _ (selects_of_link hlink)
  · rw [← hlinks.targets]
    exact h.firsts

/-! ## Suggestions -/

/-- The path is the parent directory of the interpreter or of a selected file. -/
def IsRoot (report : ScaffoldReport) (path : String) : Prop :=
  ∃ file, (file ∈ report.interpreter ∨ ∃ dependency ∈ report.dependencies,
    dependency.selected = file) ∧ IsParentOf file.resolved path

theorem paths_of_runtimeRootSuggestions {interpreter : Option Artifact}
    {dependencies : List Dependency} {suggestions : List RuntimeRootSuggestion}
    (h : runtimeRootSuggestions interpreter dependencies = .ok suggestions) :
    (suggestions.map RuntimeRootSuggestion.path).Nodup ∧
    ∀ path, path ∈ suggestions.map RuntimeRootSuggestion.path ↔
      ∃ request ∈ rootRequests interpreter dependencies, parentText request.1 = .ok path := by
  rw [runtimeRootSuggestions] at h
  obtain ⟨entries, hentries, h⟩ := bind_eq_ok.mp h
  cases pure_eq_ok.mp h
  have hpaths : (ordered Utf8.cmp (entries.map Prod.fst)).map (RuntimeRootSuggestion.path ∘
      fun path => ⟨path, ordered Utf8.cmp ((entries.filter (·.1 = path)).map Prod.snd)⟩) =
      ordered Utf8.cmp (entries.map Prod.fst) := List.map_id _
  rw [List.map_map, hpaths]
  refine ⟨(strict_ordered _).nodup, fun path => ?_⟩
  rw [mem_ordered, List.mem_map]
  constructor
  · intro ⟨entry, hentry, hpath⟩
    obtain ⟨request, hrequest, hentry⟩ := (mem_of_collect hentries).mp hentry
    obtain ⟨parent, hparent, hentry⟩ := bind_eq_ok.mp hentry
    cases pure_eq_ok.mp hentry
    exact ⟨request, hrequest, hpath ▸ hparent⟩
  · intro ⟨request, hrequest, hparent⟩
    refine ⟨(path, request.2), (mem_of_collect hentries).mpr ⟨request, hrequest, ?_⟩, rfl⟩
    rw [rootEntry, hparent, ok_bind]
    rfl

theorem isRoot_iff {report : ScaffoldReport} {path : String} :
    (∃ request ∈ rootRequests report.interpreter report.dependencies,
      parentText request.1 = .ok path) ↔ IsRoot report path := by
  simp only [parentText_eq_ok, rootRequests, IsRoot]
  cases report.interpreter with
  | none => simp
  | some interpreter => simp [or_and_right, exists_or]

/-! ## The theorem -/

/-- The interpreter of the report is the file that `PT_INTERP` names. -/
def ReportsInterpreter (env : Environment) (interpreter : Option String)
    (reported : Option Artifact) : Prop :=
  match interpreter with
  | none => reported = none
  | some path => ∃ artifact names file, reported = some artifact ∧
    env.Inspects (Utf8.bytes path) true artifact names file

/-- The report tells of the closure of the executable. -/
structure ReportsClosure (env : Environment) (executable : List UInt8) (profile : String)
    (report : ScaffoldReport) (hostProfile : HostProfile) (cache : LoaderCache) (root : QueueEntry)
    (objects : List QueueEntry) (selections : List (Dependency × QueueEntry)) : Prop where
  parses : HostProfile.parse profile = .ok hostProfile
  loads : ∃ bytesRead total, loaderCache env hostProfile bytesRead = .ok (cache, total)
  inspects : ∃ names file, env.Inspects executable true report.executable names file ∧
    parseElf file.bytes hostProfile.architecture = .ok root.info
  rootArtifact : root.artifact = report.executable
  rootInherited : root.inheritedRpath = []
  interpreter : ReportsInterpreter env root.info.interpreter report.interpreter
  closure : DependencyClosure env hostProfile cache root objects selections
  dependencies : report.dependencies = sortBy Dependency.cmp (selections.map Prod.fst)
  rootsDistinct : (report.suggestedRuntimeRoots.map RuntimeRootSuggestion.path).Nodup
  roots : ∀ path, path ∈ report.suggestedRuntimeRoots.map RuntimeRootSuggestion.path ↔
    IsRoot report path

theorem reportsInterpreter_of_inspectInterpreter {interpreter : Option String}
    {reported : Option Artifact} {bytesRead total : Nat}
    (h : inspectInterpreter env interpreter bytesRead = .ok (reported, total)) :
    ReportsInterpreter env interpreter reported := by
  cases interpreter with
  | none =>
    cases pure_eq_ok.mp h
    rfl
  | some path =>
    obtain ⟨⟨⟨artifact, bytes⟩, total'⟩, hinspect, h⟩ := bind_eq_ok.mp h
    cases pure_eq_ok.mp h
    obtain ⟨names, file, hfile, -⟩ := Environment.inspectArtifact_eq_ok.mp hinspect
    exact ⟨artifact, names, file, rfl, hfile⟩

theorem Executes.reportsClosure {executable : List UInt8} {profile : String}
    {report : ScaffoldReport} {hostProfile : HostProfile} {root : QueueEntry}
    (h : Executes env executable profile report hostProfile root cache s) :
    ∃ objects selections,
      ReportsClosure env executable profile report hostProfile cache root objects selections := by
  obtain ⟨bytesRead, hexplore⟩ := h.explores
  obtain ⟨objects, links, hexplores, hlinks, hdependencies⟩ := explored_of_explore hexplore
  obtain ⟨hdistinct, hroots⟩ := paths_of_runtimeRootSuggestions h.suggests
  obtain ⟨bytes, total, hinspect, hparse⟩ := h.inspects
  obtain ⟨names, file, hfile, rfl, -⟩ := Environment.inspectArtifact_eq_ok.mp hinspect
  obtain ⟨bytesRead', total', hinterpreter⟩ := h.interprets
  refine ⟨objects, links, h.parses, h.loads, ⟨names, file, hfile, hparse⟩, h.rootArtifact,
    h.rootInherited, reportsInterpreter_of_inspectInterpreter hinterpreter,
    dependencyClosure_of_explores hexplores hlinks, ?_, hdistinct, ?_⟩
  · rw [h.dependencies, hdependencies]
  · intro path
    rw [hroots, isRoot_iff]

/-- The loop of `execute` ends with an empty queue or an error, whatever the objects need.  When
`execute` succeeds its dependencies are those of the needed objects of the dependency closure,
and its roots are the parent directories of the interpreter and the selected files. -/
theorem execute_reportsClosure (env : Environment) :
    (∀ profile cache s, Leaves (exploreRound env profile cache) s (explore env profile cache s) ∧
      ∀ last, explore env profile cache s = .ok last → last.sonames = [] ∧ last.queue = []) ∧
    ∀ executable profile report, execute env executable profile = .ok report →
      ∃ hostProfile cache root objects selections,
        ReportsClosure env executable profile report hostProfile cache root objects selections := by
  constructor
  · intro profile cache s
    exact ⟨leaves_explore env profile cache s, fun last => queue_eq_nil_of_explore⟩
  · intro executable profile report h
    obtain ⟨hostProfile, root, cache, s, hexecutes⟩ := executes_of_execute h
    obtain ⟨objects, selections, hreports⟩ := hexecutes.reportsClosure
    exact ⟨hostProfile, cache, root, objects, selections, hreports⟩

/-- A word of an image. -/
def elfWord (n : Nat) : List UInt8 := LittleEndian.toBytes 8 n

/-- A program header. -/
def elfSegment (kind : UInt8) (place size : Nat) : List UInt8 :=
  [kind, 0, 0, 0, 0, 0, 0, 0] ++ [place, place, 0, size, size, 0].flatMap elfWord

/-- An image with an interpreter text, the entries of a dynamic section and its strings. -/
def sampleElf (interpreter : List UInt8) (entries : List Nat) (strings : List UInt8) : List UInt8 :=
  let table := 232 + 8 * (entries.length + 6)
  let text := table + strings.length
  [0x7f, 0x45, 0x4c, 0x46, 2, 1, 1] ++ List.replicate 11 0 ++ [62, 0] ++ List.replicate 12 0 ++
    elfWord 64 ++ List.replicate 12 0 ++ [64, 0, 56, 0, 3, 0, 0, 0, 0, 0, 0, 0] ++
    elfSegment 1 0 text ++ elfSegment 2 232 (table - 232) ++
    elfSegment (if interpreter = [] then 4 else 3) text interpreter.length ++
    (entries ++ [5, table, 10, strings.length, 0, 0]).flatMap elfWord ++ strings ++ interpreter

/-- The executable `/e` with the interpreter `/i/ld-musl-x.so.1` needs `a`, with a `DT_RPATH`
`$ORIGIN/r`; `/r/a` needs `b`, with a `DT_RUNPATH` `/u`; and `/u/b` needs `a`, which it finds along
the search path that it inherits. -/
def loopTree : FileTree.Node File :=
  .directory [
    (Utf8.bytes "e", .file ⟨true, sampleElf (Utf8.bytes "/i/ld-musl-x.so.1" ++ [0]) [1, 1, 15, 3]
      ([0] ++ Utf8.bytes "a" ++ [0] ++ Utf8.bytes "$ORIGIN/r" ++ [0]), 0o755⟩),
    (Utf8.bytes "i", .directory [(Utf8.bytes "ld-musl-x.so.1", .file ⟨true, [], 0o755⟩)]),
    (Utf8.bytes "r", .directory [(Utf8.bytes "a", .file ⟨true, sampleElf [] [1, 1, 29, 3]
      ([0] ++ Utf8.bytes "b" ++ [0] ++ Utf8.bytes "/u" ++ [0]), 0o644⟩)]),
    (Utf8.bytes "u", .directory [(Utf8.bytes "b", .file ⟨true, sampleElf [] [1, 1]
      ([0] ++ Utf8.bytes "a" ++ [0]), 0o644⟩)])]

theorem eachLink_loopTree (P : List UInt8 → Prop) : loopTree.EachLink P := by
  have hfile : ∀ (name : FileTree.Name) (file : File),
      (FileTree.Node.directory [(name, .file file)]).EachLink P := by
    intro name file
    refine FileTree.Node.eachLink_directory fun entry hentry => ?_
    rw [List.mem_singleton.mp hentry]
    exact FileTree.Node.eachLink_file _
  refine FileTree.Node.eachLink_directory fun entry hentry => ?_
  simp only [List.mem_cons, List.not_mem_nil, or_false] at hentry
  rcases hentry with rfl | rfl | rfl | rfl
  · exact FileTree.Node.eachLink_file _
  · exact hfile _ _
  · exact hfile _ _
  · exact hfile _ _

def loopEnvironment : Environment where
  host := ⟨loopTree, []⟩
  links := eachLink_loopTree _
  ldconfig := fun _ => none
  sha256 := Sha256.hash

theorem execute_reportsClosure_loop :
    ∃ report, execute loopEnvironment (Utf8.bytes "/e") "linux-musl-x86-64-v1" = .ok report ∧
      report.dependencies.map (fun dependency => (dependency.declaredBy, dependency.soname,
        dependency.selected.resolved, dependency.searchRule)) =
        [("/e", "a", "/r/a", .elfRpath), ("/r/a", "b", "/u/b", .elfRunpath),
          ("/u/b", "a", "/r/a", .inheritedRpath)] ∧
      report.suggestedRuntimeRoots.map RuntimeRootSuggestion.path = ["/i", "/r", "/u"] ∧
      ∃ hostProfile cache root objects selections, ReportsClosure loopEnvironment
        (Utf8.bytes "/e") "linux-musl-x86-64-v1" report hostProfile cache root objects selections := by
  have hdependencies : (execute loopEnvironment (Utf8.bytes "/e") "linux-musl-x86-64-v1").map
      (fun report => (report.dependencies.map fun dependency => (dependency.declaredBy,
        dependency.soname, dependency.selected.resolved, dependency.searchRule),
        report.suggestedRuntimeRoots.map RuntimeRootSuggestion.path)) =
      .ok ([("/e", "a", "/r/a", .elfRpath), ("/r/a", "b", "/u/b", .elfRunpath),
        ("/u/b", "a", "/r/a", .inheritedRpath)], ["/i", "/r", "/u"]) := by
    decide +kernel
  obtain ⟨report, hreport, hmap⟩ := map_eq_ok.mp hdependencies
  obtain ⟨hmap, hroots⟩ := Prod.mk.injEq .. ▸ hmap
  exact ⟨report, hreport, hmap, hroots,
    (execute_reportsClosure loopEnvironment).2 _ _ report hreport⟩

end ProofboundRuntime.Scaffold
