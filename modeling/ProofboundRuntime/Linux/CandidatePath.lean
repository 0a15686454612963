import ProofboundRuntime.Lib.FileTree
import ProofboundRuntime.Lib.Loop
import ProofboundRuntime.Lib.Result

/-!
# The walk of a candidate path

`walk_candidate_path` of `trace.rs` resolves the operand of a system call below the root
directory of the traced process, with bounds on the links and on the bytes of their
targets.  A path is the list of its components, which is what `Path` compares; its text is the one
that `canonicalize` and `join` write, and it is too long for the system at `PATH_MAX`.

* `walkRound` is one round of the loop; `goes_of_round` and `leave_ok_of_round` say once what
  a round can do.
* `exists_walksTo`: the loop ends, since each round follows a link or shortens what is
  pending.
* `WalksTo.confined`: the result is below the root and passes through no link.
* `walksTo_of_resolvesBelow`: where POSIX resolution below the root succeeds within the bounds and
  comes to no path that is too long, the walk returns its location.
-/

namespace ProofboundRuntime.Linux.CandidatePath

open Result Loop FileTree
open ProofboundRuntime.Path (Component components isAbsolute separator dot dotDot)

variable {φ : Type}

inductive CandidateResolutionError where
  | symlinkLimit
  | unresolved
deriving DecidableEq

/-- The variables of the loop. -/
structure Walk where
  current : List Component
  pending : List Component
  symlinkHops : Nat
  retainedTargetBytes : Nat
deriving DecidableEq

abbrev WalkResult := Except CandidateResolutionError (List Component × Nat)

/-- The arguments that the loop does not change. -/
structure Limits where
  pathByteLimit : UInt64
  symlinkHopLimit : UInt32
deriving DecidableEq

/-- `path_byte_limit.saturating_mul(symlink_hop_limit)`. -/
def Limits.targetBytes (limits : Limits) : Nat :=
  min (2 ^ 64 - 1) (limits.pathByteLimit.toNat * limits.symlinkHopLimit.toNat)

/-- `PathBuf::pop`. -/
def pop (path : List Component) : List Component :=
  match path.getLast? with
  | some .rootDir => path
  | _ => path.dropLast

/-- The text of a component, apart from separators. -/
def componentText : Component → List UInt8
  | .rootDir => []
  | .curDir => dot
  | .parentDir => dotDot
  | .normal name => name

/-- The text of a path. -/
def text (path : List Component) : List UInt8 :=
  if path = [.rootDir] then [separator]
  else List.intercalate [separator] (path.map componentText)

/-- `symlink_metadata` and `read_link` fail with `ENAMETOOLONG` on a path that is too long. -/
def lstat (host : Host φ) (path : List Component) : Option (Node φ) :=
  if (text path).length < pathMax then host.symlinkMetadata path else none

/-- The loop goes on as long as the path is below the root. -/
def confine (root : List Component) (walk : Walk) : Round Walk WalkResult :=
  if root <+: walk.current then .next walk else .leave (.error .unresolved)

/-- The branch of a link. -/
def followLink (root : List Component) (limits : Limits) (walk : Walk) (target : List UInt8)
    (rest : List Component) : Except CandidateResolutionError Walk := do
  let symlinkHops := walk.symlinkHops + 1
  rejectIf (2 ^ 32 ≤ symlinkHops) .symlinkLimit
  rejectIf (limits.symlinkHopLimit.toNat < symlinkHops) .symlinkLimit
  let retainedTargetBytes := walk.retainedTargetBytes + target.length
  rejectIf (2 ^ 64 ≤ retainedTargetBytes) .unresolved
  rejectIf (limits.targetBytes < retainedTargetBytes) .unresolved
  pure ⟨if isAbsolute target then root else walk.current, components target ++ rest, symlinkHops,
    retainedTargetBytes⟩

/-- One round of the loop. -/
def walkRound (host : Host φ) (root : List Component) (limits : Limits) (walk : Walk) :
    Round Walk WalkResult :=
  match walk.pending with
  | [] => .leave (.ok (walk.current, walk.symlinkHops))
  | .rootDir :: rest => .next { walk with pending := rest }
  | .curDir :: rest => .next { walk with pending := rest }
  | .parentDir :: rest =>
    let current := if walk.current ≠ root then pop walk.current else walk.current
    confine root { walk with current, pending := rest }
  | .normal part :: rest =>
    let candidate := walk.current ++ [.normal part]
    match lstat host candidate with
    | none => .leave (.error .unresolved)
    | some (.symlink target) =>
      match followLink root limits walk target rest with
      | .ok walk => confine root walk
      | .error error => .leave (.error error)
    | some _ => confine root { walk with current := candidate, pending := rest }

/-- The start of the loop. -/
def walkStart (root base : List Component) (operand : List UInt8) : Walk where
  current := if isAbsolute operand then root else base
  pending := components operand
  symlinkHops := 0
  retainedTargetBytes := 0

/-- `walk_candidate_path` returns the result. -/
def WalksTo (host : Host φ) (root base : List Component) (operand : List UInt8) (limits : Limits)
    (result : WalkResult) : Prop :=
  Leaves (walkRound host root limits) (walkStart root base operand) result

/-! ## What a round can do -/

section Round

variable {host : Host φ} {root : List Component} {limits : Limits} {walk walk' : Walk}

theorem lstat_eq_some {path : List Component} {node : Node φ} :
    lstat host path = some node ↔
      (text path).length < pathMax ∧ host.symlinkMetadata path = some node := by
  rw [lstat]
  split <;> simp_all

theorem confine_eq_next : confine root walk = .next walk' ↔ walk = walk' ∧ root <+: walk.current := by
  rw [confine]
  split
  next h => simp [h]
  next h => simp [h]

theorem followLink_eq_ok {target : List UInt8} {rest : List Component} :
    followLink root limits walk target rest = .ok walk' ↔
      walk.symlinkHops + 1 ≤ limits.symlinkHopLimit.toNat ∧
      walk.retainedTargetBytes + target.length ≤ limits.targetBytes ∧
      walk' = ⟨if isAbsolute target then root else walk.current, components target ++ rest,
        walk.symlinkHops + 1, walk.retainedTargetBytes + target.length⟩ := by
  have hhops : limits.symlinkHopLimit.toNat < 2 ^ 32 := limits.symlinkHopLimit.toNat_lt
  have hbytes : limits.targetBytes < 2 ^ 64 := by
    rw [Limits.targetBytes]
    omega
  simp only [followLink, check_bind_eq_ok, rejectIf_eq_ok, Result.pure_eq_ok, not_le, not_lt]
  constructor
  · rintro ⟨_, hlimit, _, hretained, hwalk⟩
    exact ⟨hlimit, hretained, hwalk.symm⟩
  · rintro ⟨hlimit, hretained, hwalk⟩
    exact ⟨by omega, hlimit, by omega, hretained, hwalk.symm⟩

/-- The walk goes on without a component that says nothing, one directory up, down to an
entry, or with the target of a link. -/
inductive Goes (host : Host φ) (root : List Component) (limits : Limits) : Walk → Walk → Prop
  | skip {walk : Walk} {component : Component} {rest : List Component} :
      walk.pending = component :: rest → Part.ofComponent component = .here →
      Goes host root limits walk { walk with pending := rest }
  | up {walk : Walk} {rest : List Component} : walk.pending = .parentDir :: rest →
      Goes host root limits walk
        { walk with
          current := if walk.current ≠ root then pop walk.current else walk.current
          pending := rest }
  | down {walk : Walk} {part : Name} {rest : List Component} {node : Node φ} :
      walk.pending = .normal part :: rest →
      lstat host (walk.current ++ [.normal part]) = some node →
      node.isSymlink = false →
      Goes host root limits walk
        { walk with current := walk.current ++ [.normal part], pending := rest }
  | link {walk walk' : Walk} {part : Name} {rest : List Component} {target : List UInt8} :
      walk.pending = .normal part :: rest →
      lstat host (walk.current ++ [.normal part]) = some (.symlink target) →
      followLink root limits walk target rest = .ok walk' →
      Goes host root limits walk walk'

theorem goes_of_round (h : walkRound host root limits walk = .next walk') :
    Goes host root limits walk walk' := by
  rw [walkRound] at h
  split at h
  next => cases h
  next rest hpending =>
    cases h
    exact .skip hpending rfl
  next rest hpending =>
    cases h
    exact .skip hpending rfl
  next rest hpending =>
    obtain ⟨rfl, -⟩ := confine_eq_next.mp h
    exact .up hpending
  next part rest hpending =>
    dsimp only at h
    split at h
    next => cases h
    next target hlink =>
      split at h
      next followed hfollow =>
        obtain ⟨rfl, -⟩ := confine_eq_next.mp h
        exact .link hpending hlink hfollow
      next => cases h
    next node hnode hlink =>
      obtain ⟨rfl, -⟩ := confine_eq_next.mp h
      refine .down hpending hlink ?_
      cases node with
      | symlink target => exact absurd rfl (hnode target)
      | _ => rfl

/-- The loop leaves with a path when nothing is pending. -/
theorem leave_ok_of_round {path : List Component} {hops : Nat}
    (h : walkRound host root limits walk = .leave (.ok (path, hops))) :
    walk.pending = [] ∧ path = walk.current ∧ hops = walk.symlinkHops := by
  have hconfine : ∀ {walk : Walk}, confine root walk ≠ .leave (.ok (path, hops)) := by
    intro walk hconfine
    rw [confine] at hconfine
    split at hconfine <;> cases hconfine
  rw [walkRound] at h
  split at h
  next hpending =>
    cases h
    exact ⟨hpending, rfl, rfl⟩
  next => cases h
  next => cases h
  next => exact absurd h hconfine
  next part rest hpending =>
    dsimp only at h
    split at h
    next => cases h
    next =>
      split at h
      next => exact absurd h hconfine
      next => cases h
    next => exact absurd h hconfine

end Round

/-! ## The walk ends -/

/-- Each round follows a link within the limit, or takes a component. -/
theorem exists_walksTo (host : Host φ) (root base : List Component) (operand : List UInt8)
    (limits : Limits) : ∃ result, WalksTo host root base operand limits result := by
  refine exists_leaves (Prod.lex Nat.lt_wfRel Nat.lt_wfRel).wf
    (fun walk => (limits.symlinkHopLimit.toNat - walk.symlinkHops, walk.pending.length))
    (fun walk walk' hround => ?_) _
  cases goes_of_round hround with
  | skip hpending | up hpending | down hpending =>
    rw [hpending]
    exact .right _ (Nat.lt_succ_self _)
  | link hpending hlink hfollow =>
    obtain ⟨hlimit, -, rfl⟩ := followLink_eq_ok.mp hfollow
    refine .left _ _ ?_
    show limits.symlinkHopLimit.toNat - (walk.symlinkHops + 1) <
      limits.symlinkHopLimit.toNat - walk.symlinkHops
    omega

/-! ## The walk stays below the root -/

/-- The path of names below the root. -/
def below (root : List Component) (names : List Name) : List Component :=
  root ++ names.map .normal

/-- No component below the root is a link. -/
def NoLinks (host : Host φ) (root : List Component) (names : List Name) : Prop :=
  EachFront (fun front => ∀ node, host.symlinkMetadata (below root front) = some node →
    node.isSymlink = false) names

section Confined

variable {host : Host φ} {root : List Component} {limits : Limits} {names : List Name}

theorem below_concat (root : List Component) (names : List Name) (part : Name) :
    below root (names ++ [part]) = below root names ++ [.normal part] := by
  rw [below, below, List.map_append, List.append_assoc]
  rfl

theorem pop_below (root : List Component) (names : List Name) :
    (if below root names ≠ root then pop (below root names) else below root names) =
      below root names.dropLast := by
  cases names using List.reverseRecOn with
  | nil => simp [below]
  | append_singleton names part =>
    have hne : below root (names ++ [part]) ≠ root := by
      intro heq
      have hlength := congrArg List.length heq
      simp only [below, List.length_append, List.length_map, List.length_singleton] at hlength
      omega
    rw [if_pos hne, below_concat, pop, List.getLast?_concat, List.dropLast_concat,
      List.dropLast_concat]

theorem prefix_below (root : List Component) (names : List Name) : root <+: below root names :=
  List.prefix_append _ _

/-- The invariant of the walk. -/
structure Confined (host : Host φ) (root : List Component) (limits : Limits) (walk : Walk) :
    Prop where
  current : ∃ names, walk.current = below root names ∧ NoLinks host root names
  hops : walk.symlinkHops ≤ limits.symlinkHopLimit.toNat

theorem Confined.goes {walk walk' : Walk} (h : Confined host root limits walk)
    (hgoes : Goes host root limits walk walk') : Confined host root limits walk' := by
  obtain ⟨names, hcurrent, hlinks⟩ := h.current
  cases hgoes with
  | skip => exact ⟨h.current, h.hops⟩
  | up =>
    refine ⟨⟨names.dropLast, ?_, EachFront.dropLast hlinks⟩, h.hops⟩
    rw [hcurrent]
    exact pop_below root names
  | @down part _ node _ hnode hlink =>
    rw [hcurrent, ← below_concat, lstat_eq_some] at hnode
    refine ⟨⟨names ++ [part], ?_, EachFront.concat hlinks fun other hother => ?_⟩, h.hops⟩
    · rw [below_concat, ← hcurrent]
    · rw [hnode.2] at hother
      exact Option.some.inj hother ▸ hlink
  | @link _ _ _ target _ _ hfollow =>
    obtain ⟨hlimit, -, rfl⟩ := followLink_eq_ok.mp hfollow
    refine ⟨?_, hlimit⟩
    by_cases habsolute : isAbsolute target = true
    · exact ⟨[], by simp [habsolute, below], EachFront.nil⟩
    · exact ⟨names, by simp [habsolute, hcurrent], hlinks⟩

variable {operand : List UInt8}

theorem confined_walkStart (h : NoLinks host root names) :
    Confined host root limits (walkStart root (below root names) operand) := by
  refine ⟨?_, Nat.zero_le _⟩
  by_cases habsolute : isAbsolute operand = true
  · exact ⟨[], by simp [walkStart, habsolute, below], EachFront.nil⟩
  · exact ⟨names, by simp [walkStart, habsolute], h⟩

theorem WalksTo.confined {path : List Component} {hops : Nat}
    (hwalk : WalksTo host root (below root names) operand limits (.ok (path, hops)))
    (h : NoLinks host root names) :
    (∃ location, path = below root location ∧ NoLinks host root location) ∧
      hops ≤ limits.symlinkHopLimit.toNat := by
  obtain ⟨last, hlast, hround⟩ := Leaves.exists_last hwalk (confined_walkStart h)
    fun walk walk' hwalk hround => hwalk.goes (goes_of_round hround)
  obtain ⟨-, rfl, rfl⟩ := leave_ok_of_round hround
  exact ⟨hlast.current, hlast.hops⟩

/-- The walk comes to a link in this round. -/
def comesToLink (host : Host φ) (walk : Walk) : Bool :=
  match walk.pending with
  | .normal part :: _ =>
    (lstat host (walk.current ++ [.normal part])).any Node.isSymlink
  | _ => false

theorem Goes.symlinkHops {walk walk' : Walk} (h : Goes host root limits walk walk') :
    walk'.symlinkHops = walk.symlinkHops + (comesToLink host walk).toNat := by
  cases h with
  | @skip component _ hpending hhere =>
    cases component with
    | rootDir => simp [comesToLink, hpending]
    | curDir => simp [comesToLink, hpending]
    | parentDir => cases hhere
    | normal => cases hhere
  | up hpending => simp [comesToLink, hpending]
  | down hpending hnode hlink => simp [comesToLink, hpending, hnode, hlink]
  | link hpending hlink hfollow =>
    obtain ⟨-, -, rfl⟩ := followLink_eq_ok.mp hfollow
    simp [comesToLink, hpending, hlink, Node.isSymlink]

/-- The hops of a result are the rounds that came to a link. -/
theorem WalksTo.exists_rounds {base : List Component} {path : List Component} {hops : Nat}
    (h : WalksTo host root base operand limits (.ok (path, hops))) :
    ∃ rounds, run (walkRound host root limits) rounds (walkStart root base operand) =
        some (.ok (path, hops)) ∧
      hops = (visited (walkRound host root limits) rounds (walkStart root base operand)).countP
        (comesToLink host) := by
  obtain ⟨rounds, hrun⟩ := h
  obtain ⟨last, hround, hcount⟩ := exists_last_count hrun
    fun walk walk' hround => (goes_of_round hround).symlinkHops
  obtain ⟨hpending, -, rfl⟩ := leave_ok_of_round hround
  have hlast : comesToLink host last = false := by
    simp [comesToLink, hpending]
  rw [hlast] at hcount
  refine ⟨rounds, hrun, hcount.trans ?_⟩
  show 0 + _ = _
  rw [Nat.zero_add]

end Confined

/-! ## The walk finds what POSIX resolution finds -/

/-- The parts that are steps. -/
def steps (parts : List Part) : List Part := parts.filter (· ≠ .here)

theorem steps_append (first rest : List Part) : steps (first ++ rest) = steps first ++ steps rest :=
  List.filter_append _ _

/-- `Path::components` leaves out parts that are no steps. -/
theorem steps_components (path : List UInt8) :
    steps ((components path).map Part.ofComponent) = steps (parts path) := by
  have hfirst : ∀ first : List Component, (∀ c ∈ first, Part.ofComponent c = .here) →
      steps (first.map Part.ofComponent) = [] := by
    intro first h
    rw [steps, List.filter_eq_nil_iff]
    intro part hpart
    obtain ⟨c, hc, rfl⟩ := List.mem_map.mp hpart
    simp [h c hc]
  have hparts : ∀ pieces : List (List UInt8),
      steps ((pieces.filterMap Path.component).map Part.ofComponent) =
        steps (pieces.map Part.ofBytes) := by
    intro pieces
    induction pieces with
    | nil => rfl
    | cons piece pieces ih =>
      rw [List.map_cons, List.filterMap_cons, Path.component, Part.ofBytes]
      split_ifs with hempty hdots
      · simpa [steps] using ih
      · simpa [steps, Part.ofComponent] using ih
      · simpa [steps, Part.ofComponent] using ih
  rw [components, parts, List.map_append, steps_append, hparts, hfirst, List.nil_append]
  intro c hc
  split_ifs at hc with habsolute hdot
  · rw [List.mem_singleton.mp hc]
    rfl
  · rw [List.mem_singleton.mp hc]
    rfl
  · cases hc

section Complete

variable {host : Host φ} {root : List Component} {limits : Limits} {directory : List Name}
  {left : Nat} {tree : Node φ} {names : List Name}

variable {hops bytes : Nat}

theorem walkRound_here {component : Component} {current pending : List Component}
    (h : Part.ofComponent component = .here) :
    walkRound host root limits ⟨current, component :: pending, hops, bytes⟩ =
      .next ⟨current, pending, hops, bytes⟩ := by
  cases component with
  | rootDir => rfl
  | curDir => rfl
  | parentDir => cases h
  | normal => cases h

/-- The walk comes to the next step that is pending. -/
theorem exists_next_step {part : Part} {rest : List Part} {pending : List Component}
    (h : steps (pending.map Part.ofComponent) = part :: rest) (current : List Component)
    (hops bytes : Nat) (result : WalkResult) :
    ∃ component tail, Part.ofComponent component = part ∧
      steps (tail.map Part.ofComponent) = rest ∧
      (Leaves (walkRound host root limits) ⟨current, component :: tail, hops, bytes⟩ result →
        Leaves (walkRound host root limits) ⟨current, pending, hops, bytes⟩ result) := by
  induction pending with
  | nil => cases h
  | cons component pending ih =>
    cases hcomponent : Part.ofComponent component with
    | here =>
      have htail : steps (pending.map Part.ofComponent) = part :: rest := by
        simpa [steps, hcomponent] using h
      obtain ⟨next, tail, hnext, hrest, hleaves⟩ := ih htail
      refine ⟨next, tail, hnext, hrest, fun hwalk => ?_⟩
      exact (leaves_of_next (walkRound_here hcomponent)).mpr (hleaves hwalk)
    | up =>
      have heq : Part.up :: steps (pending.map Part.ofComponent) = part :: rest := by
        simpa [steps, hcomponent] using h
      obtain ⟨hpart, hrest⟩ := List.cons.inj heq
      exact ⟨component, pending, hcomponent.trans hpart, hrest, id⟩
    | name name =>
      have heq : Part.name name :: steps (pending.map Part.ofComponent) = part :: rest := by
        simpa [steps, hcomponent] using h
      obtain ⟨hpart, hrest⟩ := List.cons.inj heq
      exact ⟨component, pending, hcomponent.trans hpart, hrest, id⟩

/-- When no step is pending, the walk is done. -/
theorem leaves_of_steps_eq_nil {current pending : List Component}
    (h : steps (pending.map Part.ofComponent) = []) :
    Leaves (walkRound host root limits) ⟨current, pending, hops, bytes⟩ (.ok (current, hops)) := by
  induction pending with
  | nil =>
    have hround : walkRound host root limits ⟨current, [], hops, bytes⟩ =
      .leave (.ok (current, hops)) := rfl
    exact (leaves_of_leave hround).mpr rfl
  | cons component pending ih =>
    have hcomponent : Part.ofComponent component = .here := by
      by_contra hne
      simp [steps, hne] at h
    have htail : steps (pending.map Part.ofComponent) = [] := by
      simpa [steps, hcomponent] using h
    exact (leaves_of_next (walkRound_here hcomponent)).mpr (ih htail)

/-- On a root that the system finds, a path below it has no links when its names have
none. -/
theorem linkFree_of_noLinks (hroot : host.locate root = some (directory, left))
    (h : NoLinks host root names) : LinkFree host.tree directory names := by
  induction names using List.reverseRecOn with
  | nil => exact EachFront.nil
  | append_singleton names part ih =>
    have hnames := ih (EachFront.mono h (List.prefix_append _ _))
    refine EachFront.concat hnames fun node hnode => EachFront.last h node ?_
    rwa [below_concat, below, Host.symlinkMetadata_append hroot hnames, List.append_assoc]

/-- What the walk reads of an entry below the root, if the path is not too long. -/
theorem lstat_below (hroot : host.locate root = some (directory, left))
    (htree : host.tree.lookup directory = some tree) (h : LinkFree host.tree directory names)
    {part : Name} (hshort : (text (below root (names ++ [part]))).length < pathMax) :
    lstat host (below root names ++ [.normal part]) = tree.lookup (names ++ [part]) := by
  rw [below_concat] at hshort
  rw [lstat, if_pos hshort, below, Host.symlinkMetadata_append hroot h, List.append_assoc,
    Node.lookup_append, htree]
  rfl

section Rounds

variable {pending : List Component} {hops bytes : Nat} {part : Name}

theorem walkRound_parentDir :
    walkRound host root limits ⟨below root names, .parentDir :: pending, hops, bytes⟩ =
      .next ⟨below root names.dropLast, pending, hops, bytes⟩ := by
  rw [walkRound]
  dsimp only
  rw [pop_below, confine, if_pos (prefix_below root _)]

theorem walkRound_entry {node : Node φ}
    (hnode : lstat host (below root names ++ [.normal part]) = some node)
    (hlink : node.isSymlink = false) :
    walkRound host root limits ⟨below root names, .normal part :: pending, hops, bytes⟩ =
      .next ⟨below root (names ++ [part]), pending, hops, bytes⟩ := by
  rw [walkRound]
  dsimp only
  rw [hnode, ← below_concat]
  cases node with
  | symlink target => cases hlink
  | _ => exact if_pos (prefix_below root _)

theorem walkRound_link {target : List UInt8}
    (hlink : lstat host (below root names ++ [.normal part]) = some (.symlink target))
    (hhops : hops + 1 ≤ limits.symlinkHopLimit.toNat)
    (hbytes : bytes + target.length ≤ limits.targetBytes) :
    walkRound host root limits ⟨below root names, .normal part :: pending, hops, bytes⟩ =
      .next ⟨below root (start target names), components target ++ pending, hops + 1,
        bytes + target.length⟩ := by
  have hstart : (if isAbsolute target then root else below root names) =
      below root (start target names) := by
    rw [start]
    split
    · exact (List.append_nil root).symm
    · rfl
  rw [walkRound]
  dsimp only
  rw [hlink]
  dsimp only
  rw [followLink_eq_ok.mpr ⟨hhops, hbytes, rfl⟩]
  dsimp only
  rw [hstart, confine, if_pos (prefix_below root _)]

end Rounds

/-- The resolution from a state comes to no path that is too long. -/
def Short (root : List Component) (tree : Node φ) (s : List Name × List Part) : Prop :=
  ∀ names part rest, Comes tree s (names, .name part :: rest) →
    (text (below root (names ++ [part]))).length < pathMax

theorem Short.step {s s' : List Name × List Part} (h : Short root tree s)
    (hstep : Step tree s s') : Short root tree s' :=
  fun names part rest hcomes => h names part rest (.head hstep hcomes)

/-- Induction over the resolution: the walk takes the same steps, and the links that the
resolution has still to follow are within what is left of the limits. -/
theorem leaves_of_resolves (hroot : host.locate root = some (directory, left))
    (htree : host.tree.lookup directory = some tree) {rest : List Part} {links : List (List UInt8)}
    {location : List Name} {pending : List Component}
    (hresolves : Resolves tree names rest links location)
    (hnames : LinkFree host.tree directory names) (hshort : Short root tree (names, rest))
    (hpending : steps (pending.map Part.ofComponent) = steps rest)
    (hhops : hops + links.length ≤ limits.symlinkHopLimit.toNat)
    (hbytes : bytes + (links.map List.length).sum ≤ limits.targetBytes) :
    Leaves (walkRound host root limits) ⟨below root names, pending, hops, bytes⟩
      (.ok (below root location, hops + links.length)) := by
  induction hresolves generalizing pending hops bytes with
  | done current => exact leaves_of_steps_eq_nil hpending
  | here hnode hdirectory _ ih =>
    exact ih hnames (hshort.step (.here hnode hdirectory)) hpending hhops hbytes
  | up hnode hdirectory _ ih =>
    obtain ⟨component, pending, hup, hrest, hleaves⟩ := exists_next_step hpending _ hops bytes _
    refine hleaves ?_
    cases component with
    | parentDir =>
      refine (leaves_of_next walkRound_parentDir).mpr ?_
      exact ih (EachFront.dropLast hnames) (hshort.step (.up hnode hdirectory)) hrest hhops hbytes
    | _ => cases hup
  | @name current part node rest _ _ hnode hlink _ ih =>
    obtain ⟨component, pending, hname, hrest, hleaves⟩ := exists_next_step hpending _ hops bytes _
    refine hleaves ?_
    cases component with
    | normal other =>
      cases hname
      have hmetadata := lstat_below hroot htree hnames (hshort current part rest .refl)
      rw [hnode] at hmetadata
      have hnext : LinkFree host.tree directory (current ++ [part]) := by
        refine EachFront.concat hnames fun other hother => ?_
        rw [Node.lookup_append, htree, Option.bind_some, hnode] at hother
        exact Option.some.inj hother ▸ hlink
      refine (leaves_of_next (walkRound_entry hmetadata hlink)).mpr ?_
      exact ih hnext (hshort.step (.name hnode hlink)) hrest hhops hbytes
    | _ => cases hname
  | @link current part target rest links _ hlink _ ih =>
    obtain ⟨component, pending, hname, hrest, hleaves⟩ := exists_next_step hpending _ hops bytes _
    refine hleaves ?_
    rw [List.length_cons] at hhops ⊢
    rw [List.map_cons, List.sum_cons] at hbytes
    cases component with
    | normal other =>
      cases hname
      have hmetadata := lstat_below hroot htree hnames (hshort current part rest .refl)
      rw [hlink] at hmetadata
      have hstart : LinkFree host.tree directory (start target current) := by
        rw [start]
        split
        · exact EachFront.nil
        · exact hnames
      have hsteps : steps ((components target ++ pending).map Part.ofComponent) =
          steps (parts target ++ rest) := by
        rw [List.map_append, steps_append, steps_append, steps_components, hrest]
        rfl
      refine (leaves_of_next (walkRound_link hmetadata (by omega) (by omega))).mpr ?_
      rw [show hops + (links.length + 1) = hops + 1 + links.length by omega]
      exact ih hstart (hshort.step (.link hlink)) hsteps (by omega) (by omega)
    | _ => cases hname

end Complete

/-- POSIX resolution of the operand from the base, with `root` as the root directory. -/
def ResolvesBelow (host : Host φ) (root : List Component) (base : List Name)
    (operand : List UInt8) (links : List (List UInt8)) (location : List Name) : Prop :=
  ∃ directory left tree, host.locate root = some (directory, left) ∧
    host.tree.lookup directory = some tree ∧ ResolvesPath tree base operand links location

/-- The resolution of the operand comes to no path that is too long. -/
def ShortBelow (host : Host φ) (root : List Component) (base : List Name) (operand : List UInt8) :
    Prop :=
  ∀ directory left tree, host.locate root = some (directory, left) →
    host.tree.lookup directory = some tree → Short root tree (start operand base, parts operand)

theorem walksTo_of_resolvesBelow {host : Host φ} {root : List Component} {limits : Limits}
    {base location : List Name} {operand : List UInt8} {links : List (List UInt8)}
    (hbase : NoLinks host root base) (h : ResolvesBelow host root base operand links location)
    (hhops : links.length ≤ limits.symlinkHopLimit.toNat)
    (hbytes : (links.map List.length).sum ≤ limits.targetBytes)
    (hshort : ShortBelow host root base operand) :
    WalksTo host root (below root base) operand limits
      (.ok (below root location, links.length)) := by
  obtain ⟨directory, left, tree, hroot, htree, -, hresolves⟩ := h
  have hstart : walkStart root (below root base) operand =
      ⟨below root (start operand base), components operand, 0, 0⟩ := by
    rw [walkStart, start]
    split
    · rw [below, List.map_nil, List.append_nil]
    · rfl
  have hnames : LinkFree host.tree directory (start operand base) := by
    rw [start]
    split
    · exact EachFront.nil
    · exact linkFree_of_noLinks hroot hbase
  rw [WalksTo, hstart, ← Nat.zero_add links.length]
  exact leaves_of_resolves hroot htree hresolves hnames (hshort directory left tree hroot htree)
    (steps_components operand) (by omega) (by omega)

/-- The walk of an operand from a base below the root that passes through no link. -/
theorem walkCandidatePath_spec (host : Host φ) (root : List Component) (base : List Name)
    (operand : List UInt8) (limits : Limits) (hbase : NoLinks host root base) :
    (∃ result, WalksTo host root (below root base) operand limits result) ∧
    (∀ path hops, WalksTo host root (below root base) operand limits (.ok (path, hops)) →
      (∃ location, path = below root location ∧ NoLinks host root location) ∧
      hops ≤ limits.symlinkHopLimit.toNat ∧
      ∃ rounds, run (walkRound host root limits) rounds
          (walkStart root (below root base) operand) = some (.ok (path, hops)) ∧
        hops = (visited (walkRound host root limits) rounds
          (walkStart root (below root base) operand)).countP (comesToLink host)) ∧
    (∀ links location, ResolvesBelow host root base operand links location →
      links.length ≤ limits.symlinkHopLimit.toNat →
      (links.map List.length).sum ≤ limits.targetBytes →
      ShortBelow host root base operand →
      ∀ result, WalksTo host root (below root base) operand limits result ↔
        result = .ok (below root location, links.length)) := by
  refine ⟨exists_walksTo host root _ operand limits, ?_, ?_⟩
  · intro path hops hwalk
    obtain ⟨hconfined, hlimit⟩ := hwalk.confined hbase
    exact ⟨hconfined, hlimit, hwalk.exists_rounds⟩
  · intro links location h hhops hbytes hshort result
    have hwalk := walksTo_of_resolvesBelow hbase h hhops hbytes hshort
    constructor
    · intro hresult
      exact Leaves.unique hresult hwalk
    · rintro rfl
      exact hwalk

/-- `/t/w/r/f`, and the link `/t/w/l` to `r`. -/
def sampleHost : Host Unit where
  tree := .directory [([0x74], .directory [([0x77], .directory
    [([0x72], .directory [([0x66], .file ())]), ([0x6c], .symlink [0x72])])])]
  workingDirectory := []

/-- From `/t/w` below `/t` the operand `l/f` is walked to `/t/w/r/f`. -/
theorem walkCandidatePath_spec_sample :
    NoLinks sampleHost [.rootDir, .normal [0x74]] [[0x77]] ∧
    WalksTo sampleHost [.rootDir, .normal [0x74]] (below [.rootDir, .normal [0x74]] [[0x77]])
      [0x6c, 0x2f, 0x66] ⟨4096, 4⟩
      (.ok (below [.rootDir, .normal [0x74]] [[0x77], [0x72], [0x66]], 1)) := by
  have hbase : NoLinks sampleHost [.rootDir, .normal [0x74]] [[0x77]] := by
    refine EachFront.concat EachFront.nil fun node hnode => ?_
    cases hnode
    rfl
  have hresolves : ResolvesBelow sampleHost [.rootDir, .normal [0x74]] [[0x77]]
      [0x6c, 0x2f, 0x66] [[0x72]] [[0x77], [0x72], [0x66]] := by
    refine ⟨[[0x74]], 40, _, rfl, rfl, List.cons_ne_nil _ _, ?_⟩
    exact .link rfl (.name rfl rfl (.name rfl rfl (.done _)))
  have hshort : ShortBelow sampleHost [.rootDir, .normal [0x74]] [[0x77]] [0x6c, 0x2f, 0x66] := by
    intro directory left tree hroot htree
    cases hroot
    cases htree
    -- the resolution is at `l` and at `f` of the operand, and at `r` of the target
    intro names part rest hcomes
    rcases hcomes.eq_or_of_step (.link rfl) with heq | hcomes
    · cases heq
      decide
    rcases hcomes.eq_or_of_step (.name rfl rfl) with heq | hcomes
    · cases heq
      decide
    rcases hcomes.eq_or_of_step (.name rfl rfl) with heq | hcomes
    · cases heq
      decide
    rcases Relation.ReflTransGen.cases_head hcomes with heq | ⟨_, hstep, -⟩
    · cases heq
    · cases hstep
  obtain ⟨-, -, hcomplete⟩ :=
    walkCandidatePath_spec sampleHost _ _ [0x6c, 0x2f, 0x66] ⟨4096, 4⟩ hbase
  exact ⟨hbase, (hcomplete _ _ hresolves (by decide) (by decide) hshort _).mpr rfl⟩

/-- A name of the greatest length that file systems have. -/
def longName : Name := List.replicate 255 0x61

/-- So many directories with this name, one in the other, and a file. -/
def deepTree : Nat → Node Unit
  | 0 => .file ()
  | depth + 1 => .directory [(longName, deepTree depth)]

def deepHost : Host Unit := ⟨deepTree 16, []⟩

theorem noLinks_deepHost (root : List Component) (names : List Name) :
    NoLinks deepHost root names := by
  have htree : ∀ depth, (deepTree depth).EachLink fun _ => False := by
    intro depth
    induction depth with
    | zero => exact Node.eachLink_file ()
    | succ depth ih =>
      refine Node.eachLink_directory fun entry hentry => ?_
      rw [List.mem_singleton.mp hentry]
      exact ih
  intro front _ _ node hnode
  obtain ⟨names, hlookup⟩ : ∃ names, (deepTree 16).lookup names = some node := by
    rw [Host.symlinkMetadata] at hnode
    split at hnode
    all_goals
      obtain ⟨result, -, hlookup⟩ := Option.bind_eq_some_iff.mp hnode
      exact ⟨_, hlookup⟩
  cases node with
  | symlink target => exact (htree 16 names target hlookup).elim
  | _ => rfl

theorem lookup_deepTree (depth below : Nat) :
    (deepTree (below + depth)).lookup (List.replicate depth longName) = some (deepTree below) := by
  induction depth with
  | zero => exact Node.lookup.eq_1 _
  | succ depth ih =>
    rw [List.replicate_succ, ← Nat.add_assoc, deepTree, Node.lookup, List.lookup_cons_self,
      Option.bind_some, ih]

/-- Fifteen directories down, the path of the file is too long for the system.  Resolution from the
directory finds the file, and the walk does not. -/
theorem walkCandidatePath_too_long :
    NoLinks deepHost [.rootDir] (List.replicate 15 longName) ∧
    ResolvesBelow deepHost [.rootDir] (List.replicate 15 longName) longName []
      (List.replicate 16 longName) ∧
    WalksTo deepHost [.rootDir] (below [.rootDir] (List.replicate 15 longName)) longName ⟨4096, 4⟩
      (.error .unresolved) := by
  refine ⟨noLinks_deepHost _ _, ?_, ?_⟩
  · refine ⟨[], 40, _, rfl, rfl, List.cons_ne_nil _ _, ?_⟩
    have hparts : parts longName = [.name longName] := by decide +kernel
    have hstart : start longName (List.replicate 15 longName) = List.replicate 15 longName := by
      decide +kernel
    rw [hparts, hstart]
    exact .name (lookup_deepTree 16 0) rfl (.done _)
  · have hstart : walkStart [.rootDir] (below [.rootDir] (List.replicate 15 longName)) longName =
        ⟨below [.rootDir] (List.replicate 15 longName), [.normal longName], 0, 0⟩ := by
      decide +kernel
    have hlong : ¬ (text (below [.rootDir] (List.replicate 15 longName) ++
        [.normal longName])).length < pathMax := by
      decide +kernel
    rw [WalksTo, hstart]
    refine (leaves_of_leave ?_).mpr rfl
    rw [walkRound]
    dsimp only
    rw [lstat, if_neg hlong]

end ProofboundRuntime.Linux.CandidatePath
