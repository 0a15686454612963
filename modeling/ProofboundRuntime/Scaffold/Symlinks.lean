import ProofboundRuntime.Lib.FileTree
import ProofboundRuntime.Lib.Loop
import ProofboundRuntime.Lib.Result
import ProofboundRuntime.Lib.Utf8

/-!
# Symbolic links on the way to an artifact

`resolve_symlinks` of `scaffold.rs`.  A path is walked from the root; at a link the target
is normalized as text, put in front of what remains, and the walk starts again at the
root.  An absolute path without dot components is the list of its names.
-/

namespace ProofboundRuntime.Scaffold

open Result Loop FileTree
open ProofboundRuntime.Path (Component components isAbsolute separator)

variable {φ : Type}

inductive ScaffoldError where
  | executablePathInvalid
  | executableReadFailed
  | executableIdentityDrift
  | elfInvalid
  | elfArchitectureMismatch
  | elfInterpreterMismatch
  | elfDynamicInvalid
  | profileUnsupported
  | loaderDataInvalid
  | dependencyMissing
  | dependencyIdentityDrift
  | boundExceeded
  | output
deriving DecidableEq

/-- `MAX_SYMLINKS`. -/
def maxSymlinks : Nat := 40

structure SymlinkHop where
  path : String
  target : String
deriving DecidableEq

/-- The components of the absolute path with these names. -/
def absolute (names : List Name) : List Component := .rootDir :: names.map .normal

/-- The bytes of the absolute path with these names. -/
def pathBytes : List Name → List UInt8
  | [] => [separator]
  | names => names.flatMap fun name => separator :: name

/-- `symlink_metadata` of an absolute path; the system takes paths shorter than `PATH_MAX`. -/
def lstat (host : Host φ) (names : List Name) : Option (Node φ) :=
  if (pathBytes names).length < pathMax then host.symlinkMetadata (absolute names) else none

/-- `path_text`. -/
def pathText (path : List UInt8) : Except ScaffoldError String :=
  okOr (Utf8.fromUtf8 path) .executablePathInvalid

theorem pathText_eq_ok {path : List UInt8} {text : String} :
    pathText path = .ok text ↔ Utf8.bytes text = path := by
  rw [pathText, okOr_eq_ok, Utf8.fromUtf8_eq_some]

/-- One component in the loop of `normalize_absolute`. -/
def normalizeComponent (parts : List Name) : Component → Except ScaffoldError (List Name)
  | .rootDir => pure []
  | .normal value => pure (parts ++ [value])
  | .curDir => pure parts
  | .parentDir => do
    rejectIf (parts = []) .executablePathInvalid
    pure parts.dropLast

def normalizeAbsolute (path : List Component) : Except ScaffoldError (List Name) := do
  rejectIf (path.head? ≠ some .rootDir) .executablePathInvalid
  path.foldlM normalizeComponent []

/-- `Path::join` of an absolute path and a path, by components: a `.` at the start of the
second is not one of the result. -/
def joinTarget (base : List Name) (target : List UInt8) : List Component :=
  if isAbsolute target then components target
  else absolute base ++ (components target).filter (· ≠ .curDir)

/-- The variables of the loop. -/
structure Resolution where
  current : List Name
  remaining : List Name
  chain : List SymlinkHop
  visited : List (List Name)
deriving DecidableEq

abbrev ResolutionResult := Except ScaffoldError (List Name × List SymlinkHop)

/-- The rest of a round at a link. -/
def followLink (s : Resolution) (link remaining : List Name) (target : List UInt8) :
    Except ScaffoldError Resolution := do
  rejectIf (maxSymlinks ≤ s.chain.length ∨ link ∈ s.visited) .executablePathInvalid
  let path ← pathText (pathBytes link)
  let target' ← pathText target
  let combined ← normalizeAbsolute (joinTarget link.dropLast target)
  pure ⟨[], combined ++ remaining, s.chain ++ [⟨path, target'⟩], link :: s.visited⟩

/-- One round of the loop. -/
def resolveRound (host : Host φ) (s : Resolution) : Round Resolution ResolutionResult :=
  match s.remaining with
  | [] => .leave (.ok (s.current, s.chain))
  | component :: remaining =>
    let current := s.current ++ [component]
    match lstat host current with
    | none => .leave (.error .executableReadFailed)
    | some (.symlink target) =>
      match followLink s current remaining target with
      | .ok s => .next s
      | .error error => .leave (.error error)
    | some _ => .next { s with current, remaining }

def normalName : Component → Option Name
  | .normal part => some part
  | _ => none

/-- The components that `resolve_symlinks` keeps. -/
def normalNames (path : List UInt8) : List Name := (components path).filterMap normalName

/-- `resolve_symlinks` leaves its loop with the result. -/
def ResolvesTo (host : Host φ) (path : List UInt8) (result : ResolutionResult) : Prop :=
  Leaves (resolveRound host) ⟨[], normalNames path, [], []⟩ result

/-- The loop up to the next link, after which it is `follow`. -/
def passNames (host : Host φ) (chain : List SymlinkHop) (visited : List (List Name))
    (follow : Resolution → ResolutionResult) : List Name → List Name → ResolutionResult
  | current, [] => .ok (current, chain)
  | current, component :: remaining =>
    match lstat host (current ++ [component]) with
    | none => .error .executableReadFailed
    | some (.symlink target) =>
      match followLink ⟨current, component :: remaining, chain, visited⟩
        (current ++ [component]) remaining target with
      | .ok s => follow s
      | .error error => .error error
    | some _ => passNames host chain visited follow (current ++ [component]) remaining

/-- The loop with fewer than so many links. -/
def resolveWithin (host : Host φ) : Nat → Resolution → ResolutionResult
  | 0, _ => .error .executablePathInvalid
  | links + 1, s => passNames host s.chain s.visited (resolveWithin host links) s.current s.remaining

/-- `resolve_symlinks`, as a function: what the loop leaves with. -/
def resolveSymlinks (host : Host φ) (path : List UInt8) : ResolutionResult :=
  resolveWithin host (maxSymlinks + 1) ⟨[], normalNames path, [], []⟩

/-! ## What a round can do -/

section Round

variable {host : Host φ} {s s' : Resolution}

theorem followLink_eq_ok {link remaining : List Name} {target : List UInt8} :
    followLink s link remaining target = .ok s' ↔
      s.chain.length < maxSymlinks ∧ link ∉ s.visited ∧
      ∃ path text combined, pathText (pathBytes link) = .ok path ∧ pathText target = .ok text ∧
        normalizeAbsolute (joinTarget link.dropLast target) = .ok combined ∧
        s' = ⟨[], combined ++ remaining, s.chain ++ [⟨path, text⟩], link :: s.visited⟩ := by
  rw [followLink, check_bind_eq_ok, rejectIf_eq_ok, not_or, not_le]
  simp only [Result.bind_eq_ok, Result.pure_eq_ok]
  constructor
  · rintro ⟨⟨hlength, hvisited⟩, path, hpath, text, htext, combined, hcombined, heq⟩
    exact ⟨hlength, hvisited, path, text, combined, hpath, htext, hcombined, heq.symm⟩
  · rintro ⟨hlength, hvisited, path, text, combined, hpath, htext, hcombined, heq⟩
    exact ⟨⟨hlength, hvisited⟩, path, hpath, text, htext, combined, hcombined, heq.symm⟩

/-- The walk goes down to an entry, or starts again with the target of a link. -/
inductive Goes (host : Host φ) : Resolution → Resolution → Prop
  | down {s : Resolution} {component : Name} {remaining : List Name} {node : Node φ} :
      s.remaining = component :: remaining →
      lstat host (s.current ++ [component]) = some node →
      node.isSymlink = false →
      Goes host s { s with current := s.current ++ [component], remaining := remaining }
  | link {s s' : Resolution} {component : Name} {remaining : List Name} {target : List UInt8} :
      s.remaining = component :: remaining →
      lstat host (s.current ++ [component]) = some (.symlink target) →
      followLink s (s.current ++ [component]) remaining target = .ok s' →
      Goes host s s'

theorem goes_of_round (h : resolveRound host s = .next s') : Goes host s s' := by
  rw [resolveRound] at h
  split at h
  next => cases h
  next component remaining hremaining =>
    dsimp only at h
    split at h
    next => cases h
    next target hlink =>
      split at h
      next followed hfollow =>
        cases h
        exact .link hremaining hlink hfollow
      next => cases h
    next node hnode hlink =>
      cases h
      refine .down hremaining hlink ?_
      cases node with
      | symlink target => exact absurd rfl (hnode target)
      | _ => rfl

theorem leave_ok_of_round {names : List Name} {chain : List SymlinkHop}
    (h : resolveRound host s = .leave (.ok (names, chain))) :
    s.remaining = [] ∧ names = s.current ∧ chain = s.chain := by
  rw [resolveRound] at h
  split at h
  next hremaining =>
    cases h
    exact ⟨hremaining, rfl, rfl⟩
  next component remaining hremaining =>
    dsimp only at h
    split at h
    next => cases h
    next =>
      split at h
      next => cases h
      next => cases h
    next => cases h

end Round

/-! ## The walk ends, at a path through no link -/

variable {host : Host φ}

/-- The function computes what the loop leaves with, as long as the links that it may still
follow are more than the bound leaves. -/
theorem leaves_resolveWithin {links : Nat} {s : Resolution}
    (hlinks : maxSymlinks < links + s.chain.length) (hchain : s.chain.length ≤ maxSymlinks) :
    Leaves (resolveRound host) s (resolveWithin host links s) := by
  induction links generalizing s with
  | zero => omega
  | succ links ih =>
    obtain ⟨current, remaining, chain, visited⟩ := s
    rw [resolveWithin]
    dsimp only at hlinks hchain ⊢
    induction remaining generalizing current with
    | nil =>
      have hround : resolveRound host ⟨current, [], chain, visited⟩ =
        .leave (.ok (current, chain)) := rfl
      exact (leaves_of_leave hround).mpr rfl
    | cons component remaining ihremaining =>
      rw [passNames]
      cases hnode : lstat host (current ++ [component]) with
      | none =>
        have hround : resolveRound host ⟨current, component :: remaining, chain, visited⟩ =
            .leave (.error .executableReadFailed) := by
          simp only [resolveRound, hnode]
        exact (leaves_of_leave hround).mpr rfl
      | some node =>
        cases node with
        | symlink target =>
          dsimp only
          cases hfollow : followLink ⟨current, component :: remaining, chain, visited⟩
              (current ++ [component]) remaining target with
          | error error =>
            have hround : resolveRound host ⟨current, component :: remaining, chain, visited⟩ =
                .leave (.error error) := by
              simp only [resolveRound, hnode, hfollow]
            exact (leaves_of_leave hround).mpr rfl
          | ok s =>
            have hround : resolveRound host ⟨current, component :: remaining, chain, visited⟩ =
                .next s := by
              simp only [resolveRound, hnode, hfollow]
            obtain ⟨hlength, -, _, _, _, -, -, -, rfl⟩ := followLink_eq_ok.mp hfollow
            refine (leaves_of_next hround).mpr (ih ?_ ?_)
            · show maxSymlinks < links + (chain ++ [_]).length
              rw [List.length_append, List.length_singleton]
              omega
            · rwa [List.length_append, List.length_singleton]
        | _ =>
          have hround : resolveRound host ⟨current, component :: remaining, chain, visited⟩ =
              .next ⟨current ++ [component], remaining, chain, visited⟩ := by
            simp only [resolveRound, hnode]
          exact (leaves_of_next hround).mpr (ihremaining _)

theorem resolvesTo_resolveSymlinks (host : Host φ) (path : List UInt8) :
    ResolvesTo host path (resolveSymlinks host path) :=
  leaves_resolveWithin (Nat.lt_succ_self _) (Nat.zero_le _)

variable {names : List Name}

/-- An absolute path through no link is looked up. -/
theorem symlinkMetadata_absolute (h : LinkFree host.tree [] names) (name : Name) :
    host.symlinkMetadata (absolute (names ++ [name])) = host.tree.lookup (names ++ [name]) := by
  have hpath : absolute (names ++ [name]) =
      [Component.rootDir] ++ names.map Component.normal ++ [.normal name] := by
    simp [absolute]
  cases hroot : host.tree.isDirectory with
  | true =>
    have hlocate : host.locate [.rootDir] = some ([], linkLimit) := by
      show resolve host.tree linkLimit [] [.here] = _
      rw [resolve_here, Node.lookup, Option.any_some, hroot, if_pos rfl, resolve_nil]
    rw [hpath, Host.symlinkMetadata_append hlocate h, List.nil_append]
  | false =>
    have hlocate : host.locate (absolute names) = none := by
      show resolve host.tree linkLimit [] (.here :: _) = _
      rw [resolve_here, Node.lookup, Option.any_some, hroot]
      rfl
    have hlookup : host.tree.lookup (names ++ [name]) = none := by
      cases htree : host.tree with
      | directory entries =>
        rw [htree] at hroot
        cases hroot
      | _ => cases names <;> rfl
    have hdrop : (absolute (names ++ [name])).dropLast = absolute names := by
      rw [hpath, List.dropLast_concat]
      rfl
    rw [hlookup, Host.symlinkMetadata, hdrop, hlocate, hpath, List.getLast?_concat]
    rfl

theorem length_of_lstat {node : Node φ} (h : lstat host names = some node) :
    (pathBytes names).length < pathMax := by
  rw [lstat] at h
  split at h
  · assumption
  · cases h

theorem lookup_of_lstat {name : Name} {node : Node φ} (h : lstat host (names ++ [name]) = some node)
    (hnames : LinkFree host.tree [] names) : host.tree.lookup (names ++ [name]) = some node := by
  rw [lstat] at h
  split at h
  · rwa [symlinkMetadata_absolute hnames] at h
  · cases h

/-- Every name on the way is that of an entry that is no link. -/
def Real (tree : Node φ) (names : List Name) : Prop :=
  EachFront (fun front => ∃ node, tree.lookup front = some node ∧ node.isSymlink = false) names

theorem Real.linkFree {tree : Node φ} (h : Real tree names) : LinkFree tree [] names := by
  intro front hfront hne node hnode
  obtain ⟨other, hother, hlink⟩ := h front hfront hne
  rw [List.nil_append, hother] at hnode
  exact Option.some.inj hnode ▸ hlink

/-- The hop tells of the link. -/
def IsHop (tree : Node φ) (link : List Name) (hop : SymlinkHop) : Prop :=
  ∃ target, tree.lookup link = some (.symlink target) ∧
    pathText (pathBytes link) = .ok hop.path ∧ pathText target = .ok hop.target

/-- The chain tells of these links in their order. -/
structure IsChain (tree : Node φ) (links : List (List Name)) (chain : List SymlinkHop) : Prop where
  nodup : links.Nodup
  hops : List.Forall₂ (IsHop tree) links chain
  length : chain.length ≤ maxSymlinks

/-- The invariant of the walk. -/
structure Sound (tree : Node φ) (s : Resolution) : Prop where
  current : Real tree s.current
  chain : IsChain tree s.visited.reverse s.chain

theorem Sound.goes {s s' : Resolution} (h : Sound host.tree s) (hgoes : Goes host s s') :
    Sound host.tree s' := by
  cases hgoes with
  | down _ hnode hlink =>
    have hnode := lookup_of_lstat hnode h.current.linkFree
    exact ⟨EachFront.concat h.current ⟨_, hnode, hlink⟩, h.chain⟩
  | link _ hlink hfollow =>
    have hlink := lookup_of_lstat hlink h.current.linkFree
    obtain ⟨hlength, hvisited, path, text, combined, hpath, htext, -, rfl⟩ :=
      followLink_eq_ok.mp hfollow
    have hnodup : (s.visited.reverse ++ [_]).Nodup :=
      List.nodup_append.mpr ⟨h.chain.nodup, List.nodup_singleton _, fun link hmem other hother => by
        rw [List.mem_singleton.mp hother]
        rintro rfl
        exact hvisited (List.mem_reverse.mp hmem)⟩
    refine ⟨EachFront.nil, ?_, ?_, ?_⟩
    · rwa [List.reverse_cons]
    · rw [List.reverse_cons]
      exact List.rel_append h.chain.hops (.cons ⟨_, hlink, hpath, htext⟩ .nil)
    · rwa [List.length_append, List.length_singleton]

theorem ResolvesTo.sound {path : List UInt8} {chain : List SymlinkHop}
    (h : ResolvesTo host path (.ok (names, chain))) :
    Real host.tree names ∧ ∃ links, IsChain host.tree links chain := by
  have hstart : Sound host.tree ⟨[], normalNames path, [], []⟩ :=
    ⟨EachFront.nil, List.nodup_nil, .nil, Nat.zero_le _⟩
  obtain ⟨last, hlast, hround⟩ := Leaves.exists_last h hstart
    fun s s' hs hround => hs.goes (goes_of_round hround)
  obtain ⟨-, rfl, rfl⟩ := leave_ok_of_round hround
  exact ⟨hlast.current, _, hlast.chain⟩

/-! ## Text and resolution -/

/-- The `..` parts that take back more than the names before them. -/
def pops : List Part → Nat
  | [] => 0
  | .here :: rest => pops rest
  | .up :: rest => pops rest + 1
  | .name _ :: rest => pops rest - 1

/-- The parts as text: a `..` takes back the name before it. -/
def textual : List Name → List Part → Option (List Name)
  | current, [] => some current
  | current, .here :: rest => textual current rest
  | current, .up :: rest => if current = [] then none else textual current.dropLast rest
  | current, .name name :: rest => textual (current ++ [name]) rest

/-- Parts that take back no more than their own names stay below where they start. -/
theorem exists_textual_eq (rest : List Part) :
    ∃ tail, ∀ current, pops rest ≤ current.length →
      textual current rest = some (current.take (current.length - pops rest) ++ tail) := by
  induction rest with
  | nil => exact ⟨[], fun current _ => by simp [textual, pops]⟩
  | cons part rest ih =>
    obtain ⟨tail, htail⟩ := ih
    cases part with
    | here => exact ⟨tail, htail⟩
    | up =>
      refine ⟨tail, fun current hlength => ?_⟩
      rw [pops] at hlength
      have hne : current ≠ [] := by
        rintro rfl
        exact absurd hlength (by simp)
      have hdrop : pops rest ≤ current.dropLast.length := by
        rw [List.length_dropLast]
        omega
      rw [textual, if_neg hne, htail _ hdrop, pops, List.length_dropLast, List.dropLast_eq_take,
        List.take_take]
      congr 3
      omega
    | name name =>
      rcases Nat.eq_zero_or_pos (pops rest) with hzero | hpos
      · refine ⟨name :: tail, fun current _ => ?_⟩
        rw [textual, htail _ (by omega), pops, hzero, Nat.sub_zero, List.take_length,
          Nat.sub_zero, List.take_length, List.append_assoc]
        rfl
      · refine ⟨tail, fun current hlength => ?_⟩
        rw [pops] at hlength
        have happend : pops rest ≤ (current ++ [name]).length := by
          rw [List.length_append, List.length_singleton]
          omega
        rw [textual, htail _ happend, pops, List.length_append, List.length_singleton,
          List.take_append_of_le_length (by omega)]
        congr 3
        omega

theorem exists_textual_eq_append {rest : List Part} (h : pops rest = 0) :
    ∃ tail, ∀ current, textual current rest = some (current ++ tail) := by
  obtain ⟨tail, htail⟩ := exists_textual_eq rest
  refine ⟨tail, fun current => ?_⟩
  rw [htail current (by omega), h, Nat.sub_zero, List.take_length]

theorem textual_append (current : List Name) (first rest : List Part) :
    textual current (first ++ rest) =
      (textual current first).bind fun current => textual current rest := by
  induction first generalizing current with
  | nil => rfl
  | cons part first ih =>
    cases part with
    | here => exact ih current
    | up =>
      rw [List.cons_append, textual, textual, ih]
      split <;> rfl
    | name name => exact ih (current ++ [name])

/-- The loop of `normalize_absolute` reads the parts as text. -/
theorem foldlM_normalizeComponent {pieces : List (List UInt8)} {current names : List Name} :
    (pieces.filterMap Path.component).foldlM normalizeComponent current = .ok names ↔
      textual current (pieces.map Part.ofBytes) = some names := by
  induction pieces generalizing current with
  | nil =>
    rw [List.filterMap_nil, List.foldlM_nil, Result.pure_eq_ok, List.map_nil, textual,
      Option.some.injEq]
  | cons piece pieces ih =>
    rw [List.map_cons, List.filterMap_cons, Path.component, Part.ofBytes]
    split_ifs with hempty hdots
    · exact ih
    · rw [List.foldlM_cons, normalizeComponent, textual, bind_assoc, check_bind_eq_ok,
        rejectIf_eq_ok, pure_bind, ih]
      split_ifs with hcurrent
      · simp [hcurrent]
      · simp [hcurrent]
    · rw [List.foldlM_cons, normalizeComponent, textual, pure_bind, ih]

theorem foldlM_normal (current base : List Name) :
    (base.map Component.normal).foldlM normalizeComponent current = .ok (current ++ base) := by
  induction base generalizing current with
  | nil =>
    rw [List.append_nil]
    rfl
  | cons name base ih =>
    rw [List.map_cons, List.foldlM_cons, normalizeComponent, pure_bind, ih, List.append_assoc]
    rfl

/-- The target of a link in a directory, normalized as text. -/
theorem normalizeAbsolute_joinTarget {base names : List Name} {target : List UInt8} :
    normalizeAbsolute (joinTarget base target) = .ok names ↔
      textual (start target base) (parts target) = some names := by
  rw [normalizeAbsolute, check_bind_eq_ok, rejectIf_eq_ok, not_not, joinTarget, start, parts]
  by_cases habsolute : isAbsolute target = true
  · have hcomponents : components target =
        .rootDir :: (target.splitOn separator).filterMap Path.component := by
      rw [components, if_pos habsolute]
      rfl
    rw [if_pos habsolute, if_pos habsolute, hcomponents, List.head?_cons,
      and_iff_right rfl, List.foldlM_cons, normalizeComponent, pure_bind]
    exact foldlM_normalizeComponent
  · have hfilter : (components target).filter (· ≠ .curDir) =
        (target.splitOn separator).filterMap Path.component := by
      have hkeep : ((target.splitOn separator).filterMap Path.component).filter (· ≠ .curDir) =
          (target.splitOn separator).filterMap Path.component := by
        refine List.filter_eq_self.mpr fun component hmem => ?_
        obtain ⟨piece, -, hpiece⟩ := List.mem_filterMap.mp hmem
        rw [Path.component] at hpiece
        split_ifs at hpiece with hempty hdots
        · cases hpiece
          rfl
        · cases hpiece
          rfl
      rw [components, if_neg habsolute]
      split_ifs with hdot
      · rw [List.filter_append, hkeep]
        rfl
      · rw [List.filter_append, hkeep]
        rfl
    rw [if_neg habsolute, if_neg habsolute, hfilter, absolute, List.cons_append, List.head?_cons,
      and_iff_right rfl, List.foldlM_cons, normalizeComponent, pure_bind, List.foldlM_append,
      foldlM_normal, ok_bind, List.nil_append]
    exact foldlM_normalizeComponent

end ProofboundRuntime.Scaffold
