import ProofboundRuntime.Scaffold.Symlinks

/-!
# Symbolic links and POSIX resolution

When `resolve_symlinks` returns a path, POSIX resolution of the input leads there, unless
reading a target as text and following it differ: as text, a `..` takes back the name
before it, but it leads to the parent of what the name stands for.

`Reaches` is the part of the resolution that the walk goes along, up to where it fails, and
`TextSafe` rules out the inputs on which the two differ there.  The walk and the resolution then
go the same way (`exists_reaches`, `resolves_of_leaves`): at each state of the walk, what it has
passed and what remains is the text of the parts that the resolution has left.
-/

namespace ProofboundRuntime.Scaffold

open Loop FileTree
open ProofboundRuntime.Path (Component components isAbsolute separator)

variable {φ : Type} {tree : Node φ}

/-- The names lead to a directory. -/
def IsDirectory (tree : Node φ) (names : List Name) : Prop :=
  ∃ node, tree.lookup names = some node ∧ node.isDirectory = true

/-- The parts from the next step on. -/
def nextSteps (rest : List Part) : List Part := rest.dropWhile (· = .here)

/-- A name that a later `..` takes back is that of a directory, and a path that ends with a
separator or `.` ends at one. -/
structure Straight (tree : Node φ) (s : List Name × List Part) : Prop where
  taken_back : ∀ name back, nextSteps s.2 = .name name :: back → 0 < pops back →
    IsDirectory tree (s.1 ++ [name])
  ending : s.2 ≠ [] → nextSteps s.2 = [] → IsDirectory tree s.1

/-- The walk follows a link to the target, after these links: the path is not too long, the links
are within the bound and this one is not among them, the path and the target are UTF-8, and the
text of the target does not lead above the root. -/
structure Follows (links : List (List Name)) (current : List Name) (name : Name)
    (target : List UInt8) : Prop where
  short : (pathBytes (current ++ [name])).length < pathMax
  bound : links.length < maxSymlinks
  fresh : current ++ [name] ∉ links
  pathUtf8 : ∃ text, Utf8.bytes text = pathBytes (current ++ [name])
  targetUtf8 : ∃ text, Utf8.bytes text = target
  below : ∃ names, textual (start target current) (parts target) = some names

/-- A step of the resolution that the walk makes too, with the links followed so far.  It does not
look at a name that a later `..` takes back. -/
inductive WalkStep (tree : Node φ) :
    List (List Name) × List Name × List Part → List (List Name) × List Name × List Part → Prop
  | pass {links current part rest next} : Step tree (current, part :: rest) (next, rest) →
      (∀ name, part = .name name → pops rest = 0 → (pathBytes next).length < pathMax) →
      WalkStep tree (links, current, part :: rest) (links, next, rest)
  | link {links current name target rest} :
      tree.lookup (current ++ [name]) = some (.symlink target) →
      Follows links current name target →
      WalkStep tree (links, current, .name name :: rest)
        ((current ++ [name]) :: links, start target current, parts target ++ rest)

/-- The resolution comes from one state to another along the walk. -/
def Reaches (tree : Node φ) :
    List (List Name) × List Name × List Part → List (List Name) × List Name × List Part → Prop :=
  Relation.ReflTransGen (WalkStep tree)

theorem Reaches.comes {s s' : List (List Name) × List Name × List Part} (h : Reaches tree s s') :
    Comes tree s.2 s'.2 := by
  induction h with
  | refl => exact .refl
  | tail _ hstep ih =>
    cases hstep with
    | pass hstep => exact ih.tail hstep
    | link hlink => exact ih.tail (.link hlink)

/-- The condition holds wherever POSIX resolution of the path comes along the walk. -/
def TextSafe (tree : Node φ) (path : List UInt8) : Prop :=
  ∀ links s, Reaches tree ([], [], parts path) (links, s) → Straight tree s

section Advance

variable {links : List (List Name)} {current passed remaining : List Name} {rest : List Part}

theorem isDirectory_of_entry {names : List Name} {name : Name} {node : Node φ}
    (h : tree.lookup (names ++ [name]) = some node) : IsDirectory tree names :=
  Node.exists_directory_of_lookup h

theorem Real.not_link {names front : List Name} {name : Name} {target : List UInt8}
    (h : Real tree names) (hfront : front ++ [name] <+: names) :
    tree.lookup (front ++ [name]) ≠ some (.symlink target) := by
  intro hlookup
  obtain ⟨node, hnode, hlink⟩ := h _ hfront (by simp)
  rw [hlookup] at hnode
  cases hnode
  cases hlink

/-- What remains of the walk is nothing, or starts with a link. -/
def AtLink (tree : Node φ) (passed remaining : List Name) : Prop :=
  ∀ name tail, remaining = name :: tail →
    ∃ target, tree.lookup (passed ++ [name]) = some (.symlink target)

/-- A name of the text is one that the walk has passed, or the link it has come to. -/
theorem passed_or_next {name : Name} {tail : List Name} (hcurrent : Real tree current)
    (hlink : AtLink tree passed remaining) (htext : current ++ name :: tail = passed ++ remaining) :
    current ++ [name] <+: passed ∨ (passed = current ∧ remaining = name :: tail) := by
  rcases List.append_eq_append_iff.mp htext with ⟨more, hpassed, hmore⟩ | ⟨more, hcur, hremaining⟩
  · cases more with
    | nil =>
      rw [List.append_nil] at hpassed
      exact .inr ⟨hpassed, hmore.symm⟩
    | cons other more =>
      obtain ⟨rfl, -⟩ := List.cons.inj hmore
      exact .inl ⟨more, by rw [hpassed, List.append_assoc]; rfl⟩
  · cases more with
    | nil =>
      rw [List.append_nil] at hcur
      exact .inr ⟨hcur.symm, hremaining⟩
    | cons other more =>
      -- the link would be on the way to a directory that was reached through none
      obtain ⟨target, htarget⟩ := hlink other _ hremaining
      refine absurd htarget (hcurrent.not_link ⟨more, ?_⟩)
      rw [hcur, List.append_assoc]
      rfl

/-- Where the resolution has a step to make, it is at a directory. -/
theorem isDirectory_of_here (hstraight : Straight tree (current, .here :: rest))
    (hcurrent : Real tree current) (hpassed : Real tree passed)
    (hlink : AtLink tree passed remaining) (hpops : 0 < pops rest → IsDirectory tree current)
    (htext : textual current rest = some (passed ++ remaining)) : IsDirectory tree current := by
  induction rest with
  | nil => exact hstraight.ending (by simp) rfl
  | cons part rest ih =>
    cases part with
    | here =>
      refine ih ⟨fun name back hnext => ?_, fun _ hnext => ?_⟩ hpops htext
      · exact hstraight.taken_back name back hnext
      · exact hstraight.ending (by simp) hnext
    | up => exact hpops (Nat.succ_pos _)
    | name name =>
      rcases Nat.eq_zero_or_pos (pops rest) with hzero | hpos
      · obtain ⟨tail, htail⟩ := exists_textual_eq_append hzero
        rw [textual, htail, List.append_assoc] at htext
        rcases passed_or_next hcurrent hlink (Option.some.inj htext) with hbefore | ⟨hpassed', hnext⟩
        · obtain ⟨node, hnode, -⟩ := hpassed _ hbefore (by simp)
          exact isDirectory_of_entry hnode
        · obtain ⟨target, htarget⟩ := hlink _ _ hnext
          rw [hpassed'] at htarget
          exact isDirectory_of_entry htarget
      · obtain ⟨node, hnode, -⟩ := hstraight.taken_back name rest rfl hpos
        exact isDirectory_of_entry hnode

theorem length_pathBytes_nil : (pathBytes []).length < pathMax := by decide

theorem length_pathBytes_le {front names : List Name} (h : front <+: names) (hne : front ≠ []) :
    (pathBytes front).length ≤ (pathBytes names).length := by
  obtain ⟨more, rfl⟩ := h
  cases front with
  | nil => exact absurd rfl hne
  | cons name front => simp [pathBytes]

/-- What the resolution has left where the walk is: nothing at its end, and at a link the name of
the link and parts with the rest of the text. -/
structure Ahead (remaining : List Name) (back : List Part) : Prop where
  ending : remaining = [] → back = []
  link : ∀ name tail, remaining = name :: tail → ∃ after, back = .name name :: after ∧
    ∀ names, textual names after = some (names ++ tail)

/-- The resolution comes to where the walk is: to its end, or to the link. -/
theorem exists_reaches (hsafe : ∀ links' s, Reaches tree (links, current, rest) (links', s) →
      Straight tree s)
    (hcurrent : Real tree current) (hpassed : Real tree passed)
    (hshort : (pathBytes passed).length < pathMax)
    (hlink : AtLink tree passed remaining) (hpops : 0 < pops rest → IsDirectory tree current)
    (htext : textual current rest = some (passed ++ remaining)) :
    ∃ back, Reaches tree (links, current, rest) (links, passed, back) ∧ Ahead remaining back := by
  induction rest generalizing current with
  | nil =>
    have heq : current = passed ++ remaining := Option.some.inj htext
    cases remaining with
    | nil =>
      rw [List.append_nil] at heq
      exact ⟨[], heq ▸ .refl, fun _ => rfl, fun _ _ h => by cases h⟩
    | cons name tail =>
      obtain ⟨target, htarget⟩ := hlink name tail rfl
      refine absurd htarget (hcurrent.not_link ⟨tail, ?_⟩)
      rw [heq, List.append_assoc]
      rfl
  | cons part rest ih =>
    -- one step of the resolution, then the rest
    have advance : ∀ {next : List Name}, Step tree (current, part :: rest) (next, rest) →
        (∀ name, part = .name name → pops rest = 0 → (pathBytes next).length < pathMax) →
        Real tree next → (0 < pops rest → IsDirectory tree next) →
        textual next rest = some (passed ++ remaining) →
        ∃ back, Reaches tree (links, current, part :: rest) (links, passed, back) ∧
          Ahead remaining back := by
      intro next hstep hnext' hnext hpops htext
      have hwalk : WalkStep tree (links, current, part :: rest) (links, next, rest) :=
        .pass hstep hnext'
      obtain ⟨back, hreaches, hback⟩ :=
        ih (fun links' s hs => hsafe links' s (.head hwalk hs)) hnext hpops htext
      exact ⟨back, .head hwalk hreaches, hback⟩
    have hstraight := hsafe links _ .refl
    cases part with
    | here =>
      obtain ⟨node, hnode, hdirectory⟩ :=
        isDirectory_of_here hstraight hcurrent hpassed hlink hpops htext
      exact advance (.here hnode hdirectory) (fun _ h => by cases h) hcurrent hpops htext
    | up =>
      obtain ⟨node, hnode, hdirectory⟩ := hpops (Nat.succ_pos _)
      rw [textual] at htext
      split at htext
      next => cases htext
      next hne =>
        refine advance (.up hnode hdirectory) (fun _ h => by cases h) (EachFront.dropLast hcurrent)
          (fun _ => ?_) htext
        rw [← List.dropLast_append_getLast hne] at hnode
        exact isDirectory_of_entry hnode
    | name name =>
      rw [textual] at htext
      rcases Nat.eq_zero_or_pos (pops rest) with hzero | hpos
      · obtain ⟨tail, htail⟩ := exists_textual_eq_append hzero
        have heq := htext
        rw [htail, List.append_assoc] at heq
        rcases passed_or_next hcurrent hlink (Option.some.inj heq) with hbefore | ⟨rfl, hnext⟩
        · obtain ⟨node, hnode, hnolink⟩ := hpassed _ hbefore (by simp)
          refine advance (.name hnode hnolink) (fun _ _ _ => ?_) (EachFront.mono hpassed hbefore) ?_
            htext
          · have hle := length_pathBytes_le hbefore (by simp)
            omega
          · omega
        · refine ⟨.name name :: rest, .refl, ?_, ?_⟩
          · rw [hnext]
            exact fun h => by cases h
          · intro other tail' hremaining
            rw [hnext] at hremaining
            cases hremaining
            exact ⟨rest, rfl, htail⟩
      · obtain ⟨node, hnode, hdirectory⟩ := hstraight.taken_back name rest rfl hpos
        have hnolink : node.isSymlink = false := by
          cases node with
          | directory entries => rfl
          | _ => cases hdirectory
        exact advance (.name hnode hnolink) (fun _ _ hzero => by omega)
          (EachFront.concat hcurrent ⟨node, hnode, hnolink⟩)
          (fun _ => ⟨node, hnode, hdirectory⟩) htext

/-- A link in a directory leads to a directory to start from. -/
theorem real_start (hcurrent : Real tree current) (hdirectory : IsDirectory tree current)
    (target : List UInt8) :
    Real tree (start target current) ∧ IsDirectory tree (start target current) := by
  rw [start]
  split
  · refine ⟨EachFront.nil, ?_⟩
    cases current with
    | nil => exact hdirectory
    | cons name names =>
      obtain ⟨node, hnode, -⟩ := hdirectory
      cases tree with
      | directory entries => exact ⟨_, rfl, rfl⟩
      | _ => cases hnode
  · exact ⟨hcurrent, hdirectory⟩

end Advance

/-- A walk that returns a path returns where the resolution leads. -/
theorem resolves_of_leaves {host : Host φ} {s : Resolution} {names current : List Name}
    {chain : List SymlinkHop} {rest : List Part}
    (h : Leaves (resolveRound host) s (.ok (names, chain))) (hpassed : Real host.tree s.current)
    (hshort : (pathBytes s.current).length < pathMax) (hlength : s.chain.length = s.visited.length)
    (hsafe : ∀ links t, Reaches host.tree (s.visited, current, rest) (links, t) →
      Straight host.tree t)
    (hcurrent : Real host.tree current) (hpops : 0 < pops rest → IsDirectory host.tree current)
    (htext : textual current rest = some (s.current ++ s.remaining)) :
    Comes host.tree (current, rest) (names, []) := by
  induction h using Leaves.induction generalizing current rest with
  | leave s hround =>
    obtain ⟨hremaining, rfl, -⟩ := leave_ok_of_round hround
    have hlink : AtLink host.tree s.current s.remaining := by
      rw [hremaining]
      exact fun _ _ h => by cases h
    obtain ⟨back, hreaches, hahead⟩ :=
      exists_reaches hsafe hcurrent hpassed hshort hlink hpops htext
    rw [hahead.ending hremaining] at hreaches
    exact hreaches.comes
  | next s s' hround _ ih =>
    cases goes_of_round hround with
    | down hremaining hnode hnolink =>
      have hlookup := lookup_of_lstat hnode hpassed.linkFree
      refine ih (EachFront.concat hpassed ⟨_, hlookup, hnolink⟩) (length_of_lstat hnode) hlength
        hsafe hcurrent hpops ?_
      rw [htext, hremaining]
      simp
    | @link _ component remaining target hremaining hlink hfollow =>
      have hlong := length_of_lstat hlink
      have hlink := lookup_of_lstat hlink hpassed.linkFree
      obtain ⟨hbound, hfresh, path, text, combined, hpath, htarget, hcombined, rfl⟩ :=
        followLink_eq_ok.mp hfollow
      rw [List.dropLast_concat, normalizeAbsolute_joinTarget] at hcombined
      have hat : AtLink host.tree s.current s.remaining := by
        rw [hremaining]
        intro name tail h
        cases h
        exact ⟨target, hlink⟩
      obtain ⟨back, hreaches, hahead⟩ :=
        exists_reaches hsafe hcurrent hpassed hshort hat hpops htext
      obtain ⟨after, rfl, htail⟩ := hahead.link component remaining hremaining
      have hstep : WalkStep host.tree (s.visited, s.current, .name component :: after)
          ((s.current ++ [component]) :: s.visited, start target s.current,
            parts target ++ after) :=
        .link hlink ⟨hlong, hlength ▸ hbound, hfresh, ⟨path, pathText_eq_ok.mp hpath⟩,
          ⟨text, pathText_eq_ok.mp htarget⟩, combined, hcombined⟩
      -- the walk starts again with the text of the target and of what was left
      have hstart := real_start hpassed (isDirectory_of_entry hlink) target
      replace hreaches : Reaches host.tree _ _ := hreaches.tail hstep
      refine hreaches.comes.trans
        (ih EachFront.nil length_pathBytes_nil (by simp [hlength]) ?_ hstart.1 (fun _ => hstart.2) ?_)
      · exact fun links t ht => hsafe links t (hreaches.trans ht)
      · rw [textual_append, hcombined, Option.bind_some, htail]
        rfl

/-! ## Absolute paths without dot components -/

/-- No part of the path is `.` or `..`. -/
def WithoutDots (path : List UInt8) : Prop :=
  ∀ piece ∈ path.splitOn separator, piece ≠ Path.dot ∧ piece ≠ Path.dotDot

theorem parts_without_dots {pieces : List (List UInt8)}
    (h : ∀ piece ∈ pieces, piece ≠ Path.dot ∧ piece ≠ Path.dotDot) (current : List Name) :
    pops (pieces.map Part.ofBytes) = 0 ∧
      textual current (pieces.map Part.ofBytes) =
        some (current ++ (pieces.filterMap Path.component).filterMap normalName) := by
  induction pieces generalizing current with
  | nil => exact ⟨rfl, by simp [textual]⟩
  | cons piece pieces ih =>
    have htail := ih fun other hother => h other (List.mem_cons_of_mem _ hother)
    obtain ⟨hdot, hdots⟩ := h piece List.mem_cons_self
    rw [List.map_cons, List.filterMap_cons, Path.component, Part.ofBytes]
    split_ifs with hempty
    · exact htail current
    · obtain ⟨hpops, htext⟩ := htail (current ++ [piece])
      refine ⟨by rw [pops, hpops], ?_⟩
      rw [textual, htext, List.append_assoc]
      rfl

/-- The text of the path is what the walk starts with. -/
theorem textual_parts {path : List UInt8} (habsolute : isAbsolute path = true)
    (hdots : WithoutDots path) :
    pops (parts path) = 0 ∧ textual [] (parts path) = some (normalNames path) := by
  obtain ⟨hpops, htext⟩ := parts_without_dots hdots []
  refine ⟨hpops, ?_⟩
  rw [parts, htext, normalNames, components, if_pos habsolute]
  rfl

/-- The loop of `resolve_symlinks` ends; the path it returns passes through no link, the chain
tells of distinct links within the bound, and on inputs that are safe as text POSIX resolution
leads to the path. -/
theorem resolveSymlinks_faithful (host : Host φ) (path : List UInt8)
    (habsolute : isAbsolute path = true) (hdots : WithoutDots path) :
    ResolvesTo host path (resolveSymlinks host path) ∧
    ∀ names chain, ResolvesTo host path (.ok (names, chain)) →
      Real host.tree names ∧ (∃ links, IsChain host.tree links chain) ∧
      (TextSafe host.tree path → ∃ links, ResolvesPath host.tree [] path links names) := by
  refine ⟨resolvesTo_resolveSymlinks host path, fun names chain h => ?_⟩
  refine ⟨h.sound.1, h.sound.2, fun hsafe => ?_⟩
  obtain ⟨hpops, htext⟩ := textual_parts habsolute hdots
  have hcomes := resolves_of_leaves h EachFront.nil length_pathBytes_nil rfl hsafe
    EachFront.nil (by omega) htext
  obtain ⟨links, hlinks⟩ := hcomes.exists_resolves
  refine ⟨links, ?_, ?_⟩
  · rintro rfl
    cases habsolute
  · rwa [start, if_pos habsolute]

theorem straight_of_pops {current : List Name} {rest : List Part}
    (hending : rest = [] ∨ nextSteps rest ≠ [])
    (hpops : ∀ name back, nextSteps rest = .name name :: back → pops back = 0) :
    Straight tree (current, rest) := by
  refine ⟨fun name back hnext hpos => ?_, fun hne hnext => ?_⟩
  · have := hpops name back hnext
    omega
  · rcases hending with heq | hsteps
    · exact absurd heq hne
    · exact absurd hnext hsteps

/-- The file `/x`, and the link `/d/l` to `../x`. -/
def upHost : Host Unit where
  tree := .directory [([0x78], .file ()),
    ([0x64], .directory [([0x6c], .symlink [0x2e, 0x2e, 0x2f, 0x78])])]
  workingDirectory := []

/-- The link `/d/l` to `s/../x`, the link `/d/s` to `/e/f`, and the files `/d/x` and
`/e/x`. -/
def crossHost : Host Unit where
  tree := .directory [
    ([0x64], .directory [
      ([0x6c], .symlink [0x73, 0x2f, 0x2e, 0x2e, 0x2f, 0x78]),
      ([0x73], .symlink [0x2f, 0x65, 0x2f, 0x66]), ([0x78], .file ())]),
    ([0x65], .directory [([0x66], .directory []), ([0x78], .file ())])]
  workingDirectory := []

/-- `/d/l`. -/
def linkPath : List UInt8 := [0x2f, 0x64, 0x2f, 0x6c]

theorem textSafe_upHost : TextSafe upHost.tree linkPath := by
  intro links s hs
  replace hs := hs.comes
  -- the states of the resolution, one after the other
  have hparts : parts linkPath = [.here, .name [0x64], .name [0x6c]] := by decide
  have htarget : parts [0x2e, 0x2e, 0x2f, 0x78] = [.up, .name [0x78]] := by decide
  dsimp only at hs
  rw [hparts] at hs
  rcases hs.eq_or_of_step (.here rfl rfl) with rfl | hs
  · exact straight_of_pops (.inr (by decide)) fun _ _ h => by cases h; rfl
  rcases hs.eq_or_of_step (.name rfl rfl) with rfl | hs
  · exact straight_of_pops (.inr (by decide)) fun _ _ h => by cases h; rfl
  rcases hs.eq_or_of_step (.link rfl) with rfl | hs
  · exact straight_of_pops (.inr (by decide)) fun _ _ h => by cases h; rfl
  rw [htarget] at hs
  rcases hs.eq_or_of_step (.up rfl rfl) with rfl | hs
  · exact straight_of_pops (.inr (by decide)) fun _ _ h => by cases h
  rcases hs.eq_or_of_step (.name rfl rfl) with rfl | hs
  · exact straight_of_pops (.inr (by decide)) fun _ _ h => by cases h; rfl
  rcases Relation.ReflTransGen.cases_head hs with rfl | ⟨_, hstep, -⟩
  · exact straight_of_pops (.inl rfl) fun _ _ h => by cases h
  · cases hstep

theorem resolveSymlinks_faithful_sample :
    ResolvesTo upHost linkPath (.ok ([[0x78]], [⟨"/d/l", "../x"⟩])) ∧
    ∃ links, ResolvesPath upHost.tree [] linkPath links [[0x78]] := by
  have hresult : ResolvesTo upHost linkPath (.ok ([[0x78]], [⟨"/d/l", "../x"⟩])) :=
    ⟨5, by decide +kernel⟩
  have hdots : WithoutDots linkPath := by
    unfold WithoutDots
    decide
  have hfaithful := (resolveSymlinks_faithful upHost linkPath (by decide) hdots).2 _ _ hresult
  exact ⟨hresult, hfaithful.2.2 textSafe_upHost⟩

/-- The walk of `/d/l` returns `/d/x`, where POSIX resolution leads to `/e/x`. -/
theorem resolveSymlinks_not_faithful :
    ResolvesTo crossHost linkPath (.ok ([[0x64], [0x78]], [⟨"/d/l", "s/../x"⟩])) ∧
    ResolvesPath crossHost.tree [] linkPath
      [[0x73, 0x2f, 0x2e, 0x2e, 0x2f, 0x78], [0x2f, 0x65, 0x2f, 0x66]] [[0x65], [0x78]] ∧
    ¬∃ links, ResolvesPath crossHost.tree [] linkPath links [[0x64], [0x78]] := by
  have hresolves : Resolves crossHost.tree [] (parts linkPath)
      [[0x73, 0x2f, 0x2e, 0x2e, 0x2f, 0x78], [0x2f, 0x65, 0x2f, 0x66]] [[0x65], [0x78]] := by
    have hparts : parts linkPath = [.here, .name [0x64], .name [0x6c]] := by decide
    have hcross : parts [0x73, 0x2f, 0x2e, 0x2e, 0x2f, 0x78] =
      [.name [0x73], .up, .name [0x78]] := by decide
    have htarget : parts [0x2f, 0x65, 0x2f, 0x66] = [.here, .name [0x65], .name [0x66]] := by decide
    rw [hparts]
    refine .here rfl rfl (.name rfl rfl (.link rfl ?_))
    rw [hcross]
    refine .link rfl ?_
    rw [htarget]
    exact .here rfl rfl (.name rfl rfl (.name rfl rfl (.up rfl rfl (.name rfl rfl (.done _)))))
  refine ⟨⟨6, by decide +kernel⟩, ⟨by decide, hresolves⟩, ?_⟩
  rintro ⟨links, -, hother⟩
  have hlocation : [[0x65], [0x78]] = [[0x64], [(0x78 : UInt8)]] :=
    hresolves.comes.unique hother.comes
  exact absurd hlocation (by decide)

end ProofboundRuntime.Scaffold
