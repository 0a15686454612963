import ProofboundRuntime.Lib.FileTree

/-!
# Directory listings

A walk over a tree meets the entries of a directory in the order in which the directory
lists them.  `listedBelow` is what a file system guarantees of a listing: the names are
names, and none occurs twice.  `leavesBelow` are the entries that are no directories, and
`Relisted` is the same tree with its directories listed in another order.

The leaves are what paths lead to (`mem_leaves_iff`), each under one path
(`nodup_leaves`), and another order of the listings permutes them
(`Relisted.leaves_perm`).
-/

namespace ProofboundRuntime.FileTree

open ProofboundRuntime.Path (separator dot dotDot)

variable {φ : Type}

/-- A name that a directory can list. -/
def isName (name : Name) : Bool :=
  name != [] && name != dot && name != dotDot && !name.contains separator

theorem separator_notMem_of_isName {name : Name} (h : isName name = true) :
    separator ∉ name := by
  intro hmem
  have hcontains : name.contains separator = true := List.contains_iff_mem.mpr hmem
  rw [isName, hcontains] at h
  simp at h

mutual

/-- Every directory lists names, and none twice. -/
def Node.listed : Node φ → Bool
  | .file _ => true
  | .symlink _ => true
  | .directory entries => listedBelow entries

def listedBelow : List (Name × Node φ) → Bool
  | [] => true
  | (name, node) :: rest =>
    isName name && rest.all (fun entry => entry.1 != name) && node.listed && listedBelow rest

end

mutual

/-- The entries that are no directories, with the names on the way to them. -/
def Node.leaves : Node φ → List (List Name × Node φ)
  | .file contents => [([], .file contents)]
  | .symlink target => [([], .symlink target)]
  | .directory entries => leavesBelow entries

def leavesBelow : List (Name × Node φ) → List (List Name × Node φ)
  | [] => []
  | (name, node) :: rest =>
    node.leaves.map (fun leaf => (name :: leaf.1, leaf.2)) ++ leavesBelow rest

end

mutual

/-- How many directories there are below an entry, itself included. -/
def Node.directories : Node φ → Nat
  | .file _ => 0
  | .symlink _ => 0
  | .directory entries => directoriesBelow entries + 1

def directoriesBelow : List (Name × Node φ) → Nat
  | [] => 0
  | (_, node) :: rest => node.directories + directoriesBelow rest

end

theorem leavesBelow_eq (entries : List (Name × Node φ)) :
    leavesBelow entries =
      entries.flatMap fun entry => entry.2.leaves.map fun leaf => (entry.1 :: leaf.1, leaf.2) := by
  induction entries with
  | nil => rfl
  | cons entry rest ih =>
    obtain ⟨name, node⟩ := entry
    rw [leavesBelow, List.flatMap_cons, ih]

theorem mem_leavesBelow {entries : List (Name × Node φ)} {names : List Name} {leaf : Node φ} :
    (names, leaf) ∈ leavesBelow entries ↔
      ∃ entry ∈ entries, ∃ below, (below, leaf) ∈ entry.2.leaves ∧ names = entry.1 :: below := by
  rw [leavesBelow_eq, List.mem_flatMap]
  constructor
  · intro ⟨entry, hentry, hleaf⟩
    obtain ⟨⟨below, leaf'⟩, hbelow, heq⟩ := List.mem_map.mp hleaf
    rw [Prod.mk.injEq] at heq
    obtain ⟨hnames, rfl⟩ := heq
    exact ⟨entry, hentry, below, hbelow, hnames.symm⟩
  · rintro ⟨entry, hentry, below, hbelow, rfl⟩
    exact ⟨entry, hentry, List.mem_map.mpr ⟨(below, leaf), hbelow, rfl⟩⟩

variable {rest : List (Name × Node φ)} {node : Node φ}

theorem listedBelow_cons {name : Name} :
    listedBelow ((name, node) :: rest) = true ↔
      isName name = true ∧ (∀ entry ∈ rest, entry.1 ≠ name) ∧ node.listed = true ∧
        listedBelow rest = true := by
  simp only [listedBelow, Bool.and_eq_true, List.all_eq_true, bne_iff_ne, and_assoc]

/-! ## Leaves and paths -/

theorem lookup_directory_cons_self {name : Name} (names : List Name) :
    (Node.directory ((name, node) :: rest)).lookup (name :: names) = node.lookup names := by
  rw [Node.lookup, List.lookup_cons_self, Option.bind_some]

theorem lookup_directory_cons_of_ne {name name' : Name} (hne : name' ≠ name) (names : List Name) :
    (Node.directory ((name, node) :: rest)).lookup (name' :: names) =
      (Node.directory rest).lookup (name' :: names) := by
  rw [Node.lookup, Node.lookup, List.lookup_cons, beq_false_of_ne hne]

theorem mem_leaf_iff {names : List Name} {node leaf : Node φ} (hnode : node.isDirectory = false) :
    (names, leaf) ∈ [([], node)] ↔ node.lookup names = some leaf ∧ leaf.isDirectory = false := by
  rw [List.mem_singleton, Prod.mk.injEq]
  cases names with
  | nil =>
    rw [Node.lookup, Option.some.injEq]
    constructor
    · rintro ⟨-, rfl⟩
      exact ⟨rfl, hnode⟩
    · exact fun h => ⟨rfl, h.1.symm⟩
  | cons name names =>
    refine iff_of_false (by simp) ?_
    cases node with
    | directory entries => cases hnode
    | _ => simp [Node.lookup]

mutual

/-- The leaves are the entries that the names lead to, the directories left out. -/
theorem mem_leaves_iff {names : List Name} {leaf : Node φ} : (node : Node φ) →
    node.listed = true →
      ((names, leaf) ∈ node.leaves ↔ node.lookup names = some leaf ∧ leaf.isDirectory = false)
  | .file contents, _ => by
    rw [Node.leaves]
    exact mem_leaf_iff rfl
  | .symlink target, _ => by
    rw [Node.leaves]
    exact mem_leaf_iff rfl
  | .directory entries, h => by
    rw [Node.listed] at h
    rw [Node.leaves, mem_leavesBelow_iff entries h]

theorem mem_leavesBelow_iff {names : List Name} {leaf : Node φ} :
    (entries : List (Name × Node φ)) → listedBelow entries = true →
      ((names, leaf) ∈ leavesBelow entries ↔
        (Node.directory entries).lookup names = some leaf ∧ leaf.isDirectory = false)
  | [], _ => by
    rw [leavesBelow]
    refine iff_of_false List.not_mem_nil ?_
    intro ⟨hlookup, hleaf⟩
    cases names with
    | nil =>
      cases hlookup
      cases hleaf
    | cons name names => cases hlookup
  | (name, node) :: rest, h => by
    obtain ⟨-, hfresh, hnode, hrest⟩ := listedBelow_cons.mp h
    rw [leavesBelow, List.mem_append, List.mem_map]
    cases names with
    | nil =>
      refine iff_of_false ?_ ?_
      · intro hmem
        rcases hmem with ⟨below, -, heq⟩ | hlater
        · cases heq
        · obtain ⟨entry, -, below, -, heq⟩ := mem_leavesBelow.mp hlater
          cases heq
      · intro ⟨hlookup, hleaf⟩
        cases hlookup
        cases hleaf
    | cons name' names =>
      by_cases hname : name' = name
      · -- No later entry has this name.
        subst hname
        rw [lookup_directory_cons_self, ← mem_leaves_iff node hnode]
        constructor
        · intro hmem
          rcases hmem with ⟨⟨below, leaf'⟩, hbelow, heq⟩ | hlater
          · rw [Prod.mk.injEq, List.cons.injEq] at heq
            obtain ⟨⟨-, rfl⟩, rfl⟩ := heq
            exact hbelow
          · obtain ⟨entry, hentry, below, -, heq⟩ := mem_leavesBelow.mp hlater
            exact absurd (List.cons.inj heq).1.symm (hfresh entry hentry)
        · exact fun hleaf => .inl ⟨(names, leaf), hleaf, rfl⟩
      · rw [lookup_directory_cons_of_ne hname, ← mem_leavesBelow_iff rest hrest]
        constructor
        · intro hmem
          rcases hmem with ⟨below, -, heq⟩ | hlater
          · rw [Prod.mk.injEq, List.cons.injEq] at heq
            exact absurd heq.1.1.symm hname
          · exact hlater
        · exact .inr

end

mutual

/-- No two leaves have one path. -/
theorem nodup_leaves : (node : Node φ) → node.listed = true →
    (node.leaves.map Prod.fst).Nodup
  | .file _, _ => List.nodup_singleton _
  | .symlink _, _ => List.nodup_singleton _
  | .directory entries, h => by
    rw [Node.listed] at h
    exact nodup_leavesBelow entries h

theorem nodup_leavesBelow : (entries : List (Name × Node φ)) → listedBelow entries = true →
    ((leavesBelow entries).map Prod.fst).Nodup
  | [], _ => List.nodup_nil
  | (name, node) :: rest, h => by
    obtain ⟨-, hfresh, hnode, hrest⟩ := listedBelow_cons.mp h
    rw [leavesBelow, List.map_append, List.nodup_append]
    refine ⟨?_, nodup_leavesBelow rest hrest, ?_⟩
    · have hmap : (node.leaves.map fun leaf => (name :: leaf.1, leaf.2)).map Prod.fst =
          (node.leaves.map Prod.fst).map (List.cons name) := by
        rw [List.map_map, List.map_map]
        rfl
      rw [hmap]
      exact (nodup_leaves node hnode).map fun _ _ heq => (List.cons.inj heq).2
    · intro names hnames names' hnames' heq
      rw [List.map_map] at hnames
      obtain ⟨leaf, -, rfl⟩ := List.mem_map.mp hnames
      obtain ⟨⟨path, leaf'⟩, hleaf', rfl⟩ := List.mem_map.mp hnames'
      obtain ⟨entry, hentry, below, -, hpath⟩ := mem_leavesBelow.mp hleaf'
      exact hfresh entry hentry (List.cons.inj (heq.trans hpath)).1.symm

end

mutual

/-- The paths of the leaves consist of names. -/
theorem isName_of_mem_leaves {names : List Name} {leaf : Node φ} : (node : Node φ) →
    node.listed = true → (names, leaf) ∈ node.leaves → ∀ name ∈ names, isName name = true
  | .file _, _, hleaf => by
    rw [Node.leaves, List.mem_singleton, Prod.mk.injEq] at hleaf
    rw [hleaf.1]
    exact List.forall_mem_nil _
  | .symlink _, _, hleaf => by
    rw [Node.leaves, List.mem_singleton, Prod.mk.injEq] at hleaf
    rw [hleaf.1]
    exact List.forall_mem_nil _
  | .directory entries, h, hleaf => by
    rw [Node.listed] at h
    rw [Node.leaves] at hleaf
    exact (isName_of_mem_leavesBelow entries h hleaf).2

theorem isName_of_mem_leavesBelow {names : List Name} {leaf : Node φ} :
    (entries : List (Name × Node φ)) → listedBelow entries = true →
      (names, leaf) ∈ leavesBelow entries →
        names ≠ [] ∧ ∀ name ∈ names, isName name = true
  | [], _, hleaf => absurd hleaf List.not_mem_nil
  | (name, node) :: rest, h, hleaf => by
    obtain ⟨hname, -, hnode, hrest⟩ := listedBelow_cons.mp h
    rw [leavesBelow, List.mem_append, List.mem_map] at hleaf
    rcases hleaf with ⟨⟨below, leaf'⟩, hbelow, heq⟩ | hlater
    · rw [Prod.mk.injEq] at heq
      obtain ⟨rfl, rfl⟩ := heq
      refine ⟨List.cons_ne_nil _ _, List.forall_mem_cons.mpr ⟨hname, ?_⟩⟩
      exact isName_of_mem_leaves node hnode hbelow
    · exact isName_of_mem_leavesBelow rest hrest hlater

end

/-! ## Another order -/

/-- The same tree, with the entries of its directories in another order. -/
inductive Relisted : Node φ → Node φ → Prop
  | refl (node : Node φ) : Relisted node node
  | perm {entries entries' : List (Name × Node φ)} (h : entries.Perm entries') :
    Relisted (.directory entries) (.directory entries')
  | inside {before after : List (Name × Node φ)} {name : Name} {node node' : Node φ}
    (h : Relisted node node') :
    Relisted (.directory (before ++ (name, node) :: after))
      (.directory (before ++ (name, node') :: after))
  | trans {node node' node'' : Node φ} (h : Relisted node node') (h' : Relisted node' node'') :
    Relisted node node''

theorem Relisted.leaves_perm {node node' : Node φ} (h : Relisted node node') :
    node.leaves.Perm node'.leaves := by
  induction h with
  | refl node => exact .refl _
  | perm h =>
    rw [Node.leaves, Node.leaves, leavesBelow_eq, leavesBelow_eq]
    exact h.flatMap_right _
  | inside h ih =>
    rw [Node.leaves, Node.leaves, leavesBelow_eq, leavesBelow_eq, List.flatMap_append,
      List.flatMap_append, List.flatMap_cons, List.flatMap_cons]
    exact ((ih.map _).append_right _).append_left _
  | trans _ _ ih ih' => exact ih.trans ih'

/-! ## Paths as bytes -/

/-- The path below a directory that the names are on. -/
def relativePath (names : List Name) : List UInt8 := [separator].intercalate names

theorem relativePath_inj {names names' : List Name} (hne : names ≠ []) (hne' : names' ≠ [])
    (hnames : ∀ name ∈ names, isName name = true) (hnames' : ∀ name ∈ names', isName name = true)
    (h : relativePath names = relativePath names') : names = names' := by
  have hsplit := congrArg (List.splitOn separator) h
  rwa [relativePath, relativePath,
    List.splitOn_intercalate separator (fun name hname =>
      separator_notMem_of_isName (hnames name hname)) hne,
    List.splitOn_intercalate separator (fun name hname =>
      separator_notMem_of_isName (hnames' name hname)) hne'] at hsplit

end ProofboundRuntime.FileTree
