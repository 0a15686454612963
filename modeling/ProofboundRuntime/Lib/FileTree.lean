import ProofboundRuntime.Lib.Path

/-!
# File trees with symbolic links

A tree of directories, files and symbolic links, and pathname resolution over it.

* `Node.lookup` finds an entry by the names on the way to it and follows no link.
* `Resolves` is pathname resolution as POSIX has it: names are looked up one after the
  other, a link is replaced by the parts of its target, `.` and `..` are steps from a
  directory, and `..` stays at the root.  It keeps the targets of the links on its way.
* `resolve` is resolution with a bound on the number of links, as an operating system
  has it; it computes what `Resolves` describes.  `resolve_append` resolves the first
  part of a path and then the rest.
-/

namespace ProofboundRuntime.FileTree

open ProofboundRuntime.Path (separator dot dotDot isAbsolute)

abbrev Name := List UInt8

/-- An entry of a tree; a file has contents in `φ`. -/
inductive Node (φ : Type) where
  | file (contents : φ)
  | symlink (target : List UInt8)
  | directory (entries : List (Name × Node φ))

variable {φ : Type}

namespace Node

def isDirectory : Node φ → Bool
  | .directory _ => true
  | _ => false

def isSymlink : Node φ → Bool
  | .symlink _ => true
  | _ => false

/-- The entry that the names lead to. -/
def lookup : Node φ → List Name → Option (Node φ)
  | node, [] => some node
  | .directory entries, name :: names =>
    (entries.lookup name).bind fun child => child.lookup names
  | _, _ :: _ => none

theorem lookup_append (node : Node φ) (names names' : List Name) :
    node.lookup (names ++ names') = (node.lookup names).bind fun child => child.lookup names' := by
  induction names generalizing node with
  | nil => cases node <;> rfl
  | cons name names ih =>
    cases node with
    | directory entries =>
      rw [List.cons_append, lookup, lookup]
      cases entries.lookup name with
      | none => rfl
      | some child => exact ih child
    | _ => rfl

/-- The target of every link below the entry has the property. -/
def EachLink (P : List UInt8 → Prop) (node : Node φ) : Prop :=
  ∀ names target, node.lookup names = some (.symlink target) → P target

theorem eachLink_file {P : List UInt8 → Prop} (contents : φ) : EachLink P (.file contents) := by
  intro names target h
  cases names <;> cases h

theorem eachLink_directory {P : List UInt8 → Prop} {entries : List (Name × Node φ)}
    (h : ∀ entry ∈ entries, EachLink P entry.2) : EachLink P (.directory entries) := by
  intro names target hlookup
  cases names with
  | nil => cases hlookup
  | cons name names =>
    rw [lookup, Option.bind_eq_some_iff] at hlookup
    obtain ⟨child, hchild, hlookup⟩ := hlookup
    obtain ⟨before, after, hsplit, -⟩ := List.lookup_eq_some_iff.mp hchild
    have hentry : (name, child) ∈ entries := by
      rw [hsplit]
      exact List.mem_append_right _ List.mem_cons_self
    exact h _ hentry names target hlookup

/-- What an entry is found in is a directory. -/
theorem exists_directory_of_lookup {node child : Node φ} {names : List Name} {name : Name}
    (h : node.lookup (names ++ [name]) = some child) :
    ∃ directory, node.lookup names = some directory ∧ directory.isDirectory = true := by
  rw [lookup_append] at h
  cases hnames : node.lookup names with
  | none =>
    rw [hnames] at h
    cases h
  | some directory =>
    refine ⟨directory, rfl, ?_⟩
    rw [hnames] at h
    cases directory with
    | directory entries => rfl
    | _ => cases h

end Node

/-! ## On the way to an entry -/

/-- Every name on the way has the property, which is about the names up to it. -/
def EachFront (P : List Name → Prop) (names : List Name) : Prop :=
  ∀ front, front <+: names → front ≠ [] → P front

namespace EachFront

variable {P : List Name → Prop} {names names' : List Name} {name : Name}

theorem nil : EachFront P [] := by
  intro front hfront hne
  exact absurd (List.prefix_nil.mp hfront) hne

theorem mono (h : EachFront P names) (hbefore : names' <+: names) : EachFront P names' :=
  fun front hfront => h front (hfront.trans hbefore)

theorem dropLast (h : EachFront P names) : EachFront P names.dropLast :=
  h.mono ( List.dropLast_prefix names)

theorem concat (h : EachFront P names) (hlast : P (names ++ [name])) :
    EachFront P (names ++ [name]) := by
  intro front hfront hne
  rcases List.prefix_concat_iff.mp hfront with heq | hbefore
  · rwa [heq]
  · exact h front hbefore hne

theorem last (h : EachFront P (names ++ [name])) : P (names ++ [name]) :=
  h _ List.prefix_rfl (by simp)

end EachFront

/-! ## Resolution -/

/-- A part of a pathname between separators. -/
inductive Part where
  | here
  | up
  | name (name : Name)
deriving DecidableEq

def Part.ofBytes (part : List UInt8) : Part :=
  if part = [] ∨ part = dot then .here else if part = dotDot then .up else .name part

/-- The parts of a pathname.  An empty part is the same as `.`; a separator at the end
therefore asks for a directory. -/
def parts (path : List UInt8) : List Part := (path.splitOn separator).map Part.ofBytes

/-- Where the resolution of a pathname starts. -/
def start (path : List UInt8) (directory : List Name) : List Name :=
  if isAbsolute path then [] else directory

/-- From the directory `current` the parts lead to `location`; `links` are the targets of
the links on the way. -/
inductive Resolves (root : Node φ) :
    (current : List Name) → List Part → (links : List (List UInt8)) → (location : List Name) → Prop
  | done (current : List Name) : Resolves root current [] [] current
  | here {current node rest links location} : root.lookup current = some node →
      node.isDirectory = true → Resolves root current rest links location →
      Resolves root current (.here :: rest) links location
  | up {current node rest links location} : root.lookup current = some node →
      node.isDirectory = true → Resolves root current.dropLast rest links location →
      Resolves root current (.up :: rest) links location
  | name {current name node rest links location} : root.lookup (current ++ [name]) = some node →
      node.isSymlink = false → Resolves root (current ++ [name]) rest links location →
      Resolves root current (.name name :: rest) links location
  | link {current name target rest links location} :
      root.lookup (current ++ [name]) = some (.symlink target) →
      Resolves root (start target current) (parts target ++ rest) links location →
      Resolves root current (.name name :: rest) (target :: links) location

/-- One step of resolution: a directory and the parts that are left. -/
inductive Step (root : Node φ) : List Name × List Part → List Name × List Part → Prop
  | here {current node rest} : root.lookup current = some node → node.isDirectory = true →
      Step root (current, .here :: rest) (current, rest)
  | up {current node rest} : root.lookup current = some node → node.isDirectory = true →
      Step root (current, .up :: rest) (current.dropLast, rest)
  | name {current name node rest} : root.lookup (current ++ [name]) = some node →
      node.isSymlink = false → Step root (current, .name name :: rest) (current ++ [name], rest)
  | link {current name target rest} :
      root.lookup (current ++ [name]) = some (.symlink target) →
      Step root (current, .name name :: rest) (start target current, parts target ++ rest)

/-- The resolution comes from one state to another. -/
def Comes (root : Node φ) : List Name × List Part → List Name × List Part → Prop :=
  Relation.ReflTransGen (Step root)

variable {root : Node φ}

/-- There is one next step at most. -/
theorem Step.unique {s s' s'' : List Name × List Part} (h : Step root s s') (h' : Step root s s'') :
    s' = s'' := by
  cases h with
  | here => cases h'; rfl
  | up => cases h'; rfl
  | name hnode hlink =>
    cases h' with
    | name => rfl
    | link htarget =>
      rw [hnode] at htarget
      cases htarget
      cases hlink
  | link htarget =>
    cases h' with
    | name hnode hlink =>
      rw [htarget] at hnode
      cases hnode
      cases hlink
    | link htarget' =>
      rw [htarget] at htarget'
      cases htarget'
      rfl

theorem Comes.eq_or_of_step {s s' t : List Name × List Part} (h : Comes root s t)
    (hstep : Step root s s') : t = s ∨ Comes root s' t := by
  rcases Relation.ReflTransGen.cases_head h with heq | ⟨s'', hstep', hcomes⟩
  · exact .inl heq.symm
  · exact .inr (hstep.unique hstep' ▸ hcomes)

/-- A resolution comes to the end at one location at most. -/
theorem Comes.unique {s : List Name × List Part} {location location' : List Name}
    (h : Comes root s (location, [])) (h' : Comes root s (location', [])) :
    location = location' := by
  have hnil : ∀ {location : List Name} {t : List Name × List Part},
      Comes root (location, []) t → t = (location, []) := by
    intro location t hcomes
    rcases Relation.ReflTransGen.cases_head hcomes with heq | ⟨s', hstep, -⟩
    · exact heq.symm
    · cases hstep
  induction h using Relation.ReflTransGen.head_induction_on with
  | refl => exact (congrArg Prod.fst (hnil h')).symm
  | head hstep _ ih =>
    rcases h'.eq_or_of_step hstep with heq | hcomes
    · rw [← heq] at hstep
      cases hstep
    · exact ih hcomes

theorem Resolves.comes {current location : List Name} {rest : List Part} {links : List (List UInt8)}
    (h : Resolves root current rest links location) :
    Comes root (current, rest) (location, []) := by
  induction h with
  | done current => exact .refl
  | here hnode hdirectory _ ih => exact .head (.here hnode hdirectory) ih
  | up hnode hdirectory _ ih => exact .head (.up hnode hdirectory) ih
  | name hnode hlink _ ih => exact .head (.name hnode hlink) ih
  | link htarget _ ih => exact .head (.link htarget) ih

/-- A resolution that comes to the end of the parts is done. -/
theorem Comes.exists_resolves {s : List Name × List Part} {location : List Name}
    (h : Comes root s (location, [])) : ∃ links, Resolves root s.1 s.2 links location := by
  induction h using Relation.ReflTransGen.head_induction_on with
  | refl => exact ⟨[], .done location⟩
  | head hstep _ ih =>
    obtain ⟨links, hlinks⟩ := ih
    cases hstep with
    | here hnode hdirectory => exact ⟨links, .here hnode hdirectory hlinks⟩
    | up hnode hdirectory => exact ⟨links, .up hnode hdirectory hlinks⟩
    | name hnode hlink => exact ⟨links, .name hnode hlink hlinks⟩
    | @link _ _ target _ htarget => exact ⟨target :: links, .link htarget hlinks⟩

/-- Resolution of a nonempty pathname from a directory. -/
def ResolvesPath (root : Node φ) (directory : List Name) (path : List UInt8)
    (links : List (List UInt8)) (location : List Name) : Prop :=
  path ≠ [] ∧ Resolves root (start path directory) (parts path) links location

/-- Resolution up to the next link, which goes on with `follow`. -/
def walk (root : Node φ) (follow : List Name → List Part → Option (List Name × Nat)) (left : Nat) :
    List Name → List Part → Option (List Name × Nat)
  | current, [] => some (current, left)
  | current, .here :: rest =>
    if (root.lookup current).any Node.isDirectory then walk root follow left current rest else none
  | current, .up :: rest =>
    if (root.lookup current).any Node.isDirectory then walk root follow left current.dropLast rest
    else none
  | current, .name name :: rest =>
    match root.lookup (current ++ [name]) with
    | none => none
    | some (.symlink target) => follow (start target current) (parts target ++ rest)
    | some _ => walk root follow left (current ++ [name]) rest

/-- Resolution with at most so many links: the location, and how many links are left. -/
def resolve (root : Node φ) : Nat → List Name → List Part → Option (List Name × Nat)
  | 0 => walk root (fun _ _ => none) 0
  | left + 1 => walk root (resolve root left) (left + 1)

section Resolve

variable {root node : Node φ} {left : Nat} {current names : List Name} {name : Name}
  {rest : List Part}

@[simp] theorem resolve_nil : resolve root left current [] = some (current, left) := by
  cases left <;> rfl

theorem resolve_here : resolve root left current (.here :: rest) =
    if (root.lookup current).any Node.isDirectory then resolve root left current rest
    else none := by
  cases left <;> rfl

theorem resolve_up : resolve root left current (.up :: rest) =
    if (root.lookup current).any Node.isDirectory then resolve root left current.dropLast rest
    else none := by
  cases left <;> rfl

theorem resolve_missing (h : root.lookup (current ++ [name]) = none) :
    resolve root left current (.name name :: rest) = none := by
  cases left <;> rw [resolve, walk, h]

theorem resolve_name (h : root.lookup (current ++ [name]) = some node)
    (hnode : node.isSymlink = false) :
    resolve root left current (.name name :: rest) =
      resolve root left (current ++ [name]) rest := by
  cases node with
  | symlink target => cases hnode
  | _ => cases left <;> simp only [resolve, walk, h]

theorem resolve_link {target : List UInt8}
    (h : root.lookup (current ++ [name]) = some (.symlink target)) :
    resolve root left current (.name name :: rest) =
      match left with
      | 0 => none
      | left + 1 => resolve root left (start target current) (parts target ++ rest) := by
  cases left <;> rw [resolve, walk, h]

/-- The first part of a path, then the rest with the links that are left. -/
theorem resolve_append (root : Node φ) (left : Nat) (current : List Name) (first : List Part) :
    resolve root left current (first ++ rest) =
      (resolve root left current first).bind fun result =>
        resolve root result.2 result.1 rest := by
  induction left using Nat.strong_induction_on generalizing current first with
  | _ left ihleft =>
    induction first generalizing current with
    | nil => simp
    | cons part first ih =>
      rw [List.cons_append]
      cases part with
      | here =>
        rw [resolve_here, resolve_here, ih]
        split <;> rfl
      | up =>
        rw [resolve_up, resolve_up, ih]
        split <;> rfl
      | name name =>
        cases hlookup : root.lookup (current ++ [name]) with
        | none => rw [resolve_missing hlookup, resolve_missing hlookup, Option.bind_none]
        | some node =>
          cases hnode : node.isSymlink with
          | false => rw [resolve_name hlookup hnode, resolve_name hlookup hnode, ih]
          | true =>
            cases node with
            | symlink target =>
              rw [resolve_link hlookup, resolve_link hlookup]
              cases left with
              | zero => rfl
              | succ left =>
                dsimp only
                rw [← List.append_assoc, ihleft left (Nat.lt_succ_self left)]
            | _ => cases hnode

/-- No name on the way from `current` is that of a link. -/
def LinkFree (root : Node φ) (current names : List Name) : Prop :=
  EachFront (fun front => ∀ node, root.lookup (current ++ front) = some node →
    node.isSymlink = false) names

theorem LinkFree.tail (h : LinkFree root current (name :: names)) :
    LinkFree root (current ++ [name]) names := by
  intro front hfront _ node hlookup
  refine h (name :: front) (List.cons_prefix_cons.mpr ⟨rfl, hfront⟩) (List.cons_ne_nil _ _) node ?_
  rwa [List.append_assoc] at hlookup

/-- Names that are not those of links are looked up. -/
theorem resolve_bind_lookup (h : LinkFree root current names) (last : Name) :
    ((resolve root left current (names.map .name)).bind fun result =>
      root.lookup (result.1 ++ [last])) = root.lookup (current ++ names ++ [last]) := by
  induction names generalizing current with
  | nil => simp
  | cons name names ih =>
    rw [List.map_cons]
    have hsplit : current ++ name :: names ++ [last] = (current ++ [name]) ++ (names ++ [last]) := by
      simp
    cases hlookup : root.lookup (current ++ [name]) with
    | none => rw [resolve_missing hlookup, hsplit, Node.lookup_append, hlookup]; rfl
    | some node =>
      have hnode : node.isSymlink = false :=
        h [name] (List.cons_prefix_cons.mpr ⟨rfl, List.nil_prefix⟩) (List.cons_ne_nil _ _) node
          hlookup
      rw [resolve_name hlookup hnode, ih h.tail, hsplit, List.append_assoc]

end Resolve

/-! ## The operating system -/

open ProofboundRuntime.Path (Component)

/-- A system with its files and the working directory of the process. -/
structure Host (φ : Type) where
  tree : Node φ
  workingDirectory : List Name

/-- The links that the system follows in one resolution. -/
def linkLimit : Nat := 40

/-- `PATH_MAX`, with the null byte at the end of a path: the system takes shorter paths only. -/
def pathMax : Nat := 4096

def Part.ofComponent : Component → Part
  | .rootDir => .here
  | .curDir => .here
  | .parentDir => .up
  | .normal part => .name part

namespace Host

/-- The location of a path, with the links that are left. -/
def locate (host : Host φ) (path : List Component) : Option (List Name × Nat) :=
  resolve host.tree linkLimit
    (if path.head? = some .rootDir then [] else host.workingDirectory)
    (path.map Part.ofComponent)

/-- `symlink_metadata` and `read_link`: the entry of a path; a link at its end is not
followed. -/
def symlinkMetadata (host : Host φ) (path : List Component) : Option (Node φ) :=
  match path.getLast? with
  | some (.normal name) =>
    (host.locate path.dropLast).bind fun result => host.tree.lookup (result.1 ++ [name])
  | _ => (host.locate path).bind fun result => host.tree.lookup result.1

/-- A path through no link is looked up below the directory it starts from. -/
theorem symlinkMetadata_append {host : Host φ} {base : List Component} {directory : List Name}
    {left : Nat} {names : List Name} (hbase : host.locate base = some (directory, left))
    (h : LinkFree host.tree directory names) (name : Name) :
    host.symlinkMetadata (base ++ names.map .normal ++ [.normal name]) =
      host.tree.lookup (directory ++ names ++ [name]) := by
  have hhead : ((base ++ names.map Component.normal).head? = some .rootDir) =
      (base.head? = some .rootDir) := by
    cases base with
    | nil => cases names <;> simp
    | cons => rfl
  have hnames : (names.map Component.normal).map Part.ofComponent = names.map Part.name := by
    rw [List.map_map]
    rfl
  have hlocate : host.locate (base ++ names.map .normal) =
      resolve host.tree left directory (names.map .name) := by
    rw [locate] at hbase
    simp only [locate, hhead, List.map_append, resolve_append, hbase, hnames]
    rfl
  rw [symlinkMetadata, List.getLast?_concat, List.dropLast_concat]
  dsimp only
  rw [hlocate, resolve_bind_lookup h]

end Host

end ProofboundRuntime.FileTree
