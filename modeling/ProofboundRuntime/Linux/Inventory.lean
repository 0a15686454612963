import ProofboundRuntime.Lib.SelfDelimiting
import ProofboundRuntime.Lib.Sha256
import ProofboundRuntime.Linux.Elf

/-!
# The identity of a directory

`identify_directory` of `inventory.rs` walks a directory, lists its regular files
with their identities, sorts the list by path and hashes it.  The tree does not
change during the walk, so the comparisons of the metadata before and after it
hold.  `directory_names` sorts what `read_dir` lists, so a directory is given by
its entries in the order of their names.

The identity is the mode of the root and the regular files
(`identity_eq_iff`): an empty directory and the mode of a subdirectory do not
reach the hash.
-/

namespace ProofboundRuntime.Linux

open ProofboundRuntime.Core Result

/-! ## Trees -/

/-- The name of a directory entry. -/
structure Name where
  bytes : List UInt8
  ne_nil : bytes ≠ []
  no_separator : Path.separator ∉ bytes
deriving DecidableEq

def Name.cmp (a b : Name) : Ordering := compare a.bytes b.bytes

inductive Node where
  | file (bytes : List UInt8) (mode : FileMode)
  | directory (mode : FileMode) (children : List (Name × Node))
  | symlink
  | special

mutual

/-- The entries of every directory are in the order of their names, without
repetitions. -/
def Node.wellFormed : Node → Bool
  | .directory _ children => childrenWellFormed children
  | _ => true

def childrenWellFormed : List (Name × Node) → Bool
  | [] => true
  | (name, node) :: rest =>
    (rest.all fun child => Name.cmp name child.1 == .lt) && node.wellFormed &&
      childrenWellFormed rest

end

/-- A directory on disk. -/
structure Directory where
  mode : FileMode
  children : List (Name × Node)
  wellFormed : childrenWellFormed children = true

/-- What a path leads to, for the paths below a directory. -/
inductive Found where
  | file (bytes : List UInt8) (mode : FileMode)
  | directory (mode : FileMode)
  | symlink
  | special
deriving DecidableEq

def Node.found : Node → Found
  | .file bytes mode => .file bytes mode
  | .directory mode _ => .directory mode
  | .symlink => .symlink
  | .special => .special

def Node.children : Node → List (Name × Node)
  | .directory _ children => children
  | .file .. | .symlink | .special => []

/-- What is at a relative path. -/
def lookup : List (Name × Node) → List Name → Option Found
  | _, [] => none
  | children, name :: path =>
    match children.lookup name with
    | none => none
    | some node => if path = [] then some node.found else lookup node.children path

/-- The same relative paths, with the same kind, bytes and mode at each. -/
def Directory.Same (t t' : Directory) : Prop :=
  ∀ path, lookup t.children path = lookup t'.children path

/-- The same regular files. -/
def Directory.SameFiles (t t' : Directory) : Prop :=
  ∀ path bytes mode, lookup t.children path = some (.file bytes mode) ↔
    lookup t'.children path = some (.file bytes mode)

/-! ## The inventory -/

/-- `relative_parent.join(path)`. -/
def join (parent : List UInt8) (name : Name) : List UInt8 :=
  if parent = [] then name.bytes else parent ++ Path.separator :: name.bytes

/-- A path with the identity of the file there. -/
abbrev Entry := List UInt8 × ArtifactIdentity

variable (sha256 : List UInt8 → Sha256Digest)

/-- `identify_descriptor` of a regular file. -/
def identifyFile (role : ArtifactRole) (bytes : List UInt8) (mode : FileMode) : ArtifactIdentity where
  role := role
  digest := sha256 bytes
  size := UInt64.ofNat bytes.length
  mode := mode

mutual

/-- One turn of the loop of `inventory_directory`. -/
def inventoryNode (path : List UInt8) : Node → Except ResolutionError (List Entry)
  | .file bytes mode => .ok [(path, identifyFile sha256 .projectInput bytes mode)]
  | .directory _ children => inventoryDirectory path children
  | .symlink => .error .symlinkInvalid
  | .special => .error .forbiddenFileKind

/-- `inventory_directory`. -/
def inventoryDirectory (relativeParent : List UInt8) :
    List (Name × Node) → Except ResolutionError (List Entry)
  | [] => .ok []
  | (name, node) :: rest => do
    let first ← inventoryNode (join relativeParent name) node
    let others ← inventoryDirectory relativeParent rest
    pure (first ++ others)

end

/-- `DIRECTORY_IDENTITY_DOMAIN`. -/
def directoryIdentityDomain : List UInt8 :=
  Utf8.bytes "proofbound-runtime-directory-inventory/1\n"

/-- What one entry adds to the hash. -/
def encodeEntry (entry : Entry) : List UInt8 :=
  BigEndian.toBytes 8 entry.1.length ++ entry.1 ++ entry.2.digest.toList ++
    BigEndian.toBytes 8 entry.2.size.toNat ++ BigEndian.toBytes 2 entry.2.mode.get.toNat

/-- What is hashed. -/
def encodeInventory (role : ArtifactRole) (entries : List Entry) : List UInt8 :=
  directoryIdentityDomain ++ Utf8.bytes role.asStr ++ entries.flatMap encodeEntry

/-- `encoded_size` through the loop. -/
def encodedSize : Nat → List Entry → Except ResolutionError Nat
  | size, [] => .ok size
  | size, entry :: entries => do
    let length ← okOr (checked entry.1.length) .identityUnavailable
    let size ← okOr (checked (size + (8 + length + 32 + 8 + 2))) .identityUnavailable
    encodedSize size entries

def entryCmp (a b : Entry) : Ordering := compare a.1 b.1

/-- `identify_directory`. -/
def identifyDirectory (t : Directory) (role : ArtifactRole) :
    Except ResolutionError ArtifactIdentity := do
  let entries ← inventoryDirectory sha256 [] t.children
  let entries := Sorting.sortBy entryCmp entries
  let size ← encodedSize (directoryIdentityDomain.length + (Utf8.bytes role.asStr).length) entries
  pure
    { role := role
      digest := sha256 (encodeInventory role entries)
      size := UInt64.ofNat size
      mode := t.mode }

/-- `revalidate_identity`. -/
def revalidateIdentity (identity : ArtifactIdentity) (t : Directory) :
    Except ResolutionError Unit := do
  let observed ← identifyDirectory sha256 t identity.role
  rejectIf (observed ≠ identity) .identityDrift

/-! ## The regular files of a tree -/

mutual

/-- The regular files below a node, with their paths. -/
def Node.files : Node → List (List Name × List UInt8 × FileMode)
  | .file bytes mode => [([], bytes, mode)]
  | .directory _ children => filesBelow children
  | .symlink => []
  | .special => []

def filesBelow : List (Name × Node) → List (List Name × List UInt8 × FileMode)
  | [] => []
  | (name, node) :: rest =>
    node.files.map (fun file => (name :: file.1, file.2)) ++ filesBelow rest

end

/-- What is at a path from a node. -/
def Node.atPath (node : Node) (path : List Name) : Option Found :=
  if path = [] then some node.found else lookup node.children path

/-- The entry of a file. -/
def fileEntry (parent : List UInt8) (file : List Name × List UInt8 × FileMode) : Entry :=
  (file.1.foldl join parent, identifyFile sha256 .projectInput file.2.1 file.2.2)

mutual

/-- The walk lists the files below a node. -/
theorem inventoryNode_eq_ok {path : List UInt8} {entries : List Entry} :
    (node : Node) → inventoryNode sha256 path node = .ok entries →
      entries = node.files.map (fileEntry sha256 path)
  | .file bytes mode, h => by
    rw [inventoryNode, Except.ok.injEq] at h
    exact h.symm
  | .directory _ children, h => by
    rw [inventoryNode] at h
    rw [Node.files]
    exact inventoryDirectory_eq_ok children h
  | .symlink, h => by
    rw [inventoryNode] at h
    cases h
  | .special, h => by
    rw [inventoryNode] at h
    cases h

theorem inventoryDirectory_eq_ok {parent : List UInt8} {entries : List Entry} :
    (children : List (Name × Node)) → inventoryDirectory sha256 parent children = .ok entries →
      entries = (filesBelow children).map (fileEntry sha256 parent)
  | [], h => by
    rw [inventoryDirectory, Except.ok.injEq] at h
    exact h.symm
  | (name, node) :: rest, h => by
    simp only [inventoryDirectory, bind_eq_ok, pure_eq_ok] at h
    obtain ⟨first, hfirst, others, hothers, rfl⟩ := h
    rw [filesBelow, List.map_append, List.map_map, inventoryNode_eq_ok node hfirst,
      inventoryDirectory_eq_ok rest hothers]
    rfl

end

theorem exists_child_of_mem_filesBelow {children : List (Name × Node)}
    {file : List Name × List UInt8 × FileMode} (h : file ∈ filesBelow children) :
    ∃ child ∈ children, ∃ path, file.1 = child.1 :: path ∧ (path, file.2) ∈ child.2.files := by
  induction children with
  | nil => cases h
  | cons child rest ih =>
    rw [filesBelow, List.mem_append, List.mem_map] at h
    obtain ⟨below, hbelow, rfl⟩ | hrest := h
    · exact ⟨child, List.mem_cons_self, below.1, rfl, hbelow⟩
    · obtain ⟨found, hfound, hpath⟩ := ih hrest
      exact ⟨found, List.mem_cons_of_mem child hfound, hpath⟩

theorem childrenWellFormed_cons {name : Name} {node : Node} {rest : List (Name × Node)} :
    childrenWellFormed ((name, node) :: rest) = true ↔
      (∀ child ∈ rest, Name.cmp name child.1 = .lt) ∧ node.wellFormed = true ∧
        childrenWellFormed rest = true := by
  simp [childrenWellFormed, and_assoc]

theorem Name.ne_of_cmp_lt {a b : Name} (h : Name.cmp a b = .lt) : a ≠ b := by
  rintro rfl
  have hself : compare a.bytes a.bytes = .eq := Std.ReflCmp.compare_self
  rw [Name.cmp, hself] at h
  cases h

theorem lookup_cons_path (children : List (Name × Node)) (name : Name) (path : List Name) :
    lookup children (name :: path) = (children.lookup name).bind fun node => node.atPath path := by
  rw [lookup]
  cases children.lookup name <;> rfl

theorem lookup_cons_self (name : Name) (node : Node) (rest : List (Name × Node))
    (path : List Name) : lookup ((name, node) :: rest) (name :: path) = node.atPath path := by
  rw [lookup_cons_path, List.lookup_cons_self, Option.bind_some]

theorem lookup_cons_of_ne {name name' : Name} (hne : name' ≠ name) (node : Node)
    (rest : List (Name × Node)) (path : List Name) :
    lookup ((name, node) :: rest) (name' :: path) = lookup rest (name' :: path) := by
  rw [lookup_cons_path, lookup_cons_path, List.lookup_cons, beq_false_of_ne hne]

theorem lookup_nil (path : List Name) : lookup [] path = none := by
  cases path <;> rfl

mutual

/-- The files of a tree are what its paths lead to. -/
theorem mem_files_iff {path : List Name} {bytes : List UInt8} {mode : FileMode} :
    (node : Node) → node.wellFormed = true →
      ((path, bytes, mode) ∈ node.files ↔ node.atPath path = some (.file bytes mode))
  | .file bytes' mode', _ => by
    rw [Node.files, List.mem_singleton, Node.atPath, Prod.mk.injEq]
    by_cases hpath : path = []
    · rw [if_pos hpath, Node.found, Option.some.injEq, Found.file.injEq, Prod.mk.injEq]
      constructor
      · exact fun h => ⟨h.2.1.symm, h.2.2.symm⟩
      · exact fun h => ⟨hpath, h.1.symm, h.2.symm⟩
    · rw [if_neg hpath, Node.children, lookup_nil]
      exact iff_of_false (fun h => hpath h.1) (by simp)
  | .directory mode' children, h => by
    rw [Node.wellFormed] at h
    rw [Node.files, mem_filesBelow_iff children h, Node.atPath]
    by_cases hpath : path = []
    · rw [if_pos hpath, hpath]
      exact iff_of_false (by simp [lookup]) (by simp [Node.found])
    · rw [if_neg hpath, Node.children]
  | .symlink, _ => by
    rw [Node.files, Node.atPath, Node.children, lookup_nil]
    split <;> simp [Node.found]
  | .special, _ => by
    rw [Node.files, Node.atPath, Node.children, lookup_nil]
    split <;> simp [Node.found]

theorem mem_filesBelow_iff {path : List Name} {bytes : List UInt8} {mode : FileMode} :
    (children : List (Name × Node)) → childrenWellFormed children = true →
      ((path, bytes, mode) ∈ filesBelow children ↔ lookup children path = some (.file bytes mode))
  | [], _ => by
    rw [filesBelow, lookup_nil]
    exact iff_of_false List.not_mem_nil (by simp)
  | (name, node) :: rest, h => by
    rw [childrenWellFormed_cons] at h
    obtain ⟨hnames, hnode, hrest⟩ := h
    rw [filesBelow, List.mem_append, List.mem_map]
    cases path with
    | nil =>
      rw [mem_filesBelow_iff rest hrest]
      simp [lookup]
    | cons name' path =>
      by_cases hname : name' = name
      · -- No later entry has this name.
        subst hname
        rw [lookup_cons_self, ← mem_files_iff node hnode]
        constructor
        · rintro (⟨file, hfile, heq⟩ | hlater)
          · obtain ⟨path', content⟩ := file
            rw [Prod.mk.injEq, List.cons.injEq] at heq
            obtain ⟨⟨-, rfl⟩, rfl⟩ := heq
            exact hfile
          · obtain ⟨child, hchild, path', hpath, -⟩ := exists_child_of_mem_filesBelow hlater
            rw [List.cons.injEq] at hpath
            exact absurd hpath.1 (Name.ne_of_cmp_lt (hnames child hchild))
        · exact fun hfile => .inl ⟨(path, bytes, mode), hfile, rfl⟩
      · rw [lookup_cons_of_ne hname, ← mem_filesBelow_iff rest hrest]
        constructor
        · rintro (⟨file, -, heq⟩ | hlater)
          · rw [Prod.mk.injEq, List.cons.injEq] at heq
            exact absurd heq.1.1.symm hname
          · exact hlater
        · exact .inr

end

mutual

/-- No path occurs twice. -/
theorem pairwise_files : (node : Node) → node.wellFormed = true →
    node.files.Pairwise fun file file' => file.1 ≠ file'.1
  | .file _ _, _ => List.pairwise_singleton _ _
  | .directory _ children, h => by
    rw [Node.wellFormed] at h
    exact pairwise_filesBelow children h
  | .symlink, _ => List.Pairwise.nil
  | .special, _ => List.Pairwise.nil

theorem pairwise_filesBelow : (children : List (Name × Node)) →
    childrenWellFormed children = true →
    (filesBelow children).Pairwise fun file file' => file.1 ≠ file'.1
  | [], _ => List.Pairwise.nil
  | (name, node) :: rest, h => by
    rw [childrenWellFormed_cons] at h
    obtain ⟨hnames, hnode, hrest⟩ := h
    rw [filesBelow, List.pairwise_append]
    refine ⟨?_, pairwise_filesBelow rest hrest, ?_⟩
    · rw [List.pairwise_map]
      refine (pairwise_files node hnode).imp ?_
      intro file file' hne heq
      exact hne (List.cons.inj heq).2
    · intro file hfile file' hfile' heq
      obtain ⟨below, -, rfl⟩ := List.mem_map.mp hfile
      obtain ⟨child, hchild, path, hpath, -⟩ := exists_child_of_mem_filesBelow hfile'
      rw [hpath] at heq
      exact Name.ne_of_cmp_lt (hnames child hchild) (List.cons.inj heq).1

end

/-! ## Paths as bytes -/

/-- The bytes after the last separator, and those before it. -/
theorem append_separator_inj {a b c d : List UInt8} (hb : Path.separator ∉ b)
    (hd : Path.separator ∉ d) (h : a ++ Path.separator :: b = c ++ Path.separator :: d) :
    a = c ∧ b = d := by
  rcases List.append_eq_append_iff.mp h with ⟨between, hc, hrest⟩ | ⟨between, ha, hrest⟩
  · cases between with
    | nil => exact ⟨by rw [hc, List.append_nil], (List.cons.inj hrest).2⟩
    | cons first between =>
      rw [List.cons_append, List.cons.injEq] at hrest
      exact absurd (by rw [hrest.2]; simp) hb
  · cases between with
    | nil => exact ⟨by rw [ha, List.append_nil], (List.cons.inj hrest).2.symm⟩
    | cons first between =>
      rw [List.cons_append, List.cons.injEq] at hrest
      exact absurd (by rw [hrest.2]; simp) hd

theorem join_ne_nil (parent : List UInt8) (name : Name) : join parent name ≠ [] := by
  rw [join]
  split
  · exact name.ne_nil
  · simp

/-- A path as bytes. -/
def pathBytes (path : List Name) : List UInt8 := path.foldl join []

theorem pathBytes_append (path : List Name) (name : Name) :
    pathBytes (path ++ [name]) = join (pathBytes path) name := by
  rw [pathBytes, List.foldl_append]
  rfl

theorem pathBytes_eq_nil {path : List Name} : pathBytes path = [] ↔ path = [] := by
  constructor
  · intro h
    by_contra hne
    rw [← List.dropLast_append_getLast hne, pathBytes_append] at h
    exact join_ne_nil _ _ h
  · rintro rfl
    rfl

theorem Name.ext {a b : Name} (h : a.bytes = b.bytes) : a = b := by
  cases a
  cases b
  rwa [Name.mk.injEq]

theorem pathBytes_injective : Function.Injective pathBytes := by
  intro path
  induction path using List.reverseRecOn with
  | nil =>
    intro path' h
    exact (pathBytes_eq_nil.mp h.symm).symm
  | append_singleton path name ih =>
    intro path' h
    cases path' using List.reverseRecOn with
    | nil =>
      rw [pathBytes_append] at h
      exact absurd h (join_ne_nil _ _)
    | append_singleton path' name' =>
      rw [pathBytes_append, pathBytes_append, join, join] at h
      -- One name has no separator, and two have one.
      split at h
      next hnil =>
        split at h
        next hnil' =>
          rw [pathBytes_eq_nil] at hnil hnil'
          rw [hnil, hnil', Name.ext h]
        next =>
          exact absurd (by rw [h]; simp) name.no_separator
      next =>
        split at h
        next =>
          exact absurd (by rw [← h]; simp) name'.no_separator
        next =>
          obtain ⟨hpath, hname⟩ := append_separator_inj name.no_separator name'.no_separator h
          rw [ih hpath, Name.ext hname]

/-! ## The hashed bytes -/

/-- An entry of a regular file, with a path whose length is a `u64`. -/
def EntryOk (entry : Entry) : Prop :=
  entry.2.role = .projectInput ∧ entry.1.length < 2 ^ 64

/-- What was measured of an artifact is told from what follows it. -/
theorem measured_append_inj {a b : ArtifactIdentity} {rest rest' : List UInt8}
    (hrole : a.role = b.role)
    (h : a.digest.toList ++ (BigEndian.toBytes 8 a.size.toNat ++
        (BigEndian.toBytes 2 a.mode.get.toNat ++ rest)) =
      b.digest.toList ++ (BigEndian.toBytes 8 b.size.toNat ++
        (BigEndian.toBytes 2 b.mode.get.toNat ++ rest'))) : a = b ∧ rest = rest' := by
  obtain ⟨hdigest, hafterDigest⟩ := List.append_inj h (by simp)
  obtain ⟨hsize, hafterSize⟩ := List.append_inj hafterDigest (by simp)
  obtain ⟨hmode, hrest⟩ := List.append_inj hafterSize (by simp)
  have hsizes : a.size = b.size :=
    UInt64.toNat.inj (BigEndian.toBytes_inj a.size.toNat_lt b.size.toNat_lt hsize)
  have hmodes : a.mode.get = b.mode.get :=
    UInt16.toNat.inj (BigEndian.toBytes_inj a.mode.get.toNat_lt b.mode.get.toNat_lt hmode)
  obtain ⟨role, digest, size, mode, _⟩ := a
  obtain ⟨role', digest', size', mode', _⟩ := b
  cases hrole
  cases Vector.toList_inj.mp hdigest
  cases hsizes
  cases hmodes
  exact ⟨rfl, hrest⟩

theorem selfDelimiting_encodeEntry : SelfDelimiting EntryOk encodeEntry := by
  intro ⟨path, identity⟩ ⟨path', identity'⟩ rest rest' ⟨hrole, hpath⟩ ⟨hrole', hpath'⟩ h
  simp only [encodeEntry, List.append_assoc] at h
  obtain ⟨hlength, hafterLength⟩ := List.append_inj h (by simp)
  have hpaths : path.length = path'.length := BigEndian.toBytes_inj hpath hpath' hlength
  obtain ⟨hpathEq, hafterPath⟩ := List.append_inj hafterLength hpaths
  obtain ⟨hidentity, hrest⟩ := measured_append_inj (hrole.trans hrole'.symm) hafterPath
  exact ⟨Prod.ext hpathEq hidentity, hrest⟩

theorem encodeEntry_ne_nil (entry : Entry) : encodeEntry entry ≠ [] := by
  simp [encodeEntry, BigEndian.toBytes]

theorem length_lt_of_encodedSize {size total : Nat} {entries : List Entry}
    (h : encodedSize size entries = .ok total) :
    ∀ entry ∈ entries, entry.1.length < 2 ^ 64 := by
  induction entries generalizing size with
  | nil => simp
  | cons entry entries ih =>
    simp only [encodedSize, bind_eq_ok, okOr_eq_ok, checked_eq_some] at h
    obtain ⟨length, ⟨hlength, -⟩, next, -, hrest⟩ := h
    intro e he
    rcases List.mem_cons.mp he with rfl | he
    · exact hlength
    · exact ih hrest e he

/-! ## What an identity tells -/

/-- The entries of a directory in the order of their paths. -/
def sortedEntries (t : Directory) : List Entry :=
  Sorting.sortBy entryCmp ((filesBelow t.children).map (fileEntry sha256 []))

/-- The byte strings that are hashed to identify a directory. -/
def hashInputs (t : Directory) (role : ArtifactRole) : List (List UInt8) :=
  encodeInventory role (sortedEntries sha256 t) :: (filesBelow t.children).map fun file => file.2.1

instance : Std.TransCmp entryCmp :=
  inferInstanceAs (Std.TransCmp (compareOn fun entry : Entry => entry.1))

variable {sha256} {t t' : Directory} {role : ArtifactRole} {identity identity' : ArtifactIdentity}

theorem identifyDirectory_eq_ok (h : identifyDirectory sha256 t role = .ok identity) :
    ∃ size, encodedSize (directoryIdentityDomain.length + (Utf8.bytes role.asStr).length)
        (sortedEntries sha256 t) = .ok size ∧
      identity = ⟨role, sha256 (encodeInventory role (sortedEntries sha256 t)),
        UInt64.ofNat size, t.mode⟩ := by
  simp only [identifyDirectory, bind_eq_ok, pure_eq_ok] at h
  obtain ⟨entries, hentries, size, hsize, rfl⟩ := h
  rw [inventoryDirectory_eq_ok sha256 t.children hentries] at hsize ⊢
  exact ⟨size, hsize, rfl⟩

theorem mem_sortedEntries {entry : Entry} :
    entry ∈ sortedEntries sha256 t ↔ ∃ path bytes mode,
      lookup t.children path = some (.file bytes mode) ∧
        (pathBytes path, identifyFile sha256 .projectInput bytes mode) = entry := by
  rw [sortedEntries, Sorting.mem_sortBy, List.mem_map]
  constructor
  · rintro ⟨⟨path, bytes, mode⟩, hfile, hentry⟩
    exact ⟨path, bytes, mode, (mem_filesBelow_iff t.children t.wellFormed).mp hfile, hentry⟩
  · rintro ⟨path, bytes, mode, hfile, hentry⟩
    exact ⟨(path, bytes, mode), (mem_filesBelow_iff t.children t.wellFormed).mpr hfile, hentry⟩

theorem strict_sortedEntries (t : Directory) :
    Sorting.Strict entryCmp (sortedEntries sha256 t) := by
  apply Sorting.strict_sortBy
  rw [List.pairwise_map]
  refine (pairwise_filesBelow t.children t.wellFormed).imp ?_
  intro file file' hne heq
  have hbytes : pathBytes file.1 = pathBytes file'.1 := Std.LawfulEqCmp.eq_of_compare heq
  exact hne (pathBytes_injective hbytes)

theorem entryOk_of_mem {size : Nat} (hsize : encodedSize
      (directoryIdentityDomain.length + (Utf8.bytes role.asStr).length)
      (sortedEntries sha256 t) = .ok size) :
    ∀ entry ∈ sortedEntries sha256 t, EntryOk entry := by
  intro entry hentry
  obtain ⟨path, bytes, mode, -, rfl⟩ := mem_sortedEntries.mp hentry
  exact ⟨rfl, length_lt_of_encodedSize hsize _ hentry⟩

theorem sortedEntries_eq_of_sameFiles (h : t.SameFiles t') :
    sortedEntries sha256 t = sortedEntries sha256 t' := by
  apply (strict_sortedEntries t).eq_of_mem_iff (strict_sortedEntries t')
  intro entry
  rw [mem_sortedEntries, mem_sortedEntries]
  constructor
  · rintro ⟨path, bytes, mode, hfile, hentry⟩
    exact ⟨path, bytes, mode, (h path bytes mode).mp hfile, hentry⟩
  · rintro ⟨path, bytes, mode, hfile, hentry⟩
    exact ⟨path, bytes, mode, (h path bytes mode).mpr hfile, hentry⟩

/-- A file is found in the other directory when the entries are the same. -/
theorem lookup_of_sortedEntries_eq
    (hfree : CollisionFree sha256 (hashInputs sha256 t role ++ hashInputs sha256 t' role))
    (hentries : sortedEntries sha256 t = sortedEntries sha256 t') {path : List Name}
    {bytes : List UInt8} {mode : FileMode}
    (h : lookup t.children path = some (.file bytes mode)) :
    lookup t'.children path = some (.file bytes mode) := by
  have hmem : (pathBytes path, identifyFile sha256 .projectInput bytes mode) ∈
      sortedEntries sha256 t' := by
    rw [← hentries]
    exact mem_sortedEntries.mpr ⟨path, bytes, mode, h, rfl⟩
  obtain ⟨path', bytes', mode', h', heq⟩ := mem_sortedEntries.mp hmem
  rw [Prod.mk.injEq, identifyFile, identifyFile, ArtifactIdentity.mk.injEq] at heq
  obtain ⟨hpath, -, hdigest, -, hmode⟩ := heq
  have hin : bytes ∈ hashInputs sha256 t role ++ hashInputs sha256 t' role := by
    rw [List.mem_append]
    refine .inl (List.mem_cons_of_mem _ (List.mem_map.mpr ⟨(path, bytes, mode), ?_, rfl⟩))
    exact (mem_filesBelow_iff t.children t.wellFormed).mpr h
  have hin' : bytes' ∈ hashInputs sha256 t role ++ hashInputs sha256 t' role := by
    rw [List.mem_append]
    refine .inr (List.mem_cons_of_mem _ (List.mem_map.mpr ⟨(path', bytes', mode'), ?_, rfl⟩))
    exact (mem_filesBelow_iff t'.children t'.wellFormed).mpr h'
  rwa [hfree bytes' hin' bytes hin hdigest, pathBytes_injective hpath, hmode] at h'

/-- An identity is the mode of the root and the regular files. -/
theorem identity_eq_iff (hidentity : identifyDirectory sha256 t role = .ok identity)
    (hidentity' : identifyDirectory sha256 t' role = .ok identity')
    (hfree : CollisionFree sha256 (hashInputs sha256 t role ++ hashInputs sha256 t' role)) :
    identity = identity' ↔ t.mode = t'.mode ∧ t.SameFiles t' := by
  obtain ⟨size, hsize, rfl⟩ := identifyDirectory_eq_ok hidentity
  obtain ⟨size', hsize', rfl⟩ := identifyDirectory_eq_ok hidentity'
  rw [ArtifactIdentity.mk.injEq]
  constructor
  · rintro ⟨-, hdigest, -, hmode⟩
    have hbytes := hfree _ (by simp [hashInputs]) _ (by simp [hashInputs]) hdigest
    have hentries : sortedEntries sha256 t = sortedEntries sha256 t' :=
      selfDelimiting_encodeEntry.flatMap_inj encodeEntry_ne_nil (entryOk_of_mem hsize)
        (entryOk_of_mem hsize') (List.append_cancel_left hbytes)
    have hfree' : CollisionFree sha256 (hashInputs sha256 t' role ++ hashInputs sha256 t role) := by
      intro a ha b hb
      exact hfree a (List.perm_append_comm.mem_iff.mp ha) b (List.perm_append_comm.mem_iff.mp hb)
    refine ⟨hmode, fun path bytes mode => ⟨?_, ?_⟩⟩
    · exact lookup_of_sortedEntries_eq hfree hentries
    · exact lookup_of_sortedEntries_eq hfree' hentries.symm
  · rintro ⟨hmode, hfiles⟩
    have hentries : sortedEntries sha256 t = sortedEntries sha256 t' :=
      sortedEntries_eq_of_sameFiles hfiles
    rw [hentries, hsize', Except.ok.injEq] at hsize
    rw [hentries, hsize, hmode]
    exact ⟨rfl, rfl, rfl, rfl⟩

theorem revalidateIdentity_eq_ok (hidentity : identifyDirectory sha256 t role = .ok identity)
    (hidentity' : identifyDirectory sha256 t' role = .ok identity') :
    revalidateIdentity sha256 identity t' = .ok () ↔ identity = identity' := by
  obtain ⟨size, -, rfl⟩ := identifyDirectory_eq_ok hidentity
  rw [revalidateIdentity, hidentity', ok_bind, rejectIf_eq_ok, not_not, eq_comm]

/-- The directories have the same root mode and the same regular files, and still
differ: in a subdirectory or its mode. -/
def Directory.DifferInSubdirectories (t t' : Directory) : Prop :=
  t.mode = t'.mode ∧ t.SameFiles t' ∧ ¬t.Same t'

/-- A difference between two directories that are accepted is detected exactly
when it is not in the subdirectories alone. -/
theorem identifyDirectory_detects_iff
    (hidentity : identifyDirectory sha256 t role = .ok identity)
    (hidentity' : identifyDirectory sha256 t' role = .ok identity')
    (hfree : CollisionFree sha256 (hashInputs sha256 t role ++ hashInputs sha256 t' role)) :
    (identity = identity' → t.Same t') ∧ (¬t.Same t' → revalidateIdentity sha256 identity t' ≠ .ok ())
      ↔ ¬t.DifferInSubdirectories t' := by
  have hequal := identity_eq_iff hidentity hidentity' hfree
  rw [Ne, revalidateIdentity_eq_ok hidentity hidentity', hequal, Directory.DifferInSubdirectories]
  constructor
  · rintro ⟨hsame, -⟩ ⟨hmode, hfiles, hdiffer⟩
    exact hdiffer (hsame ⟨hmode, hfiles⟩)
  · intro hdetected
    constructor
    · rintro ⟨hmode, hfiles⟩
      by_contra hdiffer
      exact hdetected ⟨hmode, hfiles, hdiffer⟩
    · rintro hdiffer ⟨hmode, hfiles⟩
      exact hdetected ⟨hmode, hfiles, hdiffer⟩

/-- A directory with the file `a`. -/
def sampleDirectory (content : UInt8) : Directory where
  mode := ⟨0o755, by decide⟩
  children := [(⟨[0x61], by decide, by decide⟩, .file [content] ⟨0o644, by decide⟩)]
  wellFormed := by rfl

/-- A directory with the file `a` and an empty subdirectory `d`. -/
def sampleWithSubdirectory (mode : FileMode) : Directory where
  mode := ⟨0o755, by decide⟩
  children := [(⟨[0x61], by decide, by decide⟩, .file [1] ⟨0o644, by decide⟩),
    (⟨[0x64], by decide, by decide⟩, .directory mode [])]
  wellFormed := by rfl

theorem exists_ok_of_isOk {ε α : Type} {x : Except ε α} (h : x.isOk = true) :
    ∃ a, x = .ok a := by
  cases x with
  | ok a => exact ⟨a, rfl⟩
  | error e => cases h

theorem identifyDirectory_detects_sample :
    ∃ identity identity',
      identifyDirectory Sha256.hash (sampleDirectory 1) .projectInput = .ok identity ∧
      identifyDirectory Sha256.hash (sampleDirectory 2) .projectInput = .ok identity' ∧
      (identity = identity' → (sampleDirectory 1).Same (sampleDirectory 2)) ∧
      (¬(sampleDirectory 1).Same (sampleDirectory 2) →
        revalidateIdentity Sha256.hash identity (sampleDirectory 2) ≠ .ok ()) := by
  have hok : (identifyDirectory Sha256.hash (sampleDirectory 1) .projectInput).isOk = true := by
    decide +kernel
  have hok' : (identifyDirectory Sha256.hash (sampleDirectory 2) .projectInput).isOk = true := by
    decide +kernel
  obtain ⟨identity, hidentity⟩ := exists_ok_of_isOk hok
  obtain ⟨identity', hidentity'⟩ := exists_ok_of_isOk hok'
  refine ⟨identity, identity', hidentity, hidentity',
    (identifyDirectory_detects_iff hidentity hidentity' (by decide +kernel)).mpr ?_⟩
  rintro ⟨-, hfiles, -⟩
  have hfile := (hfiles [⟨[0x61], by decide, by decide⟩] [1] ⟨0o644, by decide⟩).mp rfl
  revert hfile
  decide

theorem identifyDirectory_sampleWithSubdirectory (mode : FileMode) :
    identifyDirectory Sha256.hash (sampleWithSubdirectory mode) .projectInput =
      identifyDirectory Sha256.hash (sampleDirectory 1) .projectInput := by
  have hentries : inventoryDirectory Sha256.hash [] (sampleWithSubdirectory mode).children =
      inventoryDirectory Sha256.hash [] (sampleDirectory 1).children := rfl
  rw [identifyDirectory, hentries]
  rfl

/-- An added subdirectory, and a change of its mode, keep the identity. -/
theorem identifyDirectory_subdirectory :
    let closed : FileMode := ⟨0o700, by decide⟩
    let shared : FileMode := ⟨0o777, by decide⟩
    let name : Name := ⟨[0x64], by decide, by decide⟩
    (identifyDirectory Sha256.hash (sampleDirectory 1) .projectInput).isOk = true ∧
      identifyDirectory Sha256.hash (sampleWithSubdirectory closed) .projectInput =
        identifyDirectory Sha256.hash (sampleDirectory 1) .projectInput ∧
      identifyDirectory Sha256.hash (sampleWithSubdirectory shared) .projectInput =
        identifyDirectory Sha256.hash (sampleDirectory 1) .projectInput ∧
      lookup (sampleDirectory 1).children [name] = none ∧
      lookup (sampleWithSubdirectory closed).children [name] = some (.directory closed) ∧
      lookup (sampleWithSubdirectory shared).children [name] = some (.directory shared) := by
  refine ⟨by decide +kernel, identifyDirectory_sampleWithSubdirectory _,
    identifyDirectory_sampleWithSubdirectory _, ?_⟩
  decide +kernel

end ProofboundRuntime.Linux
