import ProofboundRuntime.Lib.Listing
import ProofboundRuntime.Lib.Loop
import ProofboundRuntime.Lib.SelfDelimiting
import ProofboundRuntime.Lib.Sha256
import ProofboundRuntime.Lib.Sorting
import ProofboundRuntime.Core.Identity

/-!
# The digest of a release directory

`release_directory_digest` of the acceptance tool walks a directory with a stack of
directories to read, gathers its regular files in the order of the listings, sorts them by
path and hashes the list.  The tree does not change during the walk, so the reads of
directories and files succeed.

What the walk gathers is, up to order, what the leaves of the tree give (`gatherFiles_outcome`).
The digest therefore does not depend on the order of the listings, and it identifies the
files with their paths (`releaseDirectoryDigest_binds`).
-/

namespace ProofboundRuntime.Accept

open ProofboundRuntime.Core Result Loop FileTree

inductive CliError where
  | inputReadFailed
  | inputTypeInvalid
deriving DecidableEq

/-! ## The walk -/

/-- What is neither a directory nor a symbolic link. -/
inductive Member where
  | regular (bytes : List UInt8)
  | special
deriving DecidableEq

/-- A directory on disk, its entries in the order of `read_dir`. -/
structure ReleaseDirectory where
  entries : List (Name × Node Member)
  listed : listedBelow entries = true

/-- A relative path with the contents there. -/
abbrev ReleaseFile := String × List UInt8

structure Walk where
  pending : List (List Name × List (Name × Node Member))
  files : List ReleaseFile

def maxReleaseMemberBytes : Nat := 16 * 1024 * 1024

def maxReleaseFiles : Nat := 4096

/-- One turn of the loop over the entries of a directory, which the names lead to. -/
def visitEntry (directory : List Name) (w : Walk) (entry : Name × Node Member) :
    Except CliError Walk :=
  match entry.2 with
  | .symlink _ => .error .inputTypeInvalid
  | .directory entries =>
    .ok { w with pending := w.pending ++ [(directory ++ [entry.1], entries)] }
  | .file (.regular bytes) =>
    if bytes.length ≤ maxReleaseMemberBytes then do
      let relative ←
        okOr (Utf8.fromUtf8 (relativePath (directory ++ [entry.1]))) .inputTypeInvalid
      let files := w.files ++ [(relative, bytes)]
      rejectIf (maxReleaseFiles < files.length) .inputTypeInvalid
      pure { w with files := files }
    else .error .inputTypeInvalid
  | .file .special => .error .inputTypeInvalid

/-- One turn of the loop over the directories to read. -/
def walkRound (w : Walk) : Round Walk (Except CliError (List ReleaseFile)) :=
  match w.pending.getLast? with
  | none => .leave (.ok w.files)
  | some (directory, entries) =>
    match entries.foldlM (visitEntry directory) { w with pending := w.pending.dropLast } with
    | .error e => .leave (.error e)
    | .ok w' => .next w'

def walkStart (root : ReleaseDirectory) : Walk := ⟨[([], root.entries)], []⟩

/-- The loops; a round reads a directory. -/
def gatherFiles (root : ReleaseDirectory) : Except CliError (List ReleaseFile) :=
  (run walkRound (directoriesBelow root.entries + 2) (walkStart root)).getD
    (.error .inputReadFailed)

/-! ## The digest -/

def releaseDirectoryDomain : List UInt8 := Utf8.bytes "proofbound-release-directory/1\x00"

def digestText (digest : Sha256Digest) : String := "sha256:" ++ Hex.text digest.toList

/-- What is hashed of a file: its path, its length and its digest. -/
abbrev Summary := List UInt8 × Nat × Sha256Digest

def encodeSummary (summary : Summary) : List UInt8 :=
  BigEndian.toBytes 8 summary.1.length ++ summary.1 ++ BigEndian.toBytes 8 summary.2.1 ++
    summary.2.2.toList

variable (sha256 : List UInt8 → Sha256Digest)

def summarize (file : ReleaseFile) : Summary := (Utf8.bytes file.1, file.2.length, sha256 file.2)

/-- One turn of the loop over the files. -/
def encodeFile (file : ReleaseFile) : Except CliError (List UInt8) := do
  rejectIf (¬(Utf8.bytes file.1).length < 2 ^ 64) .inputTypeInvalid
  rejectIf (¬file.2.length < 2 ^ 64) .inputTypeInvalid
  pure (encodeSummary (summarize sha256 file))

def pathCmp (a b : ReleaseFile) : Ordering := compare (Utf8.bytes a.1) (Utf8.bytes b.1)

def releaseDirectoryDigest (root : ReleaseDirectory) : Except CliError String := do
  let files ← gatherFiles root
  let parts ← collect (encodeFile sha256) (Sorting.sortBy pathCmp files)
  pure (digestText (sha256 (releaseDirectoryDomain ++ parts.flatten)))

/-! ## What the walk gathers -/

/-- The file that a leaf gives, if it is one that a release may have. -/
def leafFile (leaf : List Name × Node Member) : Option ReleaseFile :=
  match leaf.2 with
  | .file (.regular bytes) =>
    if bytes.length ≤ maxReleaseMemberBytes then
      (Utf8.fromUtf8 (relativePath leaf.1)).map fun relative => (relative, bytes)
    else none
  | _ => none

/-- The leaves below a directory, which the names lead to. -/
def leavesAt (directory : List Name × List (Name × Node Member)) :
    List (List Name × Node Member) :=
  (leavesBelow directory.2).map fun leaf => (directory.1 ++ leaf.1, leaf.2)

/-- What the gathered files and the directories to read give. -/
def yield (files : List ReleaseFile)
    (directories : List (List Name × List (Name × Node Member))) : List (Option ReleaseFile) :=
  files.map some ++ (directories.flatMap leavesAt).map leafFile

theorem leavesAt_cons (directory : List Name) (name : Name) (node : Node Member)
    (rest : List (Name × Node Member)) :
    leavesAt (directory, (name, node) :: rest) =
      node.leaves.map (fun leaf => (directory ++ [name] ++ leaf.1, leaf.2)) ++
        leavesAt (directory, rest) := by
  rw [leavesAt, leavesBelow, List.map_append, List.map_map]
  congr 1
  refine List.map_congr_left fun leaf _ => ?_
  rw [Function.comp_apply, List.append_assoc]
  rfl

variable {directory : List Name} {node : Node Member} {w w' : Walk} {name : Name}

/-- A directory is pushed, or a leaf gives a file. -/
theorem visitEntry_eq_ok (h : visitEntry directory w (name, node) = .ok w') :
    (∃ entries, node = .directory entries ∧
      w' = { w with pending := w.pending ++ [(directory ++ [name], entries)] }) ∨
    (∃ file, node.leaves = [([], node)] ∧ leafFile (directory ++ [name], node) = some file ∧
      w.files.length + 1 ≤ maxReleaseFiles ∧ w' = { w with files := w.files ++ [file] }) := by
  match node with
  | .symlink target => cases h
  | .file .special => cases h
  | .directory entries => exact .inl ⟨entries, rfl, (Except.ok.inj h).symm⟩
  | .file (.regular bytes) =>
    simp only [visitEntry] at h
    split at h
    next hbytes =>
      rw [bind_eq_ok] at h
      obtain ⟨relative, hrelative, h⟩ := h
      rw [okOr_eq_ok] at hrelative
      rw [check_bind_eq_ok, rejectIf_eq_ok, pure_eq_ok] at h
      obtain ⟨hcount, rfl⟩ := h
      refine .inr ⟨(relative, bytes), rfl, ?_, ?_, rfl⟩
      · simp only [leafFile, if_pos hbytes, hrelative, Option.map_some]
      · rw [List.length_append, List.length_singleton] at hcount
        omega
    next => cases h

theorem visitEntry_eq_error {e : CliError} (h : visitEntry directory w (name, node) = .error e) :
    e = .inputTypeInvalid ∧ node.leaves = [([], node)] ∧
      (leafFile (directory ++ [name], node) = none ∨ maxReleaseFiles < w.files.length + 1) := by
  match node with
  | .symlink target => exact ⟨(Except.error.inj h).symm, rfl, .inl rfl⟩
  | .file .special => exact ⟨(Except.error.inj h).symm, rfl, .inl rfl⟩
  | .directory entries => cases h
  | .file (.regular bytes) =>
    simp only [visitEntry] at h
    split at h
    next hbytes =>
      cases hrelative : Utf8.fromUtf8 (relativePath (directory ++ [name])) with
      | none =>
        rw [hrelative] at h
        refine ⟨(Except.error.inj h).symm, rfl, .inl ?_⟩
        simp only [leafFile, if_pos hbytes, hrelative, Option.map_none]
      | some relative =>
        rw [hrelative, okOr_some, ok_bind] at h
        by_cases hcount : maxReleaseFiles < (w.files ++ [(relative, bytes)]).length
        · rw [rejectIf_true hcount, error_bind] at h
          rw [List.length_append, List.length_singleton] at hcount
          exact ⟨(Except.error.inj h).symm, rfl, .inr hcount⟩
        · rw [rejectIf_false hcount, ok_bind] at h
          cases h
    next hbytes =>
      refine ⟨(Except.error.inj h).symm, rfl, .inl ?_⟩
      simp only [leafFile, if_neg hbytes]

theorem leavesAt_cons_leaf (hleaves : node.leaves = [([], node)])
    (rest : List (Name × Node Member)) :
    leavesAt (directory, (name, node) :: rest) =
      (directory ++ [name], node) :: leavesAt (directory, rest) := by
  rw [leavesAt_cons, hleaves, List.map_singleton, List.append_nil, List.singleton_append]

/-- A turn of the inner loop keeps what is given. -/
theorem yield_perm_of_visitEntry (rest : List (Name × Node Member))
    (h : visitEntry directory w (name, node) = .ok w') :
    (yield w.files (w.pending ++ [(directory, (name, node) :: rest)])).Perm
      (yield w'.files (w'.pending ++ [(directory, rest)])) := by
  rcases visitEntry_eq_ok h with ⟨entries, rfl, rfl⟩ | ⟨file, hleaves, hfile, -, rfl⟩
  · simp only [yield, List.flatMap_append, List.flatMap_singleton, List.append_assoc]
    rw [leavesAt_cons, Node.leaves]
    exact .refl _
  · simp only [yield, List.flatMap_append, List.flatMap_singleton, List.map_append,
      List.append_assoc]
    rw [leavesAt_cons_leaf hleaves, List.map_cons, hfile, List.map_singleton]
    exact List.perm_middle.append_left _

variable {entries : List (Name × Node Member)}

theorem yield_perm_of_foldlM (h : entries.foldlM (visitEntry directory) w = .ok w') :
    (yield w.files (w.pending ++ [(directory, entries)])).Perm (yield w'.files w'.pending) := by
  induction entries generalizing w with
  | nil =>
    cases h
    rw [yield, List.flatMap_append, List.flatMap_singleton, leavesAt, leavesBelow, List.map_nil,
      List.append_nil]
    exact .refl _
  | cons entry rest ih =>
    rw [List.foldlM_cons, bind_eq_ok] at h
    obtain ⟨next, hvisit, hrest⟩ := h
    exact (yield_perm_of_visitEntry rest hvisit).trans (ih hrest)

theorem length_le_of_foldlM (hw : w.files.length ≤ maxReleaseFiles)
    (h : entries.foldlM (visitEntry directory) w = .ok w') : w'.files.length ≤ maxReleaseFiles := by
  induction entries generalizing w with
  | nil =>
    cases h
    exact hw
  | cons entry rest ih =>
    rw [List.foldlM_cons, bind_eq_ok] at h
    obtain ⟨next, hvisit, hrest⟩ := h
    refine ih ?_ hrest
    rcases visitEntry_eq_ok hvisit with ⟨entries, -, rfl⟩ | ⟨file, -, -, hcount, rfl⟩
    · exact hw
    · rwa [List.length_append, List.length_singleton]

/-- What makes a release fail: a leaf that is no file of a release, or too many. -/
def Refused (given : List (Option ReleaseFile)) : Prop :=
  none ∈ given ∨ maxReleaseFiles < given.length

theorem Refused.of_perm {given given' : List (Option ReleaseFile)} (h : Refused given)
    (hperm : given.Perm given') : Refused given' := by
  rcases h with hnone | hmany
  · exact .inl (hperm.mem_iff.mp hnone)
  · exact .inr (hperm.length_eq ▸ hmany)

theorem refused_of_foldlM {e : CliError} (h : entries.foldlM (visitEntry directory) w = .error e) :
    e = .inputTypeInvalid ∧ Refused (yield w.files (w.pending ++ [(directory, entries)])) := by
  induction entries generalizing w with
  | nil => cases h
  | cons entry rest ih =>
    obtain ⟨name, node⟩ := entry
    rw [List.foldlM_cons] at h
    cases hvisit : visitEntry directory w (name, node) with
    | ok next =>
      rw [hvisit, ok_bind] at h
      obtain ⟨hcode, hrefused⟩ := ih h
      exact ⟨hcode, hrefused.of_perm (yield_perm_of_visitEntry rest hvisit).symm⟩
    | error e' =>
      rw [hvisit, error_bind] at h
      cases h
      obtain ⟨hcode, hleaves, hleaf⟩ := visitEntry_eq_error hvisit
      refine ⟨hcode, ?_⟩
      rw [yield, List.flatMap_append, List.flatMap_singleton, leavesAt_cons_leaf hleaves]
      rcases hleaf with hnone | hmany
      · refine .inl (List.mem_append_right _ (List.mem_map.mpr
          ⟨(directory ++ [name], node), ?_, hnone⟩))
        exact List.mem_append_right _ List.mem_cons_self
      · refine .inr ?_
        simp only [List.length_append, List.length_map, List.length_cons]
        omega

/-! ## The walk ends -/

/-- How many directories are still to be read. -/
def unread (pending : List (List Name × List (Name × Node Member))) : Nat :=
  (pending.map fun directory => directoriesBelow directory.2 + 1).sum

theorem unread_concat (pending : List (List Name × List (Name × Node Member)))
    (directory : List Name) (entries : List (Name × Node Member)) :
    unread (pending ++ [(directory, entries)]) = unread pending + (directoriesBelow entries + 1) := by
  rw [unread, List.map_append, List.sum_append, List.map_singleton, List.sum_singleton]
  rfl

theorem unread_of_foldlM (h : entries.foldlM (visitEntry directory) w = .ok w') :
    unread w'.pending = unread w.pending + directoriesBelow entries := by
  induction entries generalizing w with
  | nil =>
    cases h
    rfl
  | cons entry rest ih =>
    obtain ⟨name, node⟩ := entry
    rw [List.foldlM_cons, bind_eq_ok] at h
    obtain ⟨next, hvisit, hrest⟩ := h
    rw [ih hrest, directoriesBelow]
    rcases visitEntry_eq_ok hvisit with ⟨entries, rfl, rfl⟩ | ⟨file, hleaves, -, -, rfl⟩
    · rw [unread_concat, Node.directories]
      omega
    · have hnone : node.directories = 0 := by
        match node with
        | .file _ => rfl
        | .symlink _ => rfl
        | .directory entries =>
          rw [Node.leaves] at hleaves
          obtain ⟨entry, -, below, -, hpath⟩ :=
            mem_leavesBelow.mp (hleaves ▸ List.mem_singleton_self _)
          cases hpath
      rw [hnone, Nat.zero_add]

theorem walkRound_eq_next (h : walkRound w = .next w') :
    ∃ pending directory entries, w.pending = pending ++ [(directory, entries)] ∧
      entries.foldlM (visitEntry directory) { w with pending := pending } = .ok w' := by
  unfold walkRound at h
  split at h
  next => cases h
  next directory entries hlast =>
    split at h
    next => cases h
    next w'' hfold =>
      cases h
      refine ⟨w.pending.dropLast, directory, entries, ?_, hfold⟩
      obtain ⟨pending, hpending⟩ := List.getLast?_eq_some_iff.mp hlast
      rw [hpending, List.dropLast_concat]

theorem unread_lt_of_next (h : walkRound w = .next w') : unread w'.pending < unread w.pending := by
  obtain ⟨pending, directory, entries, hpending, hfold⟩ := walkRound_eq_next h
  have hread : unread w'.pending = unread pending + directoriesBelow entries :=
    unread_of_foldlM hfold
  rw [hread, hpending, unread_concat]
  omega

theorem leaves_gatherFiles (root : ReleaseDirectory) :
    Leaves walkRound (walkStart root) (gatherFiles root) := by
  have hunread : unread (walkStart root).pending < directoriesBelow root.entries + 2 := by
    show unread ([] ++ [([], root.entries)]) < _
    rw [unread_concat]
    exact Nat.lt_of_le_of_lt (Nat.zero_add _).le (Nat.lt_succ_self _)
  obtain ⟨result, hrun⟩ := exists_run_eq (fun _ _ => unread_lt_of_next) hunread
  have hresult : gatherFiles root = result := by
    rw [gatherFiles, hrun, Option.getD_some]
  rw [hresult]
  exact ⟨_, hrun⟩

/-! ## The outcome of the walk -/

theorem walkRound_eq_leave {result : Except CliError (List ReleaseFile)}
    (h : walkRound w = .leave result) :
    (w.pending = [] ∧ result = .ok w.files) ∨
    (result = .error .inputTypeInvalid ∧ Refused (yield w.files w.pending)) := by
  unfold walkRound at h
  split at h
  next hlast =>
    cases h
    exact .inl ⟨List.getLast?_eq_none_iff.mp hlast, rfl⟩
  next directory entries hlast =>
    split at h
    next e hfold =>
      cases h
      obtain ⟨pending, hpending⟩ := List.getLast?_eq_some_iff.mp hlast
      obtain ⟨hcode, hrefused⟩ := refused_of_foldlM hfold
      rw [hcode]
      rw [hpending, List.dropLast_concat] at hrefused
      rw [hpending]
      exact .inr ⟨rfl, hrefused⟩
    next => cases h

/-- What the leaves of a release give. -/
def releaseYield (root : ReleaseDirectory) : List (Option ReleaseFile) :=
  (leavesBelow root.entries).map leafFile

theorem yield_walkStart (root : ReleaseDirectory) :
    yield (walkStart root).files (walkStart root).pending = releaseYield root := by
  rw [yield, walkStart, List.map_nil, List.nil_append, List.flatMap_singleton, leavesAt]
  simp only [List.nil_append, Prod.mk.eta, List.map_id', releaseYield]

/-- The walk gathers the files that the leaves give, in some order, or it fails since
there is a leaf that it refuses or too many. -/
theorem gatherFiles_outcome (root : ReleaseDirectory) :
    (∃ files, gatherFiles root = .ok files ∧ (files.map some).Perm (releaseYield root) ∧
      ¬Refused (releaseYield root)) ∨
    (gatherFiles root = .error .inputTypeInvalid ∧ Refused (releaseYield root)) := by
  let Inv (w : Walk) : Prop :=
    (yield w.files w.pending).Perm (releaseYield root) ∧ w.files.length ≤ maxReleaseFiles
  have hstart : Inv (walkStart root) := ⟨yield_walkStart root ▸ .refl _, Nat.zero_le _⟩
  have hnext : ∀ w w', Inv w → walkRound w = .next w' → Inv w' := by
    intro w w' ⟨hgiven, hcount⟩ hround
    obtain ⟨pending, directory, entries, hpending, hfold⟩ := walkRound_eq_next hround
    rw [hpending] at hgiven
    refine ⟨(yield_perm_of_foldlM hfold).symm.trans hgiven, ?_⟩
    exact length_le_of_foldlM (w := { w with pending := pending }) hcount hfold
  obtain ⟨last, ⟨hgiven, hcount⟩, hleave⟩ :=
    (leaves_gatherFiles root).exists_last hstart hnext
  rcases walkRound_eq_leave hleave with ⟨hpending, hresult⟩ | ⟨hresult, hrefused⟩
  · have hfiles : yield last.files last.pending = last.files.map some := by
      rw [yield, hpending, List.flatMap_nil, List.map_nil, List.append_nil]
    rw [hfiles] at hgiven
    refine .inl ⟨last.files, hresult, hgiven, ?_⟩
    intro hrefused
    rcases hrefused.of_perm hgiven.symm with hnone | hmany
    · obtain ⟨file, -, hfile⟩ := List.mem_map.mp hnone
      cases hfile
    · rw [List.length_map] at hmany
      omega
  · exact .inr ⟨hresult, hrefused.of_perm hgiven⟩

/-! ## The files of a release -/

/-- The same regular files under the same relative paths. -/
def ReleaseDirectory.SameFiles (root root' : ReleaseDirectory) : Prop :=
  ∀ names bytes,
    (Node.directory root.entries).lookup names = some (.file (.regular bytes)) ↔
      (Node.directory root'.entries).lookup names = some (.file (.regular bytes))

/-- The directory with its listings, at any level, in another order. -/
def ReleaseDirectory.Relisted (root root' : ReleaseDirectory) : Prop :=
  FileTree.Relisted (.directory root.entries) (.directory root'.entries)

theorem ReleaseDirectory.Relisted.yield_perm {root root' : ReleaseDirectory}
    (h : root.Relisted root') : (releaseYield root).Perm (releaseYield root') :=
  h.leaves_perm.map leafFile

variable {names : List Name} {file : ReleaseFile}

theorem leafFile_eq_some :
    leafFile (names, node) = some file ↔ node = .file (.regular file.2) ∧
      file.2.length ≤ maxReleaseMemberBytes ∧ Utf8.bytes file.1 = relativePath names := by
  match node with
  | .symlink target => exact iff_of_false (by simp [leafFile]) (by simp)
  | .file .special => exact iff_of_false (by simp [leafFile]) (by simp)
  | .directory entries => exact iff_of_false (by simp [leafFile]) (by simp)
  | .file (.regular bytes) =>
    obtain ⟨text, bytes'⟩ := file
    simp only [leafFile, Node.file.injEq, Member.regular.injEq]
    constructor
    · intro h
      split at h
      next hbytes =>
        obtain ⟨relative, hrelative, heq⟩ := Option.map_eq_some_iff.mp h
        cases heq
        exact ⟨rfl, hbytes, Utf8.fromUtf8_eq_some.mp hrelative⟩
      next => cases h
    · rintro ⟨rfl, hbytes, hrelative⟩
      rw [if_pos hbytes, Utf8.fromUtf8_eq_some.mpr hrelative, Option.map_some]

variable {root root' : ReleaseDirectory} {files files' : List ReleaseFile}

/-- A gathered file is a regular file that its path leads to. -/
theorem exists_lookup_of_mem_files (hfiles : (files.map some).Perm (releaseYield root))
    (hfile : file ∈ files) : ∃ names,
      (Node.directory root.entries).lookup names = some (.file (.regular file.2)) ∧
        Utf8.bytes file.1 = relativePath names := by
  have hgiven : some file ∈ releaseYield root := hfiles.mem_iff.mp (List.mem_map_of_mem hfile)
  obtain ⟨⟨names, node⟩, hleaf, hnode⟩ := List.mem_map.mp hgiven
  obtain ⟨rfl, -, hpath⟩ := leafFile_eq_some.mp hnode
  exact ⟨names, ((mem_leavesBelow_iff _ root.listed).mp hleaf).1, hpath⟩

variable {bytes : List UInt8}

/-- When nothing is refused, each regular file is among the files. -/
theorem exists_mem_files (hfiles : (files.map some).Perm (releaseYield root))
    (hlookup : (Node.directory root.entries).lookup names = some (.file (.regular bytes))) :
    ∃ file ∈ files, file.2 = bytes ∧ Utf8.bytes file.1 = relativePath names := by
  have hgiven : leafFile (names, .file (.regular bytes)) ∈ files.map some := by
    rw [hfiles.mem_iff, releaseYield]
    exact List.mem_map_of_mem ((mem_leavesBelow_iff _ root.listed).mpr ⟨hlookup, rfl⟩)
  obtain ⟨file, hfile, hleaf⟩ := List.mem_map.mp hgiven
  obtain ⟨hnode, -, hpath⟩ := leafFile_eq_some.mp hleaf.symm
  rw [Node.file.injEq, Member.regular.injEq] at hnode
  exact ⟨file, hfile, hnode.symm, hpath⟩

theorem isName_of_lookup
    (hlookup : (Node.directory root.entries).lookup names = some (.file (.regular bytes))) :
    names ≠ [] ∧ ∀ name ∈ names, isName name = true :=
  isName_of_mem_leavesBelow _ root.listed
    ((mem_leavesBelow_iff _ root.listed).mpr ⟨hlookup, rfl⟩)

instance : Std.TransCmp pathCmp :=
  inferInstanceAs (Std.TransCmp (compareOn fun file : ReleaseFile => Utf8.bytes file.1))

/-- Two gathered files do not have one path. -/
theorem pairwise_files (hfiles : (files.map some).Perm (releaseYield root)) :
    files.Pairwise fun file file' => pathCmp file file' ≠ .eq := by
  -- The leaves that give the files have distinct names on their way.
  have hleaves : (leavesBelow root.entries).Pairwise fun leaf leaf' =>
      ∀ file file', leafFile leaf = some file → leafFile leaf' = some file' →
        pathCmp file file' ≠ .eq := by
    have hnodup := nodup_leavesBelow root.entries root.listed
    rw [List.Nodup, List.pairwise_map] at hnodup
    refine hnodup.imp_of_mem ?_
    rintro ⟨names, node⟩ ⟨names', node'⟩ hleaf hleaf' hne file file' hfile hfile' heq
    obtain ⟨-, -, hpath⟩ := leafFile_eq_some.mp hfile
    obtain ⟨-, -, hpath'⟩ := leafFile_eq_some.mp hfile'
    obtain ⟨hnil, hnames⟩ := isName_of_mem_leavesBelow _ root.listed hleaf
    obtain ⟨hnil', hnames'⟩ := isName_of_mem_leavesBelow _ root.listed hleaf'
    have hbytes : Utf8.bytes file.1 = Utf8.bytes file'.1 := Std.LawfulEqCmp.eq_of_compare heq
    rw [hpath, hpath'] at hbytes
    exact hne (relativePath_inj hnil hnil' hnames hnames' hbytes)
  have hyield : (releaseYield root).Pairwise fun given given' =>
      ∀ file file', given = some file → given' = some file' → pathCmp file file' ≠ .eq := by
    rwa [releaseYield, List.pairwise_map]
  have hsome := (hfiles.pairwise_iff ?_).mpr hyield
  · rw [List.pairwise_map] at hsome
    exact hsome.imp fun h => h _ _ rfl rfl
  · intro given given' h file file' hfile hfile' heq
    exact h file' file hfile' hfile (Std.OrientedCmp.eq_symm heq)

/-- The files in the order of their paths do not depend on the order of the walk. -/
theorem sortBy_files_eq (hfiles : (files.map some).Perm (releaseYield root))
    (hfiles' : (files'.map some).Perm (releaseYield root')) (h : root.Relisted root') :
    Sorting.sortBy pathCmp files = Sorting.sortBy pathCmp files' := by
  have hperm : files.Perm files' :=
    (List.map_perm_map_iff (Option.some_injective _)).mp
      (hfiles.trans (h.yield_perm.trans hfiles'.symm))
  have hstrict := Sorting.strict_sortBy (pairwise_files hfiles)
  have hstrict' := Sorting.strict_sortBy (pairwise_files hfiles')
  refine hstrict.eq_of_perm hstrict' ?_
  exact (Sorting.sortBy_perm files).trans (hperm.trans (Sorting.sortBy_perm files').symm)

/-- The digest, and the failure, does not depend on the order of the listings. -/
theorem releaseDirectoryDigest_relisted (h : root.Relisted root') :
    releaseDirectoryDigest sha256 root' = releaseDirectoryDigest sha256 root := by
  rw [releaseDirectoryDigest, releaseDirectoryDigest]
  rcases gatherFiles_outcome root with ⟨files, hok, hfiles, haccepted⟩ | ⟨herror, hrefused⟩
  · rcases gatherFiles_outcome root' with ⟨files', hok', hfiles', -⟩ | ⟨-, hrefused'⟩
    · rw [hok, hok', ok_bind, ok_bind, sortBy_files_eq hfiles hfiles' h]
    · exact absurd (hrefused'.of_perm h.yield_perm.symm) haccepted
  · rcases gatherFiles_outcome root' with ⟨files', -, -, haccepted'⟩ | ⟨herror', -⟩
    · exact absurd (hrefused.of_perm h.yield_perm) haccepted'
    · rw [herror, herror']

/-! ## What a digest tells -/

theorem digestText_injective : Function.Injective digestText := by
  intro digest digest' h
  have hbytes := congrArg Utf8.bytes h
  rw [digestText, digestText, Utf8.bytes_append, Utf8.bytes_append, List.append_cancel_left_eq,
    Utf8.bytes_inj] at hbytes
  exact Vector.toList_inj.mp (Hex.text_injective hbytes)

/-- The lengths are `u64` values. -/
def Summary.Fits (summary : Summary) : Prop := summary.1.length < 2 ^ 64 ∧ summary.2.1 < 2 ^ 64

theorem selfDelimiting_encodeSummary : SelfDelimiting Summary.Fits encodeSummary := by
  intro ⟨path, size, digest⟩ ⟨path', size', digest'⟩ rest rest' ⟨hpath, hsize⟩ ⟨hpath', hsize'⟩ h
  simp only [encodeSummary, List.append_assoc] at h
  obtain ⟨hlength, hafterLength⟩ := List.append_inj h (by simp)
  have hlengths : path.length = path'.length := BigEndian.toBytes_inj hpath hpath' hlength
  obtain ⟨hpathEq, hafterPath⟩ := List.append_inj hafterLength hlengths
  obtain ⟨hsizeBytes, hafterSize⟩ := List.append_inj hafterPath (by simp)
  obtain ⟨hdigest, hrest⟩ := List.append_inj hafterSize (by simp)
  have hsizeEq : size = size' := BigEndian.toBytes_inj hsize hsize' hsizeBytes
  rw [hpathEq, hsizeEq, Vector.toList_inj.mp hdigest]
  exact ⟨rfl, hrest⟩

theorem encodeSummary_ne_nil (summary : Summary) : encodeSummary summary ≠ [] := by
  intro h
  have hlength := congrArg List.length h
  simp [encodeSummary] at hlength

variable {sha256}

theorem encodeFile_eq_ok {part : List UInt8} :
    encodeFile sha256 file = .ok part ↔
      (summarize sha256 file).Fits ∧ encodeSummary (summarize sha256 file) = part := by
  rw [encodeFile, check_bind_eq_ok, rejectIf_eq_ok, check_bind_eq_ok, rejectIf_eq_ok, pure_eq_ok,
    not_not, not_not, ← and_assoc]
  rfl

variable (sha256) in
/-- The bytes that are hashed when these files are gathered. -/
def hashedBytes (files : List ReleaseFile) : List UInt8 :=
  releaseDirectoryDomain ++
    ((Sorting.sortBy pathCmp files).map (summarize sha256)).flatMap encodeSummary

variable (sha256) in
/-- The byte strings that are hashed for the digest of a directory. -/
def hashInputs (root : ReleaseDirectory) : List (List UInt8) :=
  match gatherFiles root with
  | .ok files => hashedBytes sha256 files :: files.map Prod.snd
  | .error _ => []

theorem hashInputs_of_ok (h : gatherFiles root = .ok files) :
    hashInputs sha256 root = hashedBytes sha256 files :: files.map Prod.snd := by
  rw [hashInputs, h]

/-- An accepted directory, by the files that were gathered. -/
theorem releaseDirectoryDigest_eq_ok {text : String}
    (h : releaseDirectoryDigest sha256 root = .ok text) :
    ∃ files, gatherFiles root = .ok files ∧ (files.map some).Perm (releaseYield root) ∧
      (∀ summary ∈ (Sorting.sortBy pathCmp files).map (summarize sha256), summary.Fits) ∧
      text = digestText (sha256 (hashedBytes sha256 files)) := by
  simp only [releaseDirectoryDigest, bind_eq_ok, pure_eq_ok] at h
  obtain ⟨files, hgather, parts, hparts, rfl⟩ := h
  obtain ⟨hfits, rfl⟩ := (collect_eq_ok_iff_map encodeFile_eq_ok).mp hparts
  refine ⟨files, hgather, ?_, List.forall_mem_map.mpr hfits, ?_⟩
  · rcases gatherFiles_outcome root with ⟨files', hok, hfiles, -⟩ | ⟨herror, -⟩
    · rw [hgather] at hok
      cases hok
      exact hfiles
    · rw [hgather] at herror
      cases herror
  · rw [hashedBytes, List.flatMap_def, List.map_map]
    rfl

/-- A file of one directory is in the other when the summaries are the same. -/
theorem lookup_of_summaries_eq (hfiles : (files.map some).Perm (releaseYield root))
    (hfiles' : (files'.map some).Perm (releaseYield root'))
    (hsummaries : (Sorting.sortBy pathCmp files).map (summarize sha256) =
      (Sorting.sortBy pathCmp files').map (summarize sha256))
    (hfree : ∀ file ∈ files, ∀ file' ∈ files', sha256 file.2 = sha256 file'.2 → file.2 = file'.2)
    (h : (Node.directory root.entries).lookup names = some (.file (.regular bytes))) :
    (Node.directory root'.entries).lookup names = some (.file (.regular bytes)) := by
  obtain ⟨file, hfile, rfl, hpath⟩ := exists_mem_files hfiles h
  have hsummary : summarize sha256 file ∈
      (Sorting.sortBy pathCmp files').map (summarize sha256) := by
    rw [← hsummaries]
    exact List.mem_map_of_mem (Sorting.mem_sortBy.mpr hfile)
  obtain ⟨file', hsorted', heq⟩ := List.mem_map.mp hsummary
  have hfile' : file' ∈ files' := Sorting.mem_sortBy.mp hsorted'
  simp only [summarize, Prod.mk.injEq] at heq
  obtain ⟨hpaths, -, hdigest⟩ := heq
  obtain ⟨names', hlookup', hpath'⟩ := exists_lookup_of_mem_files hfiles' hfile'
  obtain ⟨hnil, hnames⟩ := isName_of_lookup h
  obtain ⟨hnil', hnames'⟩ := isName_of_lookup hlookup'
  rw [hpath', hpath] at hpaths
  rwa [← relativePath_inj hnil' hnil hnames' hnames hpaths,
    hfree file hfile file' hfile' hdigest.symm]

/-- The digest of an accepted directory stays the same when the directories list their
entries in another order, and a directory with that digest has the same files. -/
theorem releaseDirectoryDigest_binds {text : String}
    (h : releaseDirectoryDigest sha256 root = .ok text) :
    (∀ root', root.Relisted root' → releaseDirectoryDigest sha256 root' = .ok text) ∧
    (∀ root', releaseDirectoryDigest sha256 root' = .ok text →
      CollisionFree sha256 (hashInputs sha256 root ++ hashInputs sha256 root') →
        root.SameFiles root') := by
  refine ⟨fun root' hlisted => (releaseDirectoryDigest_relisted sha256 hlisted).trans h, ?_⟩
  intro root' h' hfree
  obtain ⟨files, hgather, hfiles, hfits, htext⟩ := releaseDirectoryDigest_eq_ok h
  obtain ⟨files', hgather', hfiles', hfits', htext'⟩ := releaseDirectoryDigest_eq_ok h'
  rw [hashInputs_of_ok hgather, hashInputs_of_ok hgather'] at hfree
  have hdigest := digestText_injective (htext.symm.trans htext')
  have hbytes : hashedBytes sha256 files = hashedBytes sha256 files' :=
    hfree _ (by simp) _ (by simp) hdigest
  have hsummaries : (Sorting.sortBy pathCmp files).map (summarize sha256) =
      (Sorting.sortBy pathCmp files').map (summarize sha256) :=
    selfDelimiting_encodeSummary.flatMap_inj encodeSummary_ne_nil hfits hfits'
      (List.append_cancel_left hbytes)
  have hcontents : ∀ file ∈ files, ∀ file' ∈ files',
      sha256 file.2 = sha256 file'.2 → file.2 = file'.2 := by
    intro file hfile file' hfile'
    exact hfree _ (List.mem_append_left _ (List.mem_cons_of_mem _ (List.mem_map_of_mem hfile)))
      _ (List.mem_append_right _ (List.mem_cons_of_mem _ (List.mem_map_of_mem hfile')))
  intro names bytes
  constructor
  · exact lookup_of_summaries_eq hfiles hfiles' hsummaries hcontents
  · refine lookup_of_summaries_eq hfiles' hfiles hsummaries.symm ?_
    intro file' hfile' file hfile hequal
    exact (hcontents file hfile file' hfile' hequal.symm).symm

/-- The file `a`, and the file `b` in the directory `d`. -/
def sampleRelease : ReleaseDirectory where
  entries := [([0x61], .file (.regular [1])),
    ([0x64], .directory [([0x62], .file (.regular [2]))])]
  listed := by decide

/-- `sampleRelease` in the other order. -/
def sampleReleaseBackwards : ReleaseDirectory where
  entries := [([0x64], .directory [([0x62], .file (.regular [2]))]),
    ([0x61], .file (.regular [1]))]
  listed := by decide

theorem releaseDirectoryDigest_binds_sample :
    sampleRelease.Relisted sampleReleaseBackwards ∧ ∃ text,
      releaseDirectoryDigest Sha256.hash sampleRelease = .ok text ∧
      releaseDirectoryDigest Sha256.hash sampleReleaseBackwards = .ok text ∧
      sampleRelease.SameFiles sampleReleaseBackwards := by
  have hlisted : sampleRelease.Relisted sampleReleaseBackwards := .perm (.swap _ _ _)
  have hok : (releaseDirectoryDigest Sha256.hash sampleRelease).isOk = true := by decide +kernel
  cases h : releaseDirectoryDigest Sha256.hash sampleRelease with
  | error e =>
    rw [h] at hok
    cases hok
  | ok text =>
    obtain ⟨horder, hbinding⟩ := releaseDirectoryDigest_binds h
    have h' := horder _ hlisted
    exact ⟨hlisted, text, rfl, h', hbinding _ h' (.of_nodup_map (by decide +kernel))⟩

end ProofboundRuntime.Accept
