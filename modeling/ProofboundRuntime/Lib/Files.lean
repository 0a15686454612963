import ProofboundRuntime.Lib.Path
import ProofboundRuntime.Lib.Program

/-!
# File operations that may fail

Programs over the operations of a file system that publish a file: create it under
a fresh name, write, sync, link and remove.  An entry of a directory is found by
the components of the directory's path and its name.

Which operations fail is a parameter: `Faults` says it for the label of each
operation in the program, and how much of a failed write reaches the file.  A file
that the program has created can always be removed.

`Staged` describes the disk between the creation of a temporary file and its
removal.
-/

namespace ProofboundRuntime.Files

open Program

/-- A directory and a name in it. -/
abbrev Location := List Path.Component × List UInt8

inductive Entry where
  | file (bytes : List UInt8)
  | symlink (target : List UInt8)
  | directory
deriving DecidableEq

/-- `ErrorKind`, as far as it is looked at. -/
inductive IoError where
  | notFound
  | alreadyExists
  | other
deriving DecidableEq

/-- The operations, each with its label.  A path that names no entry has no
location. -/
inductive Call (Label : Type) where
  | symlinkMetadata (label : Label) (path : Option Location)
  | createNew (label : Label) (path : Location)
  | writeAll (label : Label) (path : Location) (bytes : List UInt8)
  | syncAll (label : Label) (path : Location)
  | hardLink (label : Label) (source : Location) (target : Option Location)
  | openDirectory (label : Label) (path : List Path.Component)
  | syncDirectory (label : Label)
  | removeFile (label : Label) (path : Location)

abbrev Answer {Label : Type} (_ : Call Label) : Type := Except IoError Unit

/-- A program over the operations. -/
abbrev FileProgram (Label : Type) := Program (Call Label) Answer

/-- `missing` says that nothing is found at a path that names no entry. -/
structure Faults (Label : Type) where
  fails : Label → Bool
  written : Label → Nat
  missing : Label → Bool

/-- The entries, and the names that the program has made. -/
structure Disk where
  entries : Location → Option Entry
  created : List Location

namespace Disk

/-- The start of a program. -/
def start (entries : Location → Option Entry) : Disk := ⟨entries, []⟩

def put (disk : Disk) (path : Location) (entry : Option Entry) : Disk :=
  { disk with entries := Function.update disk.entries path entry }

def create (disk : Disk) (path : Location) (entry : Option Entry) : Disk where
  entries := Function.update disk.entries path entry
  created := path :: disk.created

@[simp] theorem put_created (disk : Disk) (path : Location) (entry : Option Entry) :
    (disk.put path entry).created = disk.created := rfl

@[simp] theorem create_created (disk : Disk) (path : Location) (entry : Option Entry) :
    (disk.create path entry).created = path :: disk.created := rfl

theorem put_entries (disk : Disk) (path : Location) (entry : Option Entry) :
    (disk.put path entry).entries = Function.update disk.entries path entry := rfl

theorem create_entries (disk : Disk) (path : Location) (entry : Option Entry) :
    (disk.create path entry).entries = Function.update disk.entries path entry := rfl

@[simp] theorem put_entries_self (disk : Disk) (path : Location) (entry : Option Entry) :
    (disk.put path entry).entries path = entry := by
  simp [put]

theorem put_entries_of_ne (disk : Disk) {path path' : Location} (entry : Option Entry)
    (h : path' ≠ path) : (disk.put path entry).entries path' = disk.entries path' := by
  simp [put, h]

@[simp] theorem create_entries_self (disk : Disk) (path : Location) (entry : Option Entry) :
    (disk.create path entry).entries path = entry := by
  simp [create]

theorem create_entries_of_ne (disk : Disk) {path path' : Location} (entry : Option Entry)
    (h : path' ≠ path) : (disk.create path entry).entries path' = disk.entries path' := by
  simp [create, h]

end Disk

variable {Label : Type}

/-- What an operation answers and does.  There is no directory with the empty
path. -/
def handle (faults : Faults Label) (disk : Disk) : (c : Call Label) → Answer c × Disk
  | .symlinkMetadata label path =>
    if faults.fails label then (.error .other, disk)
    else match path with
      | none => (if faults.missing label then .error .notFound else .ok (), disk)
      | some path =>
        match disk.entries path with
        | none => (.error .notFound, disk)
        | some _ => (.ok (), disk)
  | .createNew label path =>
    if faults.fails label then (.error .other, disk)
    else match disk.entries path with
      | none => (.ok (), disk.create path (some (.file [])))
      | some _ => (.error .alreadyExists, disk)
  | .writeAll label path bytes =>
    if faults.fails label then
      (.error .other, disk.put path (some (.file (bytes.take (faults.written label)))))
    else (.ok (), disk.put path (some (.file bytes)))
  | .syncAll label _ => (if faults.fails label then .error .other else .ok (), disk)
  | .hardLink label source target =>
    if faults.fails label then (.error .other, disk)
    else match target with
      | none => (.error (if faults.missing label then .notFound else .alreadyExists), disk)
      | some target =>
        match disk.entries target with
        | none => (.ok (), disk.create target (disk.entries source))
        | some _ => (.error .alreadyExists, disk)
  | .openDirectory label path =>
    (if faults.fails label ∨ path = [] then .error .other else .ok (), disk)
  | .syncDirectory label => (if faults.fails label then .error .other else .ok (), disk)
  | .removeFile label path =>
    match disk.entries path with
    | none => (.error .notFound, disk)
    | some .directory => (.error .other, disk)
    | some _ =>
      if path ∉ disk.created ∧ faults.fails label then (.error .other, disk)
      else (.ok (), disk.put path none)

/-- `map_err(|_| error)?`. -/
def expect {ε : Type} (error : ε) : Except IoError Unit → FileProgram Label ε Unit
  | .ok () => pure ()
  | .error _ => fail error

section

variable {ε β : Type} {faults : Faults Label} {disk : Disk} {error : ε}
  {f : Unit → FileProgram Label ε β}

@[simp] theorem run_expect_ok :
    run (handle faults) (expect error (.ok ())) disk = (.ok (), disk) := rfl

@[simp] theorem run_expect_error (e : IoError) :
    run (handle faults) (expect error (.error e)) disk = (.error error, disk) := rfl

@[simp] theorem run_expect_ok_bind :
    run (handle faults) (expect error (.ok ()) >>= f) disk = run (handle faults) (f ()) disk := rfl

@[simp] theorem run_expect_error_bind (e : IoError) :
    run (handle faults) (expect error (.error e) >>= f) disk = (.error error, disk) := rfl

variable {J : Disk → Prop} {Q : Except ε Unit → Disk → Prop} {R : Except ε β → Disk → Prop}

@[simp] theorem throughout_expect_ok :
    Throughout (handle faults) J Q (expect error (.ok ())) disk ↔ J disk ∧ Q (.ok ()) disk :=
  throughout_pure ()

@[simp] theorem throughout_expect_error (e : IoError) :
    Throughout (handle faults) J Q (expect error (.error e)) disk ↔
      J disk ∧ Q (.error error) disk :=
  throughout_fail error

@[simp] theorem throughout_expect_ok_bind :
    Throughout (handle faults) J R (expect error (.ok ()) >>= f) disk ↔
      Throughout (handle faults) J R (f ()) disk := Iff.rfl

@[simp] theorem throughout_expect_error_bind (e : IoError) :
    Throughout (handle faults) J R (expect error (.error e) >>= f) disk ↔
      J disk ∧ R (.error error) disk :=
  throughout_fail error

end

section Staged

variable {base : Location → Option Entry} {temporary target : Location} {content bytes : List UInt8}
  {disk : Disk}

/-- The program has created the temporary file; all else is as in `base`. -/
structure Staged (base : Location → Option Entry) (temporary : Location) (content : List UInt8)
    (disk : Disk) : Prop where
  file : disk.entries temporary = some (.file content)
  own : temporary ∈ disk.created
  others : ∀ path, path ≠ temporary → disk.entries path = base path

theorem Staged.create (disk : Disk) (temporary : Location) :
    Staged disk.entries temporary [] (disk.create temporary (some (.file []))) where
  file := disk.create_entries_self temporary _
  own := List.mem_cons_self
  others _ hne := disk.create_entries_of_ne _ hne

theorem Staged.write (h : Staged base temporary content disk) (bytes : List UInt8) :
    Staged base temporary bytes (disk.put temporary (some (.file bytes))) where
  file := disk.put_entries_self temporary _
  own := h.own
  others path hne := by rw [disk.put_entries_of_ne _ hne, h.others path hne]

/-- A link to the temporary file is one more entry. -/
theorem Staged.link (h : Staged base temporary content disk) (hne : target ≠ temporary) :
    Staged (Function.update base target (some (.file content))) temporary content
      (disk.create target (disk.entries temporary)) where
  file := by rw [disk.create_entries_of_ne _ hne.symm, h.file]
  own := List.mem_cons_of_mem target h.own
  others path hpath := by
    by_cases htarget : path = target
    · subst htarget
      rw [disk.create_entries_self, h.file, Function.update_self]
    · rw [disk.create_entries_of_ne _ htarget, h.others path hpath,
        Function.update_of_ne htarget]

/-- Removing the temporary file leaves what there was without it. -/
theorem Staged.remove (h : Staged base temporary content disk) (habsent : base temporary = none)
    (faults : Faults Label) (label : Label) :
    handle faults disk (.removeFile label temporary) = (.ok (), disk.put temporary none) ∧
      (disk.put temporary none).entries = base := by
  refine ⟨by simp [handle, h.file, h.own], funext fun path => ?_⟩
  by_cases hpath : path = temporary
  · subst hpath
    rw [disk.put_entries_self, habsent]
  · rw [disk.put_entries_of_ne _ hpath, h.others path hpath]

end Staged

end ProofboundRuntime.Files
