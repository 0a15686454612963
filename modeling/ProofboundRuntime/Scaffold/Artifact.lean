import ProofboundRuntime.Core.Identity
import ProofboundRuntime.Scaffold.Symlinks

/-!
# Artifacts

`inspect_artifact` of `scaffold.rs`, on a file system that does not change: what the source
reads of a file twice, to see whether it has changed, is read once.
-/

namespace ProofboundRuntime.Scaffold

open Result FileTree
open ProofboundRuntime.Core (Sha256Digest)
open ProofboundRuntime.Path (Component components isAbsolute)

/-- A regular file. -/
structure File where
  readable : Bool
  bytes : List UInt8
  mode : Nat
deriving DecidableEq

/-- The system around the program, and its hash function. -/
structure Environment where
  host : Host File
  /-- A link has a target, and its target is a path that the system takes. -/
  links : host.tree.EachLink fun target => target ≠ [] ∧ target.length < pathMax
  /-- `ldconfig -p` at this path: whether it succeeds, and what it writes. -/
  ldconfig : String → Option (Bool × List UInt8)
  sha256 : List UInt8 → Sha256Digest

/-- `MAX_FILE_BYTES`. -/
def maxFileBytes : Nat := 64 * 1024 * 1024

/-- `MAX_TOTAL_BYTES`. -/
def maxTotalBytes : Nat := 512 * 1024 * 1024

structure Artifact where
  requested : String
  resolved : String
  sha256 : String
  sizeBytes : Nat
  mode : String
  symlinkChain : List SymlinkHop
deriving DecidableEq

/-- `{:04o}` of the mode bits. -/
def modeText (mode : Nat) : String :=
  Ascii.text ([mode / 512 % 8, mode / 64 % 8, mode / 8 % 8, mode % 8].map fun digit =>
    UInt8.ofNat (0x30 + digit))

def digestText (digest : Sha256Digest) : String := "sha256:" ++ Hex.text digest.toList

namespace Environment

variable (env : Environment)

/-- `fs::metadata` of a path succeeds. -/
def hasMetadata (path : List UInt8) : Bool :=
  path ≠ [] && path.length < pathMax &&
    (resolve env.host.tree linkLimit (start path env.host.workingDirectory) (parts path)).isSome

/-- The regular file at an absolute path that can be opened. -/
def openFile (names : List Name) : Option File :=
  if (pathBytes names).length < pathMax then
    match (env.host.locate (absolute names)).bind fun result => env.host.tree.lookup result.1 with
    | some (.file file) => if file.readable then some file else none
    | _ => none
  else none

/-- `inspect_artifact`; the number is that of the bytes read so far. -/
def inspectArtifact (requested : List UInt8) (executable : Bool) (bytesRead : Nat) :
    Except ScaffoldError ((Artifact × List UInt8) × Nat) := do
  rejectIf (isAbsolute requested = false ∨ ((components requested).any fun component =>
    component == .parentDir || component == .curDir) = true) .executablePathInvalid
  let (names, symlinkChain) ← resolveSymlinks env.host requested
  let file ← okOr (env.openFile names) .executableReadFailed
  rejectIf (maxFileBytes < file.bytes.length ∨ (executable = true ∧ file.mode &&& 0o111 = 0))
    .executableReadFailed
  let bytesRead := bytesRead + file.bytes.length
  rejectIf (maxTotalBytes < bytesRead) .boundExceeded
  let requestedText ← pathText requested
  let resolved ← pathText (pathBytes names)
  pure ((⟨requestedText, resolved, digestText (env.sha256 file.bytes), file.bytes.length,
    modeText (file.mode % 0o10000), symlinkChain⟩, file.bytes), bytesRead)

variable {env} {requested bytes : List UInt8} {executable : Bool} {bytesRead total : Nat}
  {artifact : Artifact}

/-- What an inspection finds, whatever was read before. -/
structure Inspects (env : Environment) (requested : List UInt8) (executable : Bool)
    (artifact : Artifact) (names : List FileTree.Name) (file : File) : Prop where
  absolute : isAbsolute requested = true
  noDots : ((components requested).any fun component =>
    component == .parentDir || component == .curDir) = false
  resolves : resolveSymlinks env.host requested = .ok (names, artifact.symlinkChain)
  opens : env.openFile names = some file
  fits : file.bytes.length ≤ maxFileBytes
  executes : executable = true → file.mode &&& 0o111 ≠ 0
  requested : pathText requested = .ok artifact.requested
  resolved : pathText (pathBytes names) = .ok artifact.resolved
  sha256 : artifact.sha256 = digestText (env.sha256 file.bytes)
  sizeBytes : artifact.sizeBytes = file.bytes.length
  mode : artifact.mode = modeText (file.mode % 0o10000)

theorem inspectArtifact_eq_ok :
    env.inspectArtifact requested executable bytesRead = .ok ((artifact, bytes), total) ↔
      ∃ names file, Inspects env requested executable artifact names file ∧ file.bytes = bytes ∧
        total = bytesRead + bytes.length ∧ total ≤ maxTotalBytes := by
  rw [inspectArtifact, check_bind_eq_ok, rejectIf_eq_ok, not_or, Bool.not_eq_false,
    Bool.not_eq_true]
  constructor
  · intro ⟨⟨habsolute, hdots⟩, h⟩
    obtain ⟨⟨names, chain⟩, hresolve, h⟩ := bind_eq_ok.mp h
    obtain ⟨file, hfile, h⟩ := bind_eq_ok.mp h
    obtain ⟨hsize, h⟩ := check_bind_eq_ok.mp h
    obtain ⟨htotal, h⟩ := check_bind_eq_ok.mp h
    obtain ⟨text, htext, h⟩ := bind_eq_ok.mp h
    obtain ⟨resolved, hresolved, h⟩ := bind_eq_ok.mp h
    cases pure_eq_ok.mp h
    rw [rejectIf_eq_ok, not_or, not_lt, not_and] at hsize
    rw [rejectIf_eq_ok, not_lt] at htotal
    exact ⟨names, file, ⟨habsolute, hdots, hresolve, okOr_eq_ok.mp hfile, hsize.1, hsize.2, htext,
      hresolved, rfl, rfl, rfl⟩, rfl, rfl, htotal⟩
  · intro ⟨names, file, h, hbytes, htotal, hbound⟩
    subst hbytes htotal
    obtain ⟨requestedText, resolved, sha256, sizeBytes, mode, chain⟩ := artifact
    obtain ⟨habsolute, hdots, hresolve, hfile, hfits, hexecutes, htext, hresolved, hsha256, hsize,
      hmode⟩ := h
    dsimp only at hresolve htext hresolved hsha256 hsize hmode
    refine ⟨⟨habsolute, hdots⟩, ?_⟩
    rw [hresolve, ok_bind]
    dsimp only
    rw [hfile, okOr_some, ok_bind, rejectIf_false (not_or.mpr ⟨not_lt.mpr hfits,
      fun hand => hexecutes hand.1 hand.2⟩), ok_bind, rejectIf_false (not_lt.mpr hbound), ok_bind,
      htext, ok_bind, hresolved, ok_bind, hsha256, hsize, hmode]
    rfl

/-- An inspection that succeeds does so before anything was read. -/
theorem inspectArtifact_zero
    (h : env.inspectArtifact requested executable bytesRead = .ok ((artifact, bytes), total)) :
    env.inspectArtifact requested executable 0 = .ok ((artifact, bytes), bytes.length) := by
  obtain ⟨names, file, hfile, hbytes, htotal, hbound⟩ := inspectArtifact_eq_ok.mp h
  refine inspectArtifact_eq_ok.mpr ⟨names, file, hfile, hbytes, (Nat.zero_add _).symm, ?_⟩
  omega

end Environment

end ProofboundRuntime.Scaffold
