import ProofboundRuntime.Lib.LittleEndian
import ProofboundRuntime.Lib.Path
import ProofboundRuntime.Core.Receipt

/-!
# The interpreter of an ELF image

The two readers of the `PT_INTERP` path (`resolve.rs`): `parse_elf_interpreter`
takes slices of an image in memory, and `read_elf_interpreter` reads a file at
positions.  The kernel may answer a positioned read with fewer bytes than asked
for; how many is the parameter `short`.

The two agree on every image but one kind (`readElfInterpreter_agrees_iff`): when
the program-header table has no entries, the second reader reads no bytes of it
and so does not see that the table starts behind the end of the file.
-/

namespace ProofboundRuntime.Linux

open ProofboundRuntime.Core Result

inductive ResolutionError where
  | unsupportedOperatingSystem
  | rootUnavailable
  | pathEscapesRoot
  | externalPathInvalid
  | externalRoleInvalid
  | openat2Unavailable
  | pathUnavailable
  | symlinkInvalid
  | forbiddenFileKind
  | executableModeMissing
  | artifactRoleMismatch
  | identityMismatch
  | identityDrift
  | identityUnavailable
  | elfMalformed
  | elfArchitectureMismatch
  | elfInterpreterInvalid
  | loaderIdentityMissing
  | loaderIdentityUnexpected
deriving DecidableEq

/-- `ELF_HEADER_SIZE`. -/
def elfHeaderSize : Nat := 64

/-- `ELF_PROGRAM_HEADER_SIZE`. -/
def elfProgramHeaderSize : Nat := 56

/-- `ELF_INTERPRETER_MAX`. -/
def elfInterpreterMax : Nat := 4096

/-- `ELF_PROGRAM_INTERPRETER`. -/
def elfProgramInterpreter : Nat := 3

/-- `ELF_MACHINE_X86_64` and `ELF_MACHINE_AARCH64`. -/
def elfMachine : Architecture → Nat
  | .x86_64 => 62
  | .aarch64 => 183

/-- The contents of a file.  A size is an `off_t`, and a slice is at most
`isize::MAX` long. -/
structure Image where
  bytes : List UInt8
  length_lt : bytes.length < 2 ^ 63

/-! ## Slices -/

/-- `bytes.get(start..stop)`. -/
def getRange (bytes : List UInt8) (start stop : Nat) : Option (List UInt8) :=
  if start ≤ stop ∧ stop ≤ bytes.length then some ((bytes.drop start).take (stop - start)) else none

/-- `read_u16`, `read_u32` and `read_u64`. -/
def readLe (width : Nat) (bytes : List UInt8) (offset : Nat) : Except ResolutionError Nat := do
  let value ← okOr (getRange bytes offset (offset + width)) .elfMalformed
  pure (LittleEndian.ofBytes value)

def readU16 : List UInt8 → Nat → Except ResolutionError Nat := readLe 2

def readU32 : List UInt8 → Nat → Except ResolutionError Nat := readLe 4

def readU64 : List UInt8 → Nat → Except ResolutionError Nat := readLe 8

/-- The result of a checked operation on `usize`. -/
def checked (n : Nat) : Option Nat := if n < 2 ^ 64 then some n else none

/-! ## The parts of an image -/

structure ElfLayout where
  tableOffset : Nat
  entrySize : Nat
  entryCount : Nat
deriving DecidableEq

/-- `parse_elf_layout`: class 64, little endian, version 1. -/
def parseElfLayout (header : List UInt8) (architecture : Architecture) :
    Except ResolutionError ElfLayout := do
  rejectIf (header.length ≠ elfHeaderSize ∨ header.take 4 ≠ [0x7f, 0x45, 0x4c, 0x46] ∨
    header[4]? ≠ some 2 ∨ header[5]? ≠ some 1 ∨ header[6]? ≠ some 1) .elfMalformed
  let headerSize ← readU16 header 52
  rejectIf (headerSize ≠ elfHeaderSize) .elfMalformed
  let machine ← readU16 header 18
  rejectIf (machine ≠ elfMachine architecture) .elfArchitectureMismatch
  let entrySize ← readU16 header 54
  rejectIf (entrySize < elfProgramHeaderSize) .elfMalformed
  let tableOffset ← readU64 header 32
  let entryCount ← readU16 header 56
  pure ⟨tableOffset, entrySize, entryCount⟩

/-- The loop of `interpreter_segment` over the indices that are left. -/
def segmentLoop (table : List UInt8) (entrySize : Nat) :
    List Nat → Option (Nat × Nat) → Except ResolutionError (Option (Nat × Nat))
  | [], interpreter => .ok interpreter
  | index :: indices, interpreter => do
    let start ← okOr (checked (index * entrySize)) .elfMalformed
    let entry ← okOr (getRange table start (start + elfProgramHeaderSize)) .elfMalformed
    let kind ← readU32 entry 0
    if kind = elfProgramInterpreter then do
      rejectIf (interpreter.isSome = true) .elfInterpreterInvalid
      let offset ← readU64 entry 8
      let size ← readU64 entry 32
      rejectIf (¬(2 ≤ size ∧ size ≤ elfInterpreterMax)) .elfInterpreterInvalid
      segmentLoop table entrySize indices (some (offset, size))
    else segmentLoop table entrySize indices interpreter

/-- `interpreter_segment`. -/
def interpreterSegment (table : List UInt8) (entrySize entryCount : Nat) :
    Except ResolutionError (Option (Nat × Nat)) :=
  segmentLoop table entrySize (List.range entryCount) none

/-- `require_canonical_absolute_path`. -/
def requireCanonicalAbsolutePath (path : String) : Except ResolutionError Unit :=
  rejectIf (Path.isAbsolute (Utf8.bytes path) = false ∨
    ((Path.components (Utf8.bytes path)).any fun component =>
      component == .parentDir || component == .curDir) = true) .externalPathInvalid

/-- `parse_interpreter_bytes`. -/
def parseInterpreterBytes (bytes : List UInt8) : Except ResolutionError String := do
  rejectIf (bytes.getLast? ≠ some 0) .elfInterpreterInvalid
  let path := bytes.dropLast
  rejectIf (path = [] ∨ path.contains 0 = true) .elfInterpreterInvalid
  let text ← okOr (Utf8.fromUtf8 path) .elfInterpreterInvalid
  (requireCanonicalAbsolutePath text).mapError fun _ => .elfInterpreterInvalid
  pure text

/-! ## The readers -/

/-- `parse_elf_interpreter`. -/
def parseElfInterpreter (image : Image) (architecture : Architecture) :
    Except ResolutionError (Option String) := do
  let header ← okOr (getRange image.bytes 0 elfHeaderSize) .elfMalformed
  let layout ← parseElfLayout header architecture
  let tableSize ← okOr (checked (layout.entrySize * layout.entryCount)) .elfMalformed
  let tableEnd ← okOr (checked (layout.tableOffset + tableSize)) .elfMalformed
  let table ← okOr (getRange image.bytes layout.tableOffset tableEnd) .elfMalformed
  let segment ← interpreterSegment table layout.entrySize layout.entryCount
  match segment with
  | none => pure none
  | some (offset, size) => do
    let stop ← okOr (checked (offset + size)) .elfInterpreterInvalid
    let bytes ← okOr (getRange image.bytes offset stop) .elfInterpreterInvalid
    let path ← parseInterpreterBytes bytes
    pure (some path)

/-- `pread`: an offset that is not an `off_t` is an error, at the end of the file
there are no bytes, and before it at least one of those asked for. -/
def readAt (image : Image) (short : Nat → Nat → Nat) (size offset : Nat) : Except Unit (List UInt8) :=
  if 2 ^ 63 ≤ offset then .error ()
  else .ok ((image.bytes.drop offset).take (min size (max 1 (short size offset))))

/-- The loop of `read_exact_at`, with the bytes that are missing.  Every turn reads
at least one byte, so their number is enough fuel. -/
def readExactLoop (image : Image) (short : Nat → Nat → Nat) :
    (fuel size offset : Nat) → Except Unit (List UInt8)
  | 0, size, _ => if size = 0 then .ok [] else .error ()
  | fuel + 1, size, offset =>
    if size = 0 then .ok []
    else do
      let bytes ← readAt image short size offset
      rejectIf (bytes = []) ()
      let rest ← readExactLoop image short fuel (size - bytes.length) (offset + bytes.length)
      pure (bytes ++ rest)

/-- `read_exact_at`. -/
def readExactAt (image : Image) (short : Nat → Nat → Nat) (size offset : Nat) :
    Except Unit (List UInt8) :=
  readExactLoop image short size size offset

/-- `read_elf_interpreter`, on the opened file. -/
def readElfInterpreter (image : Image) (short : Nat → Nat → Nat) (architecture : Architecture) :
    Except ResolutionError (Option String) := do
  let header ← (readExactAt image short elfHeaderSize 0).mapError fun _ => .elfMalformed
  let layout ← parseElfLayout header architecture
  let tableSize ← okOr ((checked (layout.entrySize * layout.entryCount)).filter
    fun size => size ≤ 1024 * 1024) .elfMalformed
  let table ← (readExactAt image short tableSize layout.tableOffset).mapError
    fun _ => .elfMalformed
  let segment ← interpreterSegment table layout.entrySize layout.entryCount
  match segment with
  | none => pure none
  | some (offset, size) => do
    let bytes ← (readExactAt image short size offset).mapError fun _ => .elfInterpreterInvalid
    let path ← parseInterpreterBytes bytes
    pure (some path)

/-! ## Positioned reads are slices -/

theorem getRange_eq_none {bytes : List UInt8} {start stop : Nat} (h : bytes.length < stop) :
    getRange bytes start stop = none :=
  if_neg fun hboth => by omega

theorem getRange_add {bytes : List UInt8} {start size : Nat} (h : start + size ≤ bytes.length) :
    getRange bytes start (start + size) = some ((bytes.drop start).take size) := by
  rw [getRange, if_pos ⟨Nat.le_add_right start size, h⟩, Nat.add_sub_cancel_left]

/-- A slice that is read in two parts. -/
theorem getRange_append (bytes : List UInt8) (start : Nat) {first size : Nat}
    (hfirst : first ≤ size) :
    getRange bytes start (start + size) =
      (getRange bytes (start + first) (start + first + (size - first))).map
        ((bytes.drop start).take first ++ ·) := by
  have hstop : start + first + (size - first) = start + size := by omega
  by_cases hlength : start + size ≤ bytes.length
  · rw [getRange_add hlength, getRange_add (by omega), Option.map_some, Option.some.injEq,
      ← List.drop_drop, ← List.take_add, Nat.add_sub_cancel' hfirst]
  · rw [getRange_eq_none (by omega), getRange_eq_none (by omega), Option.map_none]

theorem readExactLoop_zero (image : Image) (short : Nat → Nat → Nat) (fuel offset : Nat) :
    readExactLoop image short fuel 0 offset = .ok [] := by
  cases fuel <;> rfl

/-- However the kernel splits the reads, the loop returns the slice. -/
theorem toOption_readExactLoop (image : Image) (short : Nat → Nat → Nat) {fuel size offset : Nat}
    (hfuel : size ≤ fuel) (hsize : size ≠ 0) :
    (readExactLoop image short fuel size offset).toOption =
      getRange image.bytes offset (offset + size) := by
  have hfile := image.length_lt
  induction fuel generalizing size offset with
  | zero => omega
  | succ fuel ih =>
    rw [readExactLoop, if_neg hsize, readAt]
    by_cases hoffset : 2 ^ 63 ≤ offset
    · rw [if_pos hoffset, getRange_eq_none (by omega)]
      rfl
    rw [if_neg hoffset, ok_bind]
    generalize hchunk : min size (max 1 (short size offset)) = chunk
    have hpos : 1 ≤ chunk := by omega
    have hle : chunk ≤ size := by omega
    -- What is read is the part of the file up to its end.
    have hread : ((image.bytes.drop offset).take chunk).length =
        min chunk (image.bytes.length - offset) := by
      rw [List.length_take, List.length_drop]
    by_cases hend : image.bytes.length ≤ offset
    · rw [List.drop_eq_nil_of_le hend, getRange_eq_none (by omega), List.take_nil]
      rfl
    have hsome : (image.bytes.drop offset).take chunk ≠ [] := by
      apply List.ne_nil_of_length_pos
      omega
    rw [rejectIf_false hsome, ok_bind, toOption_bind]
    have htake : (image.bytes.drop offset).take chunk = (image.bytes.drop offset).take
        ((image.bytes.drop offset).take chunk).length := by
      rw [List.length_take]
      exact List.take_eq_take_min
    have hfirst : ((image.bytes.drop offset).take chunk).length ≤ size := by omega
    rw [getRange_append image.bytes offset hfirst, ← htake]
    by_cases hrest : size - ((image.bytes.drop offset).take chunk).length = 0
    · rw [hrest, readExactLoop_zero, getRange_add (by omega), Option.map_some, List.take_zero]
      rfl
    · rw [ih (by omega) hrest, Option.map_eq_bind]
      rfl

theorem toOption_readExactAt (image : Image) (short : Nat → Nat → Nat) {size : Nat} (offset : Nat)
    (hsize : size ≠ 0) :
    (readExactAt image short size offset).toOption =
      getRange image.bytes offset (offset + size) :=
  toOption_readExactLoop image short le_rfl hsize

/-! ## Where the readers agree -/

theorem checked_eq_some {n m : Nat} : checked n = some m ↔ n < 2 ^ 64 ∧ n = m := by
  rw [checked]
  split <;> simp_all

/-- A slice behind a checked end. -/
theorem checked_bind_getRange (image : Image) (start size : Nat) :
    ((checked (start + size)).bind fun stop => getRange image.bytes start stop) =
      getRange image.bytes start (start + size) := by
  have hfile := image.length_lt
  by_cases hsum : start + size < 2 ^ 64
  · rw [checked, if_pos hsum, Option.bind_some]
  · rw [checked, if_neg hsum, Option.bind_none, getRange_eq_none (by omega)]

/-- A segment that is found has a size in range. -/
theorem size_of_segmentLoop {table : List UInt8} {entrySize : Nat} {indices : List Nat}
    {found : Option (Nat × Nat)} {offset size : Nat}
    (hfound : ∀ segment, found = some segment → segment.2 ≠ 0)
    (h : segmentLoop table entrySize indices found = .ok (some (offset, size))) : size ≠ 0 := by
  induction indices generalizing found with
  | nil =>
    rw [segmentLoop, Except.ok.injEq] at h
    exact hfound (offset, size) h
  | cons index indices ih =>
    simp only [segmentLoop, bind_eq_ok] at h
    obtain ⟨start, -, entry, -, kind, -, h⟩ := h
    split at h
    · simp only [bind_eq_ok, rejectIf_eq_ok, exists_const, not_not] at h
      obtain ⟨-, offset', -, size', -, hsize, h⟩ := h
      refine ih ?_ h
      rintro segment ⟨rfl⟩
      show size' ≠ 0
      omega
    · exact ih hfound h

theorem size_of_interpreterSegment {table : List UInt8} {entrySize entryCount offset size : Nat}
    (h : interpreterSegment table entrySize entryCount = .ok (some (offset, size))) : size ≠ 0 :=
  size_of_segmentLoop (by simp) h

variable {architecture : Architecture}

/-- What `parse_elf_layout` reads in a header. -/
theorem parseElfLayout_eq_ok {header : List UInt8} {layout : ElfLayout}
    (h : parseElfLayout header architecture = .ok layout) :
    header.length = 64 ∧ elfProgramHeaderSize ≤ layout.entrySize ∧
      layout.tableOffset = LittleEndian.ofBytes ((header.drop 32).take 8) ∧
      layout.entryCount = LittleEndian.ofBytes ((header.drop 56).take 2) := by
  simp only [parseElfLayout, readU16, readU64, readLe, bind_eq_ok, rejectIf_eq_ok, okOr_eq_ok,
    pure_eq_ok, exists_const, not_or, not_not, not_lt] at h
  obtain ⟨⟨hlength, -⟩, -, -, -, -, -, -, entrySize, -, hentry, tableOffset, ⟨offset, hoffset, rfl⟩,
    entryCount, ⟨count, hcount, rfl⟩, rfl⟩ := h
  rw [elfHeaderSize] at hlength
  rw [getRange_add (by omega), Option.some.injEq] at hoffset hcount
  exact ⟨hlength, hentry, by rw [hoffset], by rw [hcount]⟩

/-- What both readers do with a table. -/
def readTable (image : Image) (layout : ElfLayout) (table : List UInt8) : Option (Option String) :=
  (interpreterSegment table layout.entrySize layout.entryCount).toOption.bind fun segment =>
    match segment with
    | none => some none
    | some (offset, size) =>
      (getRange image.bytes offset (offset + size)).bind fun bytes =>
        (parseInterpreterBytes bytes).toOption.map some

section Layout

variable {image : Image} {architecture : Architecture} {layout : ElfLayout}

theorem getRange_header (hheader : elfHeaderSize ≤ image.bytes.length) :
    getRange image.bytes 0 elfHeaderSize = some (image.bytes.take elfHeaderSize) := by
  rw [getRange, if_pos ⟨Nat.zero_le _, hheader⟩, List.drop_zero, Nat.sub_zero]

theorem toOption_parseElfInterpreter (hheader : elfHeaderSize ≤ image.bytes.length)
    (hlayout : parseElfLayout (image.bytes.take elfHeaderSize) architecture = .ok layout)
    (htable : layout.entrySize * layout.entryCount ≤ 1024 * 1024) :
    (parseElfInterpreter image architecture).toOption =
      (getRange image.bytes layout.tableOffset
        (layout.tableOffset + layout.entrySize * layout.entryCount)).bind
        (readTable image layout) := by
  have hget := getRange_header hheader
  have hsize : checked (layout.entrySize * layout.entryCount) =
      some (layout.entrySize * layout.entryCount) := if_pos (by omega)
  simp only [parseElfInterpreter, hget, okOr_some, ok_bind, hlayout, hsize, toOption_bind,
    toOption_okOr]
  rw [← Option.bind_assoc, checked_bind_getRange]
  refine congrArg _ (funext fun table => congrArg _ (funext fun segment => ?_))
  match segment with
  | none => rfl
  | some (offset, size) =>
    simp only [toOption_bind, toOption_okOr]
    rw [← Option.bind_assoc, checked_bind_getRange]
    simp only [Option.map_eq_bind]
    rfl

theorem toOption_readElfInterpreter (short : Nat → Nat → Nat)
    (hheader : elfHeaderSize ≤ image.bytes.length)
    (hlayout : parseElfLayout (image.bytes.take elfHeaderSize) architecture = .ok layout)
    (htable : layout.entrySize * layout.entryCount ≤ 1024 * 1024) :
    (readElfInterpreter image short architecture).toOption =
      (readExactAt image short (layout.entrySize * layout.entryCount)
        layout.tableOffset).toOption.bind (readTable image layout) := by
  have hget : (readExactAt image short elfHeaderSize 0).toOption =
      some (image.bytes.take elfHeaderSize) := by
    rw [toOption_readExactAt image short 0 (by decide), getRange_add (by omega), List.drop_zero]
  have hsize : (checked (layout.entrySize * layout.entryCount)).filter
      (fun size => decide (size ≤ 1024 * 1024)) = some (layout.entrySize * layout.entryCount) := by
    rw [checked, if_pos (by omega), Option.filter_some, if_pos (decide_eq_true htable)]
  simp only [readElfInterpreter, toOption_bind, toOption_mapError, toOption_okOr, hget, hsize,
    Option.bind_some, toOption_eq_some.mpr hlayout]
  refine congrArg _ (funext fun table => ?_)
  rw [readTable]
  cases hsegment : interpreterSegment table layout.entrySize layout.entryCount with
  | error e => rfl
  | ok segment =>
    match segment with
    | none => rfl
    | some (offset, size) =>
      -- A found segment is not empty, so that its bytes are a slice.
      have hread := toOption_readExactAt image short offset (size_of_interpreterSegment hsegment)
      rw [toOption_eq_some.mpr rfl, Option.bind_some, Option.bind_some]
      simp only [toOption_bind, toOption_mapError, hread, Option.map_eq_bind]
      rfl

end Layout

/-- The program-header table has no entries and starts behind the end of the file. -/
def EmptyTablePastEnd (image : Image) (architecture : Architecture) : Prop :=
  (parseElfLayout (image.bytes.take elfHeaderSize) architecture).isOk = true ∧
    LittleEndian.ofBytes ((image.bytes.drop 56).take 2) = 0 ∧
    image.bytes.length < LittleEndian.ofBytes ((image.bytes.drop 32).take 8)

instance (image : Image) (architecture : Architecture) :
    Decidable (EmptyTablePastEnd image architecture) :=
  inferInstanceAs (Decidable (_ ∧ _))

theorem emptyTablePastEnd_iff {image : Image} {layout : ElfLayout}
    (hlayout : parseElfLayout (image.bytes.take elfHeaderSize) architecture = .ok layout) :
    EmptyTablePastEnd image architecture ↔
      layout.entryCount = 0 ∧ image.bytes.length < layout.tableOffset := by
  obtain ⟨-, -, hoffset, hcount⟩ := parseElfLayout_eq_ok hlayout
  have hfield (start width : Nat) (h : start + width ≤ elfHeaderSize) :
      ((image.bytes.take elfHeaderSize).drop start).take width =
        (image.bytes.drop start).take width := by
    rw [List.drop_take, List.take_take, Nat.min_eq_left (by omega)]
  rw [hfield 32 8 (by decide)] at hoffset
  rw [hfield 56 2 (by decide)] at hcount
  rw [EmptyTablePastEnd, hlayout, hoffset, hcount]
  simp [Except.isOk, Except.toBool]

theorem EmptyTablePastEnd.exists_layout {image : Image} (h : EmptyTablePastEnd image architecture) :
    ∃ layout, parseElfLayout (image.bytes.take elfHeaderSize) architecture = .ok layout := by
  cases hlayout : parseElfLayout (image.bytes.take elfHeaderSize) architecture with
  | ok layout => exact ⟨layout, rfl⟩
  | error e =>
    rw [EmptyTablePastEnd, hlayout] at h
    cases h.1

/-- The readers agree on an image with a table of at most one mebibyte exactly
when the table is not empty or starts inside the image. -/
theorem readElfInterpreter_agrees_iff (image : Image) (short : Nat → Nat → Nat)
    (architecture : Architecture)
    (htable : ∀ layout, parseElfLayout (image.bytes.take elfHeaderSize) architecture = .ok layout →
      layout.entrySize * layout.entryCount ≤ 1024 * 1024) :
    (readElfInterpreter image short architecture).toOption =
      (parseElfInterpreter image architecture).toOption ↔
      ¬EmptyTablePastEnd image architecture := by
  by_cases hheader : elfHeaderSize ≤ image.bytes.length
  · cases hlayout : parseElfLayout (image.bytes.take elfHeaderSize) architecture with
    | error e =>
      have hnone : ¬EmptyTablePastEnd image architecture := by
        intro hempty
        obtain ⟨layout, hok⟩ := hempty.exists_layout
        simp [hlayout] at hok
      have hfail : (parseElfLayout (image.bytes.take elfHeaderSize) architecture).toOption =
          none := by
        rw [hlayout]
        rfl
      rw [parseElfInterpreter, readElfInterpreter, toOption_bind, toOption_bind, toOption_mapError,
        toOption_readExactAt image short 0 (by decide), toOption_okOr, Nat.zero_add,
        getRange_header hheader, Option.bind_some, Option.bind_some, toOption_bind, toOption_bind,
        hfail, Option.bind_none, Option.bind_none]
      exact iff_of_true rfl hnone
    | ok layout =>
      have hsize := htable layout hlayout
      rw [toOption_readElfInterpreter short hheader hlayout hsize,
        toOption_parseElfInterpreter hheader hlayout hsize, emptyTablePastEnd_iff hlayout]
      obtain ⟨-, hentry, -, -⟩ := parseElfLayout_eq_ok hlayout
      by_cases hcount : layout.entryCount = 0
      · -- Nothing is read of an empty table, wherever it is.
        have hread : (readExactAt image short 0 layout.tableOffset).toOption = some [] := rfl
        have hempty : readTable image layout [] = some none := by
          rw [readTable, hcount]
          rfl
        rw [hcount, Nat.mul_zero, hread, Option.bind_some, hempty]
        by_cases hoffset : layout.tableOffset ≤ image.bytes.length
        · rw [getRange_add hoffset, List.take_zero, Option.bind_some, hempty]
          exact iff_of_true rfl fun hboth => by omega
        · rw [getRange_eq_none (by omega), Option.bind_none]
          refine iff_of_false (fun h => by cases h) ?_
          exact not_not.mpr ⟨rfl, by omega⟩
      · have hne : layout.entrySize * layout.entryCount ≠ 0 := by
          rw [elfProgramHeaderSize] at hentry
          exact Nat.mul_ne_zero (by omega) hcount
        rw [toOption_readExactAt image short layout.tableOffset hne]
        exact iff_of_true rfl fun hboth => hcount hboth.1
  · have hnone : ¬EmptyTablePastEnd image architecture := by
      intro hempty
      obtain ⟨layout, hlayout⟩ := hempty.exists_layout
      have hlength := (parseElfLayout_eq_ok hlayout).1
      rw [List.length_take, elfHeaderSize] at hlength
      rw [elfHeaderSize] at hheader
      omega
    have hfail : getRange image.bytes 0 elfHeaderSize = none := getRange_eq_none (by omega)
    rw [parseElfInterpreter, readElfInterpreter, toOption_bind, toOption_bind, toOption_mapError,
      toOption_readExactAt image short 0 (by decide), toOption_okOr, Nat.zero_add, hfail]
    exact iff_of_true rfl hnone

/-- A header for x86-64 with a table of entries of 56 bytes. -/
def sampleHeader (tableOffset entryCount : Nat) : List UInt8 :=
  [0x7f, 0x45, 0x4c, 0x46, 2, 1, 1] ++ List.replicate 11 0 ++ LittleEndian.toBytes 2 62 ++
    List.replicate 12 0 ++ LittleEndian.toBytes 8 tableOffset ++ List.replicate 12 0 ++
    LittleEndian.toBytes 2 64 ++ LittleEndian.toBytes 2 56 ++ LittleEndian.toBytes 2 entryCount ++
    List.replicate 6 0

/-- An image with the interpreter `/loader`. -/
def sampleImage : Image where
  bytes := sampleHeader 64 1 ++ LittleEndian.toBytes 4 3 ++ List.replicate 4 0 ++
    LittleEndian.toBytes 8 120 ++ List.replicate 16 0 ++ LittleEndian.toBytes 8 8 ++
    List.replicate 16 0 ++ [0x2f, 0x6c, 0x6f, 0x61, 0x64, 0x65, 0x72, 0]
  length_lt := by decide +kernel

theorem readElfInterpreter_agrees_sample :
    (readElfInterpreter sampleImage (fun _ _ => 7) .x86_64).toOption =
      (parseElfInterpreter sampleImage .x86_64).toOption ∧
    parseElfInterpreter sampleImage .x86_64 = .ok (some "/loader") := by
  have hlayout : parseElfLayout (sampleImage.bytes.take elfHeaderSize) .x86_64 =
      .ok ⟨64, 56, 1⟩ := by
    decide +kernel
  refine ⟨(readElfInterpreter_agrees_iff sampleImage (fun _ _ => 7) .x86_64 ?_).mpr
    (by decide +kernel), by decide +kernel⟩
  intro layout h
  rw [hlayout, Except.ok.injEq] at h
  subst h
  decide

/-- An empty table behind the end of the file: one reader finds a static image,
the other rejects it. -/
theorem readElfInterpreter_empty_table :
    let image : Image := ⟨sampleHeader 65 0, by decide⟩
    readElfInterpreter image (fun size _ => size) .x86_64 = .ok none ∧
      parseElfInterpreter image .x86_64 = .error .elfMalformed := by
  decide +kernel

end ProofboundRuntime.Linux
