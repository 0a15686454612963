import ProofboundRuntime.Lib.Checked
import ProofboundRuntime.Lib.LittleEndian
import ProofboundRuntime.Lib.Words
import ProofboundRuntime.Scaffold.Symlinks

/-!
# The dynamic section of an ELF image

`parse_elf` of `scaffold.rs`: the interpreter, the needed objects and the search paths that
an image declares.  Every sum, product, index and range is the one of the source, on a 64-bit
target with overflow checks: a sum that does not fit stops the parser.  Without the checks the
range up to such a sum is refused (`Checked.unchecked`).
-/

namespace ProofboundRuntime.Scaffold

open Result Checked
open ProofboundRuntime.Path (isAbsolute)

inductive Architecture where
  | x86_64
  | aarch64
deriving DecidableEq

/-- `MAX_STRING_TABLE_BYTES`. -/
def maxStringTableBytes : Nat := 8 * 1024 * 1024

/-- `ELF_HEADER_BYTES`. -/
def elfHeaderBytes : Nat := 64

/-- `PROGRAM_HEADER_BYTES`. -/
def programHeaderBytes : Nat := 56

structure DynamicInfo where
  interpreter : Option String
  needed : List String
  rpath : List String
  runpath : List String
  unsupportedTokens : List String
deriving DecidableEq

/-- `DynamicInfo::default`, with the interpreter. -/
def DynamicInfo.static (interpreter : Option String) : DynamicInfo := ⟨interpreter, [], [], [], []⟩

structure LoadSegment where
  offset : Nat
  virtualAddress : Nat
  fileBytes : Nat
deriving DecidableEq

abbrev Outcome (α : Type) := Except (Fault ScaffoldError) α

/-- `read_u16`, `read_u32` and `read_u64`. -/
def readLe (width : Nat) (bytes : List UInt8) (offset : Nat) : Outcome Nat := do
  let value ← slice bytes offset width .elfInvalid
  let value ← indexTo value width
  pure (LittleEndian.ofBytes value)

def readU16 : List UInt8 → Nat → Outcome Nat := readLe 2

def readU32 : List UInt8 → Nat → Outcome Nat := readLe 4

def readU64 : List UInt8 → Nat → Outcome Nat := readLe 8

/-! ## Program headers -/

/-- What the loop over the program headers collects. -/
structure Segments where
  interpreter : Option String
  dynamic : Option (Nat × Nat)
  loads : List LoadSegment
deriving DecidableEq

/-- The text of `PT_INTERP`. -/
def interpreterText (bytes : List UInt8) (offset size : Nat) : Outcome String := do
  let raw ← slice bytes offset size .elfInvalid
  lift (rejectIf (raw.getLast? ≠ some 0) .elfInvalid)
  let text := raw.dropLast
  lift (rejectIf (text = [] ∨ 0 ∈ text) .elfInvalid)
  let text ← lift (okOr (Utf8.fromUtf8 text) .elfInvalid)
  lift (rejectIf (isAbsolute (Utf8.bytes text) = false) .elfInvalid)
  pure text

/-- One program header. -/
def readSegment (bytes table : List UInt8) (entrySize : Nat) (segments : Segments) (index : Nat) :
    Outcome Segments := do
  let start ← mul index entrySize .elfInvalid
  let entry ← slice table start programHeaderBytes .elfInvalid
  let kind ← readU32 entry 0
  if kind = 1 then do
    let offset ← readU64 entry 8
    let virtualAddress ← readU64 entry 16
    let fileBytes ← readU64 entry 32
    pure { segments with loads := segments.loads ++ [⟨offset, virtualAddress, fileBytes⟩] }
  else if kind = 2 then do
    lift (rejectIf (segments.dynamic.isSome = true) .elfDynamicInvalid)
    let offset ← readU64 entry 8
    let size ← readU64 entry 32
    pure { segments with dynamic := some (offset, size) }
  else if kind = 3 then do
    lift (rejectIf (segments.interpreter.isSome = true) .elfInvalid)
    let offset ← readU64 entry 8
    let size ← readU64 entry 32
    let text ← interpreterText bytes offset size
    pure { segments with interpreter := some text }
  else pure segments

/-! ## The dynamic section -/

/-- What the loop over the dynamic section collects. -/
structure Tags where
  stringAddress : Option Nat
  stringSize : Option Nat
  needed : List Nat
  rpath : Option Nat
  runpath : Option Nat
deriving DecidableEq

/-- An entry of the section that is not null. -/
def Tags.add (tags : Tags) (tag value : Nat) : Tags :=
  if tag = 1 then { tags with needed := tags.needed ++ [value] }
  else if tag = 5 then { tags with stringAddress := some value }
  else if tag = 10 then { tags with stringSize := some value }
  else if tag = 15 then { tags with rpath := some value }
  else if tag = 29 then { tags with runpath := some value }
  else tags

/-- The loop over so many chunks of 16 bytes; it ends at a null entry. -/
def readTags (entries : List UInt8) : Nat → Nat → Tags → Outcome Tags
  | 0, _, tags => .ok tags
  | count + 1, start, tags => do
    let entry := (entries.drop start).take 16
    let tag ← readU64 entry 0
    let value ← readU64 entry 8
    if tag = 0 then pure tags else readTags entries count (start + 16) (tags.add tag value)

/-- The place in the file of an address, if the segment holds it; both sums are `checked_add`. -/
def LoadSegment.fileOffset (address : Nat) (segment : LoadSegment) : Option Nat :=
  let stop := segment.virtualAddress + segment.fileBytes
  let offset := segment.offset + (address - segment.virtualAddress)
  if stop < 2 ^ 64 ∧ segment.virtualAddress ≤ address ∧ address < stop ∧ offset < 2 ^ 64 then
    some offset
  else none

def dynamicString (strings : List UInt8) (offset : Nat) : Outcome String := do
  lift (rejectIf (strings.length < offset) .elfDynamicInvalid)
  let tail := strings.drop offset
  let stop ← lift (okOr (tail.findIdx? (· == 0)) .elfDynamicInvalid)
  lift (rejectIf (stop = 0) .elfDynamicInvalid)
  let text ← indexTo tail stop
  lift (okOr (Utf8.fromUtf8 text) .elfDynamicInvalid)

/-- `str::split(':')`, without empty entries. -/
def searchEntries (text : String) : List String :=
  ((text.toList.splitOn ':').filter (· ≠ [])).map String.ofList

def dynamicPaths (strings : List UInt8) (offset : Nat) : Outcome (List String) := do
  let text ← dynamicString strings offset
  pure (searchEntries text)

/-- The paths of an entry of the section, if it has one. -/
def optionalPaths (strings : List UInt8) (offset : Option Nat) : Outcome (List String) :=
  match offset with
  | none => pure []
  | some offset => dynamicPaths strings offset

/-- The text still has a dollar sign when `$ORIGIN` is taken out. -/
def isUnsupported (path : String) : Bool :=
  let stripped := Words.replace (Words.replace path "$\x7bORIGIN\x7d" "") "$ORIGIN" ""
  stripped.toList.contains '$'

/-- The table of strings. -/
def stringTable (bytes : List UInt8) (loads : List LoadSegment) (tags : Tags) :
    Outcome (List UInt8) := do
  let stringAddress ← lift (okOr tags.stringAddress .elfDynamicInvalid)
  let stringSize ← lift (okOr tags.stringSize .elfDynamicInvalid)
  lift (rejectIf (stringSize = 0 ∨ maxStringTableBytes < stringSize) .elfDynamicInvalid)
  let stringOffset ← lift (okOr (loads.findSome? (LoadSegment.fileOffset stringAddress))
    .elfDynamicInvalid)
  slice bytes stringOffset stringSize .elfDynamicInvalid

/-- The section at this place. -/
def parseDynamic (bytes : List UInt8) (segments : Segments) (start size : Nat) :
    Outcome DynamicInfo := do
  lift (rejectIf (size % 16 ≠ 0 ∨ maxStringTableBytes < size) .elfDynamicInvalid)
  let entries ← slice bytes start size .elfDynamicInvalid
  let tags ← readTags entries (size / 16) 0 ⟨none, none, [], none, none⟩
  let strings ← stringTable bytes segments.loads tags
  let needed ← collect (dynamicString strings) tags.needed
  lift (rejectIf ((needed.any fun name => name.toList.contains '/') = true) .elfDynamicInvalid)
  let rpath ← optionalPaths strings tags.rpath
  let runpath ← optionalPaths strings tags.runpath
  pure ⟨segments.interpreter, needed, rpath, runpath, (rpath ++ runpath).filter isUnsupported⟩

def expectedMachine : Architecture → Nat
  | .x86_64 => 62
  | .aarch64 => 183

/-- The table of program headers, at its place, and the dynamic section. -/
def parseTable (bytes : List UInt8) (tableOffset entrySize entryCount : Nat) :
    Outcome DynamicInfo := do
  let table ← slice bytes tableOffset (entrySize * entryCount) .elfInvalid
  let segments ← (List.range entryCount).foldlM (readSegment bytes table entrySize) ⟨none, none, []⟩
  match segments.dynamic with
  | none => pure (.static segments.interpreter)
  | some (start, size) => parseDynamic bytes segments start size

def parseElf (bytes : List UInt8) (architecture : Architecture) : Outcome DynamicInfo := do
  lift (rejectIf (bytes.length < elfHeaderBytes) .elfInvalid)
  let header := bytes.take elfHeaderBytes
  let headerSize ← readU16 header 52
  let entrySize ← readU16 header 54
  lift (rejectIf (header.take 7 ≠ [0x7f, 0x45, 0x4c, 0x46, 2, 1, 1] ∨
    headerSize ≠ elfHeaderBytes ∨ entrySize < programHeaderBytes) .elfInvalid)
  let machine ← readU16 header 18
  lift (rejectIf (machine ≠ expectedMachine architecture) .elfArchitectureMismatch)
  let tableOffset ← readU64 header 32
  let entryCount ← readU16 header 56
  -- `checked_mul`
  lift (rejectIf (maxStringTableBytes < entrySize * entryCount) .boundExceeded)
  parseTable bytes tableOffset entrySize entryCount

end ProofboundRuntime.Scaffold
