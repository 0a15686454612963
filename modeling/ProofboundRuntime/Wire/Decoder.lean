import ProofboundRuntime.Lib.Result
import ProofboundRuntime.Lib.Cbor.Value

/-!
# The deterministic CBOR decoder

The producer (`wire_v2.rs`), the verifier (`cbor.rs`), the acceptance engine
(`cbor.rs`) and the composer (`cbor_decode.rs`) each have their own copy of
one decoder.  The copies differ in their errors only: the first two tell
three errors apart and the last two have one.  The decoder is written here
once, over the errors of a crate; the producer's and the verifier's `decode`
are the instances that are modelled.

`usize` is a 64-bit integer.  The recursion of `item` is on the number of
levels that are left, `MAX_DEPTH + 1 - depth`.
-/

namespace ProofboundRuntime.Wire

open Cbor Result

/-- The errors of a decoder. -/
structure Errors (ε : Type) where
  invalid : ε
  nonDeterministic : ε
  limitExceeded : ε

def maxBytes : Nat := 16 * 1024 * 1024
def maxDepth : Nat := 128
def maxItems : Nat := 1000000

/-- The state of a decoder: its input, how much of it has been read and how
many items have been counted. -/
structure Decoder where
  input : List UInt8
  offset : Nat
  items : Nat

/-- `input.get(start..stop)`. -/
def slice (input : List UInt8) (start stop : Nat) : Option (List UInt8) :=
  if start ≤ stop ∧ stop ≤ input.length then
    some ((input.drop start).take (stop - start))
  else none

variable {ε : Type}

/-- The next `length` bytes. -/
def Decoder.take (self : Decoder) (errors : Errors ε) (length : Nat) :
    Except ε (List UInt8 × Decoder) := do
  let stop := self.offset + length
  -- `checked_add`
  rejectIf (2 ^ 64 ≤ stop) errors.limitExceeded
  let value ← okOr (slice self.input self.offset stop) errors.invalid
  pure (value, { self with offset := stop })

/-- The width of an argument and the least argument that needs it. -/
def widthAndMinimum (errors : Errors ε) (additional : UInt8) : Except ε (Nat × Nat) :=
  if additional = 24 then .ok (1, 24)
  else if additional = 25 then .ok (2, 2 ^ 8)
  else if additional = 26 then .ok (4, 2 ^ 16)
  else if additional = 27 then .ok (8, 2 ^ 32)
  else if additional = 31 then .error errors.nonDeterministic
  else .error errors.invalid

/-- The argument of an item. -/
def Decoder.argument (self : Decoder) (errors : Errors ε) (additional : UInt8) :
    Except ε (UInt64 × Decoder) :=
  if additional < 24 then .ok (additional.toUInt64, self)
  else do
    let (width, minimum) ← widthAndMinimum errors additional
    let (bytes, self) ← self.take errors width
    let value := BigEndian.ofBytes bytes
    rejectIf (value < minimum) errors.nonDeterministic
    pure (UInt64.ofNat value, self)

/-- The items without an argument. -/
def simple (errors : Errors ε) (additional : UInt8) : Except ε Value :=
  if additional = 20 then .ok (.bool false)
  else if additional = 21 then .ok (.bool true)
  else if additional = 22 then .ok .null
  else .error errors.invalid

/-- The number of elements or entries. -/
def boundedCount (errors : Errors ε) (value : UInt64) : Except ε Nat := do
  rejectIf (maxItems < value.toNat) errors.limitExceeded
  pure value.toNat

/-- The loop over the elements of an array. -/
def elements (read : Decoder → Except ε (Value × Decoder)) :
    (count : Nat) → Decoder → Except ε (List Value × Decoder)
  | 0, self => .ok ([], self)
  | count + 1, self => do
    let (value, self) ← read self
    let (values, self) ← elements read count self
    pure (value :: values, self)

/-- A key has to be a text string. -/
def keyText (errors : Errors ε) : Value → Except ε String
  | .text key => .ok key
  | _ => .error errors.invalid

/-- The loop over the entries of a map; `previous` is the encoding of the key
before. -/
def entries (errors : Errors ε) (read : Decoder → Except ε (Value × Decoder)) :
    (count : Nat) → (previous : Option (List UInt8)) → Decoder →
      Except ε (List (String × Value) × Decoder)
  | 0, _, self => .ok ([], self)
  | count + 1, previous, self => do
    let keyStart := self.offset
    let (key, self) ← read self
    let key ← keyText errors key
    let keyEncoding ← okOr (slice self.input keyStart self.offset) errors.invalid
    rejectIf (previous.any fun previous => (compare keyEncoding previous).isLE)
      errors.nonDeterministic
    let (value, self) ← read self
    let (values, self) ← entries errors read count (some keyEncoding) self
    pure ((key, value) :: values, self)

/-- A map of `argument` entries. -/
def map (errors : Errors ε) (read : Decoder → Except ε (Value × Decoder))
    (argument : UInt64) (self : Decoder) : Except ε (Value × Decoder) := do
  let count ← boundedCount errors argument
  let (values, self) ← entries errors read count none self
  pure (.map values, self)

/-- What follows the head of an item; `read` reads the items one level further
down. -/
def argumentItem (errors : Errors ε) (read : Decoder → Except ε (Value × Decoder))
    (major : UInt8) (argument : UInt64) (self : Decoder) : Except ε (Value × Decoder) :=
  if major = 0 then .ok (.unsigned argument, self)
  else if major = 1 then .ok (.negative argument, self)
  else if major = 2 then do
    let (bytes, self) ← self.take errors argument.toNat
    pure (.bytes bytes, self)
  else if major = 3 then do
    let (bytes, self) ← self.take errors argument.toNat
    let text ← okOr (Utf8.fromUtf8 bytes) errors.invalid
    pure (.text text, self)
  else if major = 4 then do
    let count ← boundedCount errors argument
    let (values, self) ← elements read count self
    pure (.array values, self)
  else if major = 5 then map errors read argument self
  else .error errors.invalid

/-- What follows the initial byte of an item. -/
def content (errors : Errors ε) (read : Decoder → Except ε (Value × Decoder))
    (initial : UInt8) (self : Decoder) : Except ε (Value × Decoder) :=
  let major := initial >>> 5
  let additional := initial &&& 0x1f
  if major = 7 then do
    let value ← simple errors additional
    pure (value, self)
  else do
    let (argument, self) ← self.argument errors additional
    argumentItem errors read major argument self

/-- One item, at most `levels - 1` levels deep. -/
def item (errors : Errors ε) : (levels : Nat) → Decoder → Except ε (Value × Decoder)
  | 0, _ => .error errors.limitExceeded
  | levels + 1, self => do
    rejectIf (maxItems ≤ self.items) errors.limitExceeded
    let self := { self with items := self.items + 1 }
    let (bytes, self) ← self.take errors 1
    let initial ← okOr bytes.head? errors.invalid
    content errors (item errors levels) initial self

/-- Decodes a byte string that is one item. -/
def decode (errors : Errors ε) (input : List UInt8) : Except ε Value := do
  rejectIf (input = [] ∨ maxBytes < input.length) errors.limitExceeded
  let (value, decoder) ← item errors (maxDepth + 1) ⟨input, 0, 0⟩
  rejectIf (decoder.offset ≠ input.length) errors.invalid
  pure value

end ProofboundRuntime.Wire
