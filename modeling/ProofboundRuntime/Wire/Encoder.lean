import ProofboundRuntime.Lib.Result
import ProofboundRuntime.Lib.Cbor.Canonical

/-!
# Heads and texts of the deterministic CBOR encoders

Every crate that writes CBOR has its own copy of `encode_argument`,
`encode_length` and `encode_text`.  The copies differ in the error of
`encode_length` only.  They write the heads of the format (`encodeArgument_eq`),
and the encoder of a text fails on a length that is no `u64` only.
-/

namespace ProofboundRuntime.Wire

open Cbor Result

/-- `encode_argument`. -/
def encodeArgument (major : UInt8) (argument : UInt64) : List UInt8 :=
  if argument < 24 then [major <<< 5 ||| argument.toUInt8]
  else if argument.toNat < 2 ^ 8 then [major <<< 5 ||| 24, argument.toUInt8]
  else if argument.toNat < 2 ^ 16 then
    (major <<< 5 ||| 25) :: BigEndian.toBytes 2 argument.toNat
  else if argument.toNat < 2 ^ 32 then
    (major <<< 5 ||| 26) :: BigEndian.toBytes 4 argument.toNat
  else (major <<< 5 ||| 27) :: BigEndian.toBytes 8 argument.toNat

variable {ε : Type}

/-- `encode_length`. -/
def encodeLength (error : ε) (major : UInt8) (length : Nat) : Except ε (List UInt8) := do
  -- `u64::try_from`
  rejectIf (2 ^ 64 ≤ length) error
  pure (encodeArgument major (UInt64.ofNat length))

/-- `encode_text`. -/
def encodeText (error : ε) (value : String) : Except ε (List UInt8) := do
  let head ← encodeLength error 3 (Utf8.bytes value).length
  pure (head ++ Utf8.bytes value)

/-- `encode_bytes`. -/
def encodeBytes (error : ε) (value : List UInt8) : Except ε (List UInt8) := do
  let head ← encodeLength error 2 value.length
  pure (head ++ value)

theorem encodeArgument_eq (major : UInt8) (argument : UInt64) :
    encodeArgument major argument = head major argument := by
  unfold encodeArgument head argumentBytes argumentInfo argumentWidth initialByte
  simp only [UInt64.lt_iff_toNat_lt, UInt64.reduceToNat]
  split_ifs
  all_goals first | omega | rfl

theorem encodeLength_eq_ok {error : ε} {major : UInt8} {length : Nat} {output : List UInt8} :
    encodeLength error major length = .ok output ↔
      length < 2 ^ 64 ∧ lengthHead major length = output := by
  simp only [encodeLength, bind_eq_ok, rejectIf_eq_ok, pure_eq_ok, exists_const, not_le,
    encodeArgument_eq, lengthHead]

theorem encodeText_eq_ok {error : ε} {value : String} {output : List UInt8} :
    encodeText error value = .ok output ↔
      (Utf8.bytes value).length < 2 ^ 64 ∧ textItem value = output := by
  simp only [encodeText, bind_eq_ok, pure_eq_ok, encodeLength_eq_ok]
  constructor
  · rintro ⟨head, ⟨hlt, rfl⟩, heq⟩
    exact ⟨hlt, heq⟩
  · intro h
    exact ⟨_, ⟨h.1, rfl⟩, h.2⟩

theorem encodeBytes_eq_ok {error : ε} {value output : List UInt8} :
    encodeBytes error value = .ok output ↔
      value.length < 2 ^ 64 ∧ (Value.bytes value).serialize = output := by
  simp only [encodeBytes, bind_eq_ok, pure_eq_ok, encodeLength_eq_ok, Value.serialize]
  constructor
  · rintro ⟨head, ⟨hlt, rfl⟩, heq⟩
    exact ⟨hlt, heq⟩
  · intro h
    exact ⟨_, ⟨h.1, rfl⟩, h.2⟩

end ProofboundRuntime.Wire
