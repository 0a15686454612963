import Mathlib

/-!
# Little-endian byte strings

`toBytes width n` is the little-endian spelling of `n` on `width` bytes, and
`ofBytes` reads a spelling.  A number that fits is known from its spelling
(`toBytes_inj`).
-/

namespace ProofboundRuntime.LittleEndian

/-- The `width` low bytes of `n`, least significant first. -/
def toBytes : (width n : Nat) → List UInt8
  | 0, _ => []
  | width + 1, n => UInt8.ofNat n :: toBytes width (n / 256)

/-- The number a little-endian byte string spells. -/
def ofBytes : List UInt8 → Nat
  | [] => 0
  | b :: bytes => b.toNat + 256 * ofBytes bytes

@[simp] theorem length_toBytes (width n : Nat) : (toBytes width n).length = width := by
  induction width generalizing n with
  | zero => rfl
  | succ width ih => rw [toBytes, List.length_cons, ih]

/-- A number that fits is read back. -/
theorem ofBytes_toBytes {width n : Nat} (h : n < 256 ^ width) :
    ofBytes (toBytes width n) = n := by
  induction width generalizing n with
  | zero =>
    rw [pow_zero] at h
    show 0 = n
    omega
  | succ width ih =>
    have hdiv : n / 256 < 256 ^ width := by
      rw [pow_succ] at h
      omega
    rw [toBytes, ofBytes, ih hdiv, UInt8.toNat_ofNat']
    omega

theorem toBytes_inj {width a b : Nat} (ha : a < 256 ^ width) (hb : b < 256 ^ width)
    (h : toBytes width a = toBytes width b) : a = b := by
  rw [← ofBytes_toBytes ha, ← ofBytes_toBytes hb, h]

end ProofboundRuntime.LittleEndian
