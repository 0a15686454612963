import Mathlib

/-!
# Big-endian byte strings

`toBytes width n` is the big-endian spelling of `n` on `width` bytes, and
`ofBytes` reads such a spelling back.  They are inverse on the numbers that
fit (`ofBytes_toBytes`) and on all byte strings (`toBytes_ofBytes`).
-/

namespace ProofboundRuntime.BigEndian

/-- The `width` low bytes of `n`, most significant first. -/
def toBytes : (width n : Nat) → List UInt8
  | 0, _ => []
  | width + 1, n => toBytes width (n / 256) ++ [UInt8.ofNat n]

/-- The number a big-endian byte string spells. -/
def ofBytes (bytes : List UInt8) : Nat :=
  bytes.foldl (fun acc b => acc * 256 + b.toNat) 0

@[simp] theorem length_toBytes (width n : Nat) :
    (toBytes width n).length = width := by
  induction width generalizing n with
  | zero => rfl
  | succ width ih => simp [toBytes, ih]

@[simp] theorem ofBytes_nil : ofBytes [] = 0 := rfl

@[simp] theorem ofBytes_append_singleton (bytes : List UInt8) (b : UInt8) :
    ofBytes (bytes ++ [b]) = ofBytes bytes * 256 + b.toNat := by
  simp [ofBytes]

theorem ofBytes_lt (bytes : List UInt8) :
    ofBytes bytes < 256 ^ bytes.length := by
  induction bytes using List.reverseRecOn with
  | nil => simp
  | append_singleton bytes b ih =>
    have hb : b.toNat < 256 := b.toNat_lt
    rw [ofBytes_append_singleton, List.length_append, List.length_singleton, pow_succ]
    omega

/-- A number that fits is read back. -/
theorem ofBytes_toBytes {width n : Nat} (h : n < 256 ^ width) :
    ofBytes (toBytes width n) = n := by
  induction width generalizing n with
  | zero =>
    simp only [pow_zero, Nat.lt_one_iff] at h
    simp [toBytes, h]
  | succ width ih =>
    have hdiv : n / 256 < 256 ^ width := by
      rw [pow_succ] at h
      omega
    rw [toBytes, ofBytes_append_singleton, ih hdiv, UInt8.toNat_ofNat']
    omega

theorem toBytes_inj {width a b : Nat} (ha : a < 256 ^ width) (hb : b < 256 ^ width)
    (h : toBytes width a = toBytes width b) : a = b := by
  rw [← ofBytes_toBytes ha, ← ofBytes_toBytes hb, h]

/-- Every byte string is the spelling of the number it is read as. -/
theorem toBytes_ofBytes (bytes : List UInt8) :
    toBytes bytes.length (ofBytes bytes) = bytes := by
  induction bytes using List.reverseRecOn with
  | nil => rfl
  | append_singleton bytes b ih =>
    have hb : b.toNat < 256 := b.toNat_lt
    have hdiv : (ofBytes bytes * 256 + b.toNat) / 256 = ofBytes bytes := by omega
    have hmod : UInt8.ofNat (ofBytes bytes * 256 + b.toNat) = b := by
      apply UInt8.toNat_inj.mp
      rw [UInt8.toNat_ofNat']
      omega
    rw [List.length_append, List.length_singleton, toBytes, ofBytes_append_singleton,
      hdiv, hmod, ih]

end ProofboundRuntime.BigEndian
