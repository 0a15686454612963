import ProofboundRuntime.Verify.Checks
import ProofboundRuntime.Verify.Facts

/-!
# The texts of a decoded receipt

The decoder writes digests, counters and identifiers as texts, and the
validation reads them again.  Every text that is written is accepted, apart
from execution identifiers: there the validation asks for version 4.

* `requireExecutionId_uuidText`: which identifiers are accepted;
* `artifactOrder_wire`: artifacts are ordered by their facts.
-/

namespace ProofboundRuntime.Verify

open Result

theorem requireDigest_text (digest : Vector UInt8 32) :
    requireDigest (Hex.text digest.toList) = .ok () := by
  unfold requireDigest
  rw [rejectIf_eq_ok, Hex.bytes_text, not_or, Bool.not_eq_false, List.all_eq_true]
  refine ⟨?_, Hex.isLowerHex_ascii digest.toList⟩
  rw [Hex.length_ascii, Vector.length_toList]
  decide

@[simp] theorem parseDecimal_text (n : UInt64) :
    parseDecimal (Decimal.text n.toNat) = .ok n.toNat := by
  have hform : ¬(Utf8.bytes (Decimal.text n.toNat) = [] ∨
      (1 < (Utf8.bytes (Decimal.text n.toNat)).length ∧
        (Utf8.bytes (Decimal.text n.toNat)).head? = some 0x30) ∨
      (Utf8.bytes (Decimal.text n.toNat)).all Ascii.isDigit = false) := by
    refine not_or.mpr ⟨Decimal.text_ne_nil _, not_or.mpr ⟨?_, ?_⟩⟩
    · -- The only number with a leading zero is written with one digit.
      intro h
      rw [Decimal.eq_zero_of_head _ h.2] at h
      revert h
      decide
    · rw [Bool.not_eq_false, List.all_eq_true]
      exact Decimal.isDigit_text _
  have hrange : ¬2 ^ 64 ≤ n.toNat := Nat.not_le.mpr n.toNat_lt
  simp only [parseDecimal, rejectIf_false hform, ok_bind, Decimal.value_text,
    rejectIf_false hrange]
  rfl

/-! ## Execution identifiers -/

/-- The first digit of a byte is `4` exactly when its upper half is. -/
theorem digit_version (b : UInt8) : Hex.digit (b >>> 4) = 0x34 ↔ b &&& 0xf0 = 0x40 := by
  have hall : ∀ n : Fin 256, Hex.digit (UInt8.ofNat n >>> 4) = 0x34 ↔
      UInt8.ofNat n &&& 0xf0 = 0x40 := by
    decide +kernel
  have hb := hall ⟨b.toNat, b.toNat_lt⟩
  rwa [UInt8.ofNat_toNat] at hb

/-- The first digit of a byte is `8`, `9`, `a` or `b` exactly when its upper
bits are `10`. -/
theorem digit_variant (b : UInt8) :
    (Hex.digit (b >>> 4) == 0x38 || Hex.digit (b >>> 4) == 0x39 || Hex.digit (b >>> 4) == 0x61 ||
      Hex.digit (b >>> 4) == 0x62) = true ↔ b &&& 0xc0 = 0x80 := by
  have hall : ∀ n : Fin 256, (Hex.digit (UInt8.ofNat n >>> 4) == 0x38 ||
      Hex.digit (UInt8.ofNat n >>> 4) == 0x39 || Hex.digit (UInt8.ofNat n >>> 4) == 0x61 ||
      Hex.digit (UInt8.ofNat n >>> 4) == 0x62) = true ↔ UInt8.ofNat n &&& 0xc0 = 0x80 := by
    decide +kernel
  have hb := hall ⟨b.toNat, b.toNat_lt⟩
  rwa [UInt8.ofNat_toNat] at hb

theorem requireExecutionId_uuidText (id : Vector UInt8 16) :
    requireExecutionId (uuidText id.toList) = .ok () ↔
      id.get 6 &&& 0xf0 = 0x40 ∧ id.get 8 &&& 0xc0 = 0x80 := by
  have hlist : id.toList = [id.get 0, id.get 1, id.get 2, id.get 3, id.get 4, id.get 5, id.get 6,
      id.get 7, id.get 8, id.get 9, id.get 10, id.get 11, id.get 12, id.get 13, id.get 14,
      id.get 15] := by
    apply List.ext_getElem
    · simp
    · intro i hi hi'
      rw [Vector.length_toList] at hi
      rw [Vector.getElem_toList]
      interval_cases i <;> rfl
  have hhex : ∀ b : UInt8, Ascii.isLowerHex (Hex.digit (b >>> 4)) = true ∧
      Ascii.isLowerHex (Hex.digit (b &&& 0x0f)) = true := by
    intro b
    obtain ⟨high, low, hpair, hhigh, hlow⟩ := Hex.pair_spec b
    obtain ⟨rfl, rfl⟩ : Hex.digit (b >>> 4) = high ∧ Hex.digit (b &&& 0x0f) = low := by
      simpa [Hex.pair] using hpair
    exact ⟨hhigh, hlow⟩
  have hbytes := bytes_uuidText id.toList
  rw [hlist] at hbytes
  have hlength : (Utf8.bytes (uuidText id.toList)).length = 36 := by
    rw [hlist, hbytes]
    rfl
  have hall : ∀ entry ∈ (Utf8.bytes (uuidText id.toList)).zipIdx,
      executionIdByte entry.1 entry.2 = true := by
    rw [hlist, hbytes]
    simp [Hex.ascii, Hex.pair, Ascii.group, executionIdByte, hhex, List.zipIdx_cons]
  have hversion : (Utf8.bytes (uuidText id.toList))[14]? = some (Hex.digit (id.get 6 >>> 4)) := by
    rw [hlist, hbytes]
    rfl
  have hvariant : (Utf8.bytes (uuidText id.toList))[19]? = some (Hex.digit (id.get 8 >>> 4)) := by
    rw [hlist, hbytes]
    rfl
  rw [requireExecutionId, rejectIf_eq_ok, hlength, hversion, hvariant,
    ← digit_version, ← digit_variant, Option.any_some, not_or, not_or, not_or]
  simp only [Bool.not_eq_false, ne_eq, not_not, Option.some.injEq, not_true_eq_false,
    not_false_eq_true, List.all_eq_true, true_and]
  exact and_iff_right hall

/-! ## Artifacts -/

@[simp] theorem validateArtifact_wire (a : ArtifactFacts) : validateArtifact a.wire = .ok () := by
  have hmode : ¬0o7777 < a.mode := UInt16.not_lt.mpr a.mode_le
  unfold validateArtifact ArtifactFacts.wire
  simp only [requireDigest_text, parseDecimal_text, ok_bind]
  exact rejectIf_false hmode

theorem requireArtifact_wire {a : ArtifactFacts} {role : WireArtifactRole} :
    requireArtifact a.wire role = .ok () ↔ a.role = role := by
  rw [requireArtifact, validateArtifact_wire, ok_bind, rejectIf_eq_ok, ne_eq, not_not]
  rfl

@[simp] theorem sizeValue_wire (a : ArtifactFacts) : sizeValue a.wire = a.size.toNat := by
  unfold sizeValue ArtifactFacts.wire
  rw [parseDecimal_text]
  rfl

theorem artifactOrder_wire (a b : ArtifactFacts) :
    artifactOrder a.wire b.wire = (compare a.role b.role).then
      ((compare a.sha256.toList b.sha256.toList).then
        ((compare a.size b.size).then (compare a.mode b.mode))) := by
  have hsize : compare a.size.toNat b.size.toNat = compare a.size b.size := by
    rcases Nat.lt_trichotomy a.size.toNat b.size.toNat with h | h | h
    · rw [Std.compare_eq_lt.mpr h, Std.compare_eq_lt.mpr (UInt64.lt_iff_toNat_lt.mpr h)]
    · rw [UInt64.toNat_inj.mp h, Std.ReflOrd.compare_self, Std.ReflOrd.compare_self]
    · rw [Std.compare_eq_gt.mpr h, Std.compare_eq_gt.mpr (UInt64.lt_iff_toNat_lt.mpr h)]
  rw [artifactOrder, sizeValue_wire, sizeValue_wire, hsize]
  unfold ArtifactFacts.wire
  rw [Hex.cmp_text]

end ProofboundRuntime.Verify
