import ProofboundRuntime.Lib.Cbor.Canonical

/-!
# The order of encoded keys

Comparing two keys by their encodings is comparing their lengths first and then
their bytes (`keyCmp_eq`): a head of a smaller argument comes before a head of a
larger one, whatever follows.
-/

namespace ProofboundRuntime

section Lists

variable {α : Type} [Ord α]

theorem compare_append_left [Std.ReflOrd α] (x a b : List α) :
    compare (x ++ a) (x ++ b) = compare a b := by
  induction x with
  | nil => rfl
  | cons c x ih => rw [List.cons_append, List.cons_append, List.compare_cons_cons, ih,
      Std.ReflOrd.compare_self, Ordering.eq_then]

/-- Of two lists of one length, what follows does not matter where they differ. -/
theorem compare_append_of_lt {a b : List α} (hlength : a.length = b.length)
    (hlt : compare a b = .lt) (x y : List α) : compare (a ++ x) (b ++ y) = .lt := by
  induction a generalizing b with
  | nil =>
    simp [List.eq_nil_of_length_eq_zero hlength.symm] at hlt
  | cons c a ih =>
    obtain ⟨d, b, rfl⟩ := List.exists_cons_of_length_eq_add_one hlength.symm
    rw [List.compare_cons_cons] at hlt
    rw [List.cons_append, List.cons_append, List.compare_cons_cons]
    rcases Ordering.then_eq_lt.mp hlt with hc | ⟨hc, hlt⟩
    · rw [hc]
      rfl
    · rw [hc, Ordering.eq_then]
      exact ih (Nat.succ.inj hlength) hlt

/-- Lists of one length are compared as with one continuation. -/
theorem compare_append_right [Std.TransOrd α] [Std.LawfulEqOrd α] {a b : List α}
    (hlength : a.length = b.length) (x : List α) : compare (a ++ x) (b ++ x) = compare a b := by
  rcases hcmp : compare a b with _ | _ | _
  · exact compare_append_of_lt hlength hcmp x x
  · rw [Std.LawfulEqOrd.eq_of_compare hcmp]
    exact Std.ReflOrd.compare_self
  · rw [Std.OrientedOrd.eq_swap, compare_append_of_lt hlength.symm
      (Std.OrientedCmp.gt_iff_lt.mp hcmp) x x]
    rfl

end Lists

namespace BigEndian

/-- Numbers on one width are compared by their bytes. -/
theorem compare_toBytes_of_lt {width m n : Nat} (hlt : m < n) (hn : n < 256 ^ width) :
    compare (toBytes width m) (toBytes width n) = .lt := by
  induction width generalizing m n with
  | zero => omega
  | succ width ih =>
    rw [toBytes, toBytes]
    rcases Nat.lt_or_eq_of_le (Nat.div_le_div_right (c := 256) hlt.le) with hdiv | hdiv
    · refine compare_append_of_lt (by simp) (ih hdiv ?_) _ _
      rw [pow_succ] at hn
      omega
    · rw [hdiv, compare_append_left, List.compare_cons_cons]
      have hlast : UInt8.ofNat m < UInt8.ofNat n := by
        rw [UInt8.lt_iff_toNat_lt, UInt8.toNat_ofNat', UInt8.toNat_ofNat']
        omega
      rw [Std.compare_eq_lt.mpr hlast]
      rfl

end BigEndian

namespace Cbor

theorem initialByte_lt {major a b : UInt8} (hmajor : major < 8) (hlt : a < b) (hb : b < 32) :
    initialByte major a < initialByte major b := by
  have hall : ∀ m : Fin 8, ∀ x y : Fin 32, x < y →
      initialByte (UInt8.ofNat m) (UInt8.ofNat x) < initialByte (UInt8.ofNat m) (UInt8.ofNat y) := by
    decide +kernel
  have hm : major.toNat < 8 := UInt8.lt_iff_toNat_lt.mp hmajor
  have hy : b.toNat < 32 := UInt8.lt_iff_toNat_lt.mp hb
  have hxy : a.toNat < b.toNat := UInt8.lt_iff_toNat_lt.mp hlt
  simpa using hall ⟨major.toNat, hm⟩ ⟨a.toNat, hxy.trans hy⟩ ⟨b.toNat, hy⟩ (Fin.mk_lt_mk.mpr hxy)

/-- A smaller argument has a smaller head. -/
theorem compare_head_of_lt {major : UInt8} {a b : UInt64} (hmajor : major < 8) (hlt : a < b)
    (x y : List UInt8) : compare (head major a ++ x) (head major b ++ y) = .lt := by
  have ha := argument_cases a
  have hb := argument_cases b
  have hnat : a.toNat < b.toNat := UInt64.lt_iff_toNat_lt.mp hlt
  unfold head argumentBytes
  rw [List.cons_append, List.cons_append, List.compare_cons_cons]
  rcases Nat.lt_or_ge (argumentInfo a).toNat (argumentInfo b).toNat with hinfo | hinfo
  · have hbyte : initialByte major (argumentInfo a) < initialByte major (argumentInfo b) :=
      initialByte_lt hmajor (UInt8.lt_iff_toNat_lt.mpr hinfo)
        (Std.lt_trans (argumentInfo_lt b) (by decide))
    rw [Std.compare_eq_lt.mpr hbyte]
    rfl
  · have hsame : argumentInfo a = argumentInfo b := UInt8.toNat_inj.mp (by omega)
    have hwidth := (argumentInfo_inj hsame).1
    have hbound : b.toNat < 256 ^ argumentWidth b := toNat_lt_of_width (by omega)
    rw [hsame, Std.ReflOrd.compare_self, Ordering.eq_then, hwidth]
    exact compare_append_of_lt (by simp) (BigEndian.compare_toBytes_of_lt hnat hbound) x y

theorem compare_lengthHead_of_lt {major : UInt8} {m n : Nat} (hmajor : major < 8) (hlt : m < n)
    (hn : n < 2 ^ 64) (x y : List UInt8) :
    compare (lengthHead major m ++ x) (lengthHead major n ++ y) = .lt := by
  refine compare_head_of_lt hmajor ?_ x y
  rwa [UInt64.lt_iff_toNat_lt, UInt64.toNat_ofNat_of_lt' (hlt.trans hn),
    UInt64.toNat_ofNat_of_lt' hn]

/-- Keys are compared by length and then by their bytes. -/
theorem keyCmp_eq {j k : String} (hj : (Utf8.bytes j).length < 2 ^ 64)
    (hk : (Utf8.bytes k).length < 2 ^ 64) :
    keyCmp j k = (compare (Utf8.bytes j).length (Utf8.bytes k).length).then
      (compare (Utf8.bytes j) (Utf8.bytes k)) := by
  unfold keyCmp textItem
  rcases Nat.lt_trichotomy (Utf8.bytes j).length (Utf8.bytes k).length with hlt | heq | hgt
  · rw [compare_lengthHead_of_lt (by decide) hlt hk, Std.compare_eq_lt.mpr hlt]
    rfl
  · rw [heq, compare_append_left, Std.ReflOrd.compare_self, Ordering.eq_then]
  · rw [Std.OrientedOrd.eq_swap, compare_lengthHead_of_lt (by decide) hgt hj,
      Std.compare_eq_gt.mpr hgt]
    rfl

end Cbor

end ProofboundRuntime
