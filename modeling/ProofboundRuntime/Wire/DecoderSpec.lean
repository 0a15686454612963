import ProofboundRuntime.Wire.Decoder
import ProofboundRuntime.Lib.Cbor.Canonical

/-!
# What the decoder accepts

`decode_eq_ok` says exactly which byte strings the decoder accepts and what
it returns: the canonical items within its limits, each from its one
serialization.

The proof follows the decoder's state.  `Reads s s' bytes count` says that the
state moves from `s` to `s'` over `bytes`, counting `count` items, and every
step of the decoder is shown to succeed exactly when such a move exists.
-/

namespace ProofboundRuntime.Wire

open Cbor Result

variable {ε : Type} {errors : Errors ε}

/-- The decoder has read a part of its input, and the input fits the address
space. -/
structure Decoder.Valid (s : Decoder) : Prop where
  inBounds : s.offset ≤ s.input.length
  fits : s.input.length < 2 ^ 64

/-- The decoder moves from `s` to `s'` over `bytes` and counts `count`
items. -/
structure Reads (s s' : Decoder) (bytes : List UInt8) (count : Nat) : Prop where
  isPrefix : bytes <+: s.input.drop s.offset
  inBounds : s.offset + bytes.length ≤ s.input.length
  state : s' = ⟨s.input, s.offset + bytes.length, s.items + count⟩

variable {s s' : Decoder} {count : Nat} {bytes : List UInt8}

theorem Reads.valid (h : Reads s s' bytes count) (hs : s.Valid) : s'.Valid := by
  rw [h.state]
  exact ⟨h.inBounds, hs.fits⟩

theorem Reads.items_eq (h : Reads s s' bytes count) : s'.items = s.items + count := by
  rw [h.state]

theorem reads_nil (hs : s.Valid) : Reads s s' [] 0 ↔ s' = s := by
  refine ⟨fun h => h.state, fun h => ⟨List.nil_prefix, hs.inBounds, h⟩⟩

/-- A move over two pieces is a move over each. -/
theorem reads_append {s s'' : Decoder} {a b : List UInt8} {j k : Nat} :
    Reads s s'' (a ++ b) (j + k) ↔ ∃ s', Reads s s' a j ∧ Reads s' s'' b k := by
  refine ⟨fun h => ?_, fun h => ?_⟩
  · obtain ⟨rest, hrest⟩ := h.isPrefix
    have hlen := h.inBounds
    rw [List.length_append] at hlen
    refine ⟨⟨s.input, s.offset + a.length, s.items + j⟩, ⟨?_, by omega, rfl⟩, ?_, ?_, ?_⟩
    · exact ⟨b ++ rest, by rw [← hrest, List.append_assoc]⟩
    · refine ⟨rest, ?_⟩
      rw [← List.drop_drop, ← hrest, List.append_assoc, List.drop_left]
    · show s.offset + a.length + b.length ≤ s.input.length
      omega
    · rw [h.state, List.length_append]
      simp only [Decoder.mk.injEq, true_and]
      omega
  · obtain ⟨s', ha, hb⟩ := h
    have hstate := ha.state
    subst hstate
    obtain ⟨resta, hresta⟩ := ha.isPrefix
    obtain ⟨restb, hrestb⟩ := hb.isPrefix
    have hb_len := hb.inBounds
    simp only at hb_len hrestb
    refine ⟨⟨restb, ?_⟩, ?_, ?_⟩
    · rw [← List.drop_drop, ← hresta, List.drop_left] at hrestb
      rw [List.append_assoc, hrestb, hresta]
    · rw [List.length_append]
      omega
    · rw [hb.state, List.length_append]
      simp only [Decoder.mk.injEq, true_and]
      omega

/-! ## The steps that read bytes -/

theorem slice_eq_some {input bytes : List UInt8} {start length : Nat} :
    slice input start (start + length) = some bytes ↔
      bytes.length = length ∧ bytes <+: input.drop start ∧
        start + length ≤ input.length := by
  unfold slice
  by_cases h : start ≤ start + length ∧ start + length ≤ input.length
  · rw [if_pos h, Option.some_inj, Nat.add_sub_cancel_left]
    refine ⟨fun heq => ?_, fun ⟨hlen, hpre, _⟩ => ?_⟩
    · subst heq
      refine ⟨?_, List.take_prefix _ _, h.2⟩
      rw [List.length_take, List.length_drop]
      omega
    · subst hlen
      exact (List.prefix_iff_eq_take.mp hpre).symm
  · rw [if_neg h]
    refine ⟨fun heq => (by cases heq), fun ⟨_, _, hle⟩ => ?_⟩
    exact absurd ⟨Nat.le_add_right _ _, hle⟩ h

/-- The bytes between two states of a move are the bytes it is over. -/
theorem Reads.slice_eq (h : Reads s s' bytes count) :
    slice s'.input s.offset s'.offset = some bytes := by
  rw [h.state]
  exact slice_eq_some.mpr ⟨rfl, h.isPrefix, h.inBounds⟩

variable {length : Nat}

theorem take_eq_ok (hs : s.Valid) :
    s.take errors length = .ok (bytes, s') ↔
      bytes.length = length ∧ Reads s s' bytes 0 := by
  have hfits := hs.fits
  simp only [Decoder.take, bind_eq_ok, rejectIf_eq_ok, okOr_eq_ok, pure_eq_ok, Prod.mk.injEq,
    exists_const, slice_eq_some, not_le]
  refine ⟨fun h => ?_, fun h => ?_⟩
  · obtain ⟨_, value, ⟨hlen, hpre, hle⟩, hvalue, hstate⟩ := h
    subst hvalue hlen
    exact ⟨rfl, hpre, hle, by rw [← hstate, Nat.add_zero]⟩
  · obtain ⟨hlen, hreads⟩ := h
    subst hlen
    have hle := hreads.inBounds
    refine ⟨by omega, bytes, ⟨rfl, hreads.isPrefix, hle⟩, rfl, ?_⟩
    rw [hreads.state, Nat.add_zero]

variable {additional : UInt8}

/-- The four widths. -/
theorem widthAndMinimum_eq_ok {width minimum : Nat} :
    widthAndMinimum errors additional = .ok (width, minimum) ↔
      (additional.toNat = 24 ∧ width = 1 ∧ minimum = 24) ∨
      (additional.toNat = 25 ∧ width = 2 ∧ minimum = 256 ^ 1) ∨
      (additional.toNat = 26 ∧ width = 4 ∧ minimum = 256 ^ 2) ∨
      (additional.toNat = 27 ∧ width = 8 ∧ minimum = 256 ^ 4) := by
  unfold widthAndMinimum
  simp only [← UInt8.toNat_inj, UInt8.reduceToNat]
  split_ifs <;> simp only [Except.ok.injEq, Prod.mk.injEq, false_iff] <;> omega

/-- The code of a width stands for the arguments that need it. -/
theorem widthAndMinimum_spec {width minimum : Nat} (argument : UInt64)
    (h : widthAndMinimum errors additional = .ok (width, minimum)) :
    minimum ≤ argument.toNat ∧ argument.toNat < 256 ^ width ↔
      argumentInfo argument = additional ∧ argumentWidth argument = width := by
  have hcases := argument_cases argument
  rw [← UInt8.toNat_inj]
  rcases widthAndMinimum_eq_ok.mp h with ⟨hcode, hw, hm⟩ | ⟨hcode, hw, hm⟩ |
    ⟨hcode, hw, hm⟩ | ⟨hcode, hw, hm⟩
  all_goals subst hw hm; omega

variable {argument : UInt64}

/-- An argument that is not small has the code of its width. -/
theorem widthAndMinimum_info (errors : Errors ε) (h : ¬argumentInfo argument < 24) :
    ∃ minimum, widthAndMinimum errors (argumentInfo argument) =
      .ok (argumentWidth argument, minimum) := by
  simp only [widthAndMinimum_eq_ok]
  simp only [UInt8.lt_iff_toNat_lt, UInt8.reduceToNat] at h
  rcases argument_cases argument with hc | hc | hc | hc | hc
  · omega
  · exact ⟨24, by omega⟩
  · exact ⟨256 ^ 1, by omega⟩
  · exact ⟨256 ^ 2, by omega⟩
  · exact ⟨256 ^ 4, by omega⟩

theorem argument_eq_ok (hs : s.Valid) :
    s.argument errors additional = .ok (argument, s') ↔
      argumentInfo argument = additional ∧ Reads s s' (argumentBytes argument) 0 := by
  have hcases := argument_cases argument
  unfold Decoder.argument argumentBytes
  by_cases hsmall : additional < 24
  · rw [if_pos hsmall]
    simp only [UInt8.lt_iff_toNat_lt, UInt8.reduceToNat] at hsmall
    refine ⟨fun h => ?_, fun ⟨hinfo, hreads⟩ => ?_⟩
    · cases h
      have hnat : additional.toUInt64.toNat = additional.toNat := UInt8.toNat_toUInt64 _
      refine ⟨UInt8.toNat_inj.mp (by omega), ?_⟩
      rw [show argumentWidth additional.toUInt64 = 0 by omega]
      exact (reads_nil hs).mpr rfl
    · subst hinfo
      rw [show argumentWidth argument = 0 by omega] at hreads
      rw [(reads_nil hs).mp hreads]
      have heq : (argumentInfo argument).toUInt64 = argument := by
        apply UInt64.toNat_inj.mp
        rw [UInt8.toNat_toUInt64]
        omega
      rw [heq]
  · rw [if_neg hsmall]
    simp only [bind_eq_ok, pure_eq_ok, Prod.exists, Prod.mk.injEq, rejectIf_eq_ok,
      exists_const, not_lt]
    refine ⟨fun h => ?_, fun ⟨hinfo, hreads⟩ => ?_⟩
    · obtain ⟨width, minimum, hwidth, bytes, s₁, htake, hmin, harg, hstate⟩ := h
      subst hstate
      obtain ⟨hlen, hreads⟩ := (take_eq_ok hs).mp htake
      have hlt := BigEndian.ofBytes_lt bytes
      have hle : 256 ^ width ≤ 2 ^ 64 := by
        have hwidths := widthAndMinimum_eq_ok.mp hwidth
        exact Nat.pow_le_pow_right (n := 256) (by decide) (show width ≤ 8 by omega)
      have hnat : argument.toNat = BigEndian.ofBytes bytes := by
        rw [← harg, UInt64.toNat_ofNat', Nat.mod_eq_of_lt]
        rw [hlen] at hlt
        exact lt_of_lt_of_le hlt hle
      obtain ⟨hinfo, hw⟩ := (widthAndMinimum_spec argument hwidth).mp
        ⟨hnat ▸ hmin, by rw [hnat, ← hlen]; exact hlt⟩
      refine ⟨hinfo, ?_⟩
      rwa [hw, hnat, ← hlen, BigEndian.toBytes_ofBytes]
    · subst hinfo
      obtain ⟨minimum, hwidth⟩ := widthAndMinimum_info errors hsmall
      obtain ⟨hmin, hlt⟩ := (widthAndMinimum_spec argument hwidth).mpr ⟨rfl, rfl⟩
      refine ⟨_, minimum, hwidth, _, s', (take_eq_ok hs).mpr ⟨?_, hreads⟩, ?_, ?_, rfl⟩
      · exact BigEndian.length_toBytes _ _
      · rwa [BigEndian.ofBytes_toBytes hlt]
      · rw [BigEndian.ofBytes_toBytes hlt, UInt64.ofNat_toNat]

/-! ## The loops -/

/-- `read` reads the canonical items of fewer than `levels` levels. -/
def ReadsItems (read : Decoder → Except ε (Value × Decoder)) (levels : Nat) : Prop :=
  ∀ {s s' : Decoder} {value : Value}, s.Valid →
    (read s = .ok (value, s') ↔
      (value.Canonical ∧ value.depth < levels) ∧
        Reads s s' value.serialize value.items ∧ s'.items ≤ maxItems)

variable {read : Decoder → Except ε (Value × Decoder)} {levels : Nat}

/-- How such a `read` reads a text. -/
theorem ReadsItems.text (hread : ReadsItems read levels) {key : String} (hs : s.Valid) :
    read s = .ok (.text key, s') ↔
      0 < levels ∧ Reads s s' (textItem key) 1 ∧ s'.items ≤ maxItems := by
  rw [hread hs]
  simp only [Value.serialize, Value.items, Value.depth, Value.Canonical, Value.AllMaps,
    true_and]

theorem elements_eq_ok (hread : ReadsItems read levels) {values : List Value} (hs : s.Valid)
    (hitems : s.items ≤ maxItems) :
    elements read count s = .ok (values, s') ↔
      values.length = count ∧
        (∀ value ∈ values, value.Canonical ∧ value.depth < levels) ∧
        Reads s s' (serializeList values) (itemsList values) ∧ s'.items ≤ maxItems := by
  induction count generalizing s values with
  | zero =>
    cases values with
    | nil =>
      simp only [elements, serializeList, itemsList, Except.ok.injEq, Prod.mk.injEq, true_and,
        List.length_nil, List.not_mem_nil, false_implies, implies_true, reads_nil hs]
      refine ⟨fun h => ⟨h.symm, h ▸ hitems⟩, fun h => h.1.symm⟩
    | cons value values => simp [elements]
  | succ count ih =>
    simp only [elements, bind_eq_ok, pure_eq_ok, Prod.exists, Prod.mk.injEq]
    refine ⟨fun h => ?_, fun h => ?_⟩
    · obtain ⟨value, s₁, hvalue, tail, s₂, htail, hvalues, hs₂⟩ := h
      subst hvalues hs₂
      obtain ⟨hok, hreads, hmax⟩ := (hread hs).mp hvalue
      obtain ⟨hlen, hall, hreads', hmax'⟩ := (ih (hreads.valid hs) hmax).mp htail
      refine ⟨by rw [List.length_cons, hlen], List.forall_mem_cons.mpr ⟨hok, hall⟩, ?_, hmax'⟩
      exact reads_append.mpr ⟨s₁, hreads, hreads'⟩
    · obtain ⟨hlen, hall, hreads, hmax⟩ := h
      cases values with
      | nil => simp at hlen
      | cons value values =>
        obtain ⟨s₁, hhead, htail⟩ := reads_append.mp hreads
        rw [List.forall_mem_cons] at hall
        have hmid : s₁.items ≤ maxItems := by
          have := htail.items_eq
          omega
        refine ⟨value, s₁, (hread hs).mpr ⟨hall.1, hhead, hmid⟩, values, s', ?_, rfl, rfl⟩
        refine (ih (hhead.valid hs) hmid).mpr ⟨?_, hall.2, htail, hmax⟩
        simpa using hlen

/-- The key is above the one before. -/
theorem not_previous_any {previous : Option (List UInt8)} {key : List UInt8} :
    ¬(previous.any fun previous => (compare key previous).isLE) = true ↔
      ∀ p ∈ previous, compare p key = .lt := by
  cases previous with
  | none => simp
  | some p =>
    have hswap : compare p key = (compare key p).swap := Std.OrientedCmp.eq_swap
    simp only [Option.any_some, Option.mem_def, Option.some_inj, forall_eq', hswap]
    cases compare key p <;> simp

theorem entries_eq_ok (hread : ReadsItems read levels) {previous : Option (List UInt8)}
    {values : List (String × Value)} (hs : s.Valid) (hitems : s.items ≤ maxItems) :
    entries errors read count previous s = .ok (values, s') ↔
      values.length = count ∧
        (Sorting.Strict entryCmp values ∧
          ∀ p ∈ previous, ∀ e ∈ values, compare p (textItem e.1) = .lt) ∧
        (∀ e ∈ values, e.2.Canonical ∧ e.2.depth < levels) ∧
        Reads s s' (serializeEntries values) (itemsEntries values) ∧
        s'.items ≤ maxItems := by
  induction count generalizing s values previous with
  | zero =>
    cases values with
    | nil =>
      simp only [entries, serializeEntries, itemsEntries, Except.ok.injEq, Prod.mk.injEq,
        true_and, List.length_nil, List.not_mem_nil, false_implies, implies_true,
        reads_nil hs, Sorting.strict_nil]
      refine ⟨fun h => ⟨h.symm, h ▸ hitems⟩, fun h => h.1.symm⟩
    | cons e values => simp [entries]
  | succ count ih =>
    simp only [entries, bind_eq_ok, pure_eq_ok, Prod.exists, Prod.mk.injEq, okOr_eq_ok,
      rejectIf_eq_ok, exists_const, not_previous_any]
    refine ⟨fun h => ?_, fun h => ?_⟩
    · obtain ⟨item, s₁, hkey, key, htext, encoding, hslice, habove, value, s₂, hvalue,
        tail, s₃, htail, hvalues, hs₃⟩ := h
      subst hvalues hs₃
      cases item with
      | text key' =>
        cases htext
        obtain ⟨_, hreadsKey, hmaxKey⟩ := (hread.text hs).mp hkey
        rw [hreadsKey.slice_eq, Option.some_inj] at hslice
        subst hslice
        have hs₁ := hreadsKey.valid hs
        obtain ⟨hokValue, hreadsValue, hmaxValue⟩ := (hread hs₁).mp hvalue
        have hs₂ := hreadsValue.valid hs₁
        obtain ⟨hlen, ⟨hstrict, hnext⟩, hall, hreads, hmax⟩ := (ih hs₂ hmaxValue).mp htail
        have hfirst : ∀ e ∈ tail, compare (textItem key) (textItem e.1) = .lt :=
          hnext _ rfl
        refine ⟨by rw [List.length_cons, hlen], ⟨Sorting.strict_cons.mpr ⟨hfirst, hstrict⟩, ?_⟩,
          List.forall_mem_cons.mpr ⟨hokValue, hall⟩, ?_, hmax⟩
        · intro p hp e he
          rcases List.mem_cons.mp he with he | he
          · subst he
            exact habove p hp
          · exact Std.TransCmp.lt_trans (habove p hp) (hfirst e he)
        · exact reads_append.mpr ⟨s₂, reads_append.mpr ⟨s₁, hreadsKey, hreadsValue⟩, hreads⟩
      | _ => cases htext
    · obtain ⟨hlen, ⟨hstrict, habove⟩, hall, hreads, hmax⟩ := h
      cases values with
      | nil => simp at hlen
      | cons e values =>
        obtain ⟨key, value⟩ := e
        obtain ⟨s₂, hpair, htail⟩ := reads_append.mp hreads
        obtain ⟨s₁, hkey, hvalue⟩ := reads_append.mp hpair
        have hs₁ := hkey.valid hs
        rw [List.forall_mem_cons] at hall
        rw [Sorting.strict_cons] at hstrict
        have hmaxValue : s₂.items ≤ maxItems := by
          have := htail.items_eq
          omega
        have hmaxKey : s₁.items ≤ maxItems := by
          have := hvalue.items_eq
          omega
        have hreadKey := (hread.text hs).mpr ⟨Nat.zero_lt_of_lt hall.1.2, hkey, hmaxKey⟩
        refine ⟨_, s₁, hreadKey, key, rfl, _, hkey.slice_eq, ?_, value, s₂,
          (hread hs₁).mpr ⟨hall.1, hvalue, hmaxValue⟩, values, s', ?_, rfl, rfl⟩
        · exact fun p hp => habove p hp (key, value) List.mem_cons_self
        · refine (ih (hvalue.valid hs₁) hmaxValue).mpr
            ⟨by simpa using hlen, ⟨hstrict.2, ?_⟩, hall.2, htail, hmax⟩
          intro p hp
          cases hp
          exact hstrict.1

/-! ## Items -/

variable {value : Value}

theorem simple_eq_ok :
    simple errors additional = .ok value ↔
      (additional = 20 ∧ value = .bool false) ∨ (additional = 21 ∧ value = .bool true) ∨
        (additional = 22 ∧ value = .null) := by
  unfold simple
  split_ifs with h20 h21 h22 <;> simp_all [eq_comm]

theorem boundedCount_eq_ok :
    boundedCount errors argument = .ok count ↔
      argument.toNat = count ∧ count ≤ maxItems := by
  simp only [boundedCount, bind_eq_ok, rejectIf_eq_ok, pure_eq_ok, exists_const, not_lt]
  refine ⟨fun h => ⟨h.2, h.2 ▸ h.1⟩, fun h => ⟨h.1 ▸ h.2, h.1⟩⟩

variable {major : UInt8}

/-- The head of an item of the length that its argument gives. -/
theorem lengthHead_eq (h : length = argument.toNat) :
    lengthHead major length = head major argument := by
  rw [lengthHead, h, UInt64.ofNat_toNat]

/-- An item that the dispatch on the major type returns has the head that was
read. -/
theorem argumentItem_sound (hread : ReadsItems read levels) (hs : s.Valid)
    (hitems : s.items ≤ maxItems)
    (h : argumentItem errors read major argument s = .ok (value, s')) :
    (value.Canonical ∧ value.depth ≤ levels) ∧
      (∃ payload count, value.serialize = head major argument ++ payload ∧
        value.items = 1 + count ∧ Reads s s' payload count) ∧
      s'.items ≤ maxItems := by
  unfold argumentItem at h
  split_ifs at h with h0 h1 h2 h3 h4 h5
  · cases h
    refine ⟨⟨trivial, Nat.zero_le _⟩, ⟨[], 0, ?_, rfl, (reads_nil hs).mpr rfl⟩, hitems⟩
    rw [Value.serialize, h0, List.append_nil]
  · cases h
    refine ⟨⟨trivial, Nat.zero_le _⟩, ⟨[], 0, ?_, rfl, (reads_nil hs).mpr rfl⟩, hitems⟩
    rw [Value.serialize, h1, List.append_nil]
  · simp only [bind_eq_ok, pure_eq_ok, Prod.exists, Prod.mk.injEq] at h
    obtain ⟨bytes, s₁, htake, hvalue, hstate⟩ := h
    subst hvalue hstate
    obtain ⟨hlen, hreads⟩ := (take_eq_ok hs).mp htake
    refine ⟨⟨trivial, Nat.zero_le _⟩, ⟨bytes, 0, ?_, rfl, hreads⟩, ?_⟩
    · rw [Value.serialize, h2, lengthHead_eq hlen]
    · rwa [hreads.items_eq]
  · simp only [bind_eq_ok, pure_eq_ok, okOr_eq_ok, Prod.exists, Prod.mk.injEq] at h
    obtain ⟨bytes, s₁, htake, text, htext, hvalue, hstate⟩ := h
    subst hvalue hstate
    rw [Utf8.fromUtf8_eq_some] at htext
    obtain ⟨hlen, hreads⟩ := (take_eq_ok hs).mp htake
    refine ⟨⟨trivial, Nat.zero_le _⟩, ⟨bytes, 0, ?_, rfl, hreads⟩, ?_⟩
    · rw [Value.serialize, textItem, htext, h3, lengthHead_eq hlen]
    · rwa [hreads.items_eq]
  · simp only [bind_eq_ok, pure_eq_ok, Prod.exists, Prod.mk.injEq, boundedCount_eq_ok] at h
    obtain ⟨count, ⟨hcount, _⟩, values, s₁, hvalues, hvalue, hstate⟩ := h
    subst hvalue hstate hcount
    obtain ⟨hlen, hall, hreads, hmax⟩ := (elements_eq_ok hread hs hitems).mp hvalues
    refine ⟨⟨?_, ?_⟩, ⟨_, _, ?_, rfl, hreads⟩, hmax⟩
    · exact allMapsList_iff.mpr fun value hvalue => (hall value hvalue).1
    · exact depthList_le.mpr fun value hvalue => (hall value hvalue).2
    · rw [Value.serialize, h4, lengthHead_eq hlen]
  · simp only [map, bind_eq_ok, pure_eq_ok, Prod.exists, Prod.mk.injEq,
      boundedCount_eq_ok] at h
    obtain ⟨count, ⟨hcount, _⟩, values, s₁, hvalues, hvalue, hstate⟩ := h
    subst hvalue hstate hcount
    obtain ⟨hlen, hstrict, hall, hreads, hmax⟩ := (entries_eq_ok hread hs hitems).mp hvalues
    refine ⟨⟨⟨hstrict.1, ?_⟩, ?_⟩, ⟨_, _, ?_, rfl, hreads⟩, hmax⟩
    · exact allMapsEntries_iff.mpr fun e he => (hall e he).1
    · exact depthEntries_le.mpr fun e he => (hall e he).2
    · rw [Value.serialize, h5, lengthHead_eq hlen]

/-- After the initial byte of a head, the decoder reads the argument. -/
theorem content_of_head (hmajor : major < 7) (hs : s.Valid)
    (h : Reads s s' (argumentBytes argument) 0) :
    content errors read (initialByte major (argumentInfo argument)) s =
      argumentItem errors read major argument s' := by
  have hparts := initialByte_parts (Std.lt_trans hmajor (by decide))
    (Std.lt_trans (argumentInfo_lt argument) (by decide))
  have hne : major ≠ 7 := Std.ne_of_lt hmajor
  unfold content
  simp only [hparts.1, hparts.2, if_neg hne, (argument_eq_ok hs).mpr ⟨rfl, h⟩, ok_bind]

variable {initial : UInt8}

/-- The same for an item with a head and a payload. -/
theorem content_of_payload {payload tail : List UInt8} (hmajor : major < 7) (hs : s.Valid)
    (hserialize : head major argument ++ payload = initial :: tail) (h : Reads s s' tail count) :
    ∃ s₁, s₁.Valid ∧ s₁.items = s.items ∧ Reads s₁ s' payload count ∧
      content errors read initial s = argumentItem errors read major argument s₁ := by
  rw [head, List.cons_append, List.cons.injEq] at hserialize
  obtain ⟨hinitial, htail⟩ := hserialize
  subst hinitial htail
  rw [← Nat.zero_add count] at h
  obtain ⟨s₁, hargument, hpayload⟩ := reads_append.mp h
  exact ⟨s₁, hargument.valid hs, hargument.items_eq, hpayload,
    content_of_head hmajor hs hargument⟩

/-- A count within the limits survives the conversion to an argument. -/
theorem toNat_ofNat_of_le (h : length ≤ maxItems) : (UInt64.ofNat length).toNat = length := by
  have hmax : maxItems < 2 ^ 64 := by decide
  rw [UInt64.toNat_ofNat', Nat.mod_eq_of_lt (by omega)]

theorem Reads.toNat_ofNat_length (h : Reads s s' bytes count) (hs : s.Valid) :
    (UInt64.ofNat bytes.length).toNat = bytes.length := by
  have hfits := hs.fits
  have hle := h.inBounds
  rw [UInt64.toNat_ofNat', Nat.mod_eq_of_lt (by omega)]

/-- Every canonical item within the limits is read from its serialization. -/
theorem content_complete (hread : ReadsItems read levels) {tail : List UInt8} (hs : s.Valid)
    (hcanonical : value.Canonical) (hdepth : value.depth ≤ levels)
    (hserialize : value.serialize = initial :: tail) (hcount : value.items = 1 + count)
    (hreads : Reads s s' tail count) (hmax : s'.items ≤ maxItems) :
    content errors read initial s = .ok (value, s') := by
  have hcount_le : s.items + count ≤ maxItems := by
    have := hreads.items_eq
    omega
  cases value with
  | unsigned value =>
    simp only [Value.items] at hcount
    obtain rfl : count = 0 := by omega
    rw [Value.serialize, ← List.append_nil (head 0 value)] at hserialize
    obtain ⟨s₁, hs₁, _, hpayload, hcontent⟩ :=
      content_of_payload (by decide) hs hserialize hreads
    rw [hcontent, (reads_nil hs₁).mp hpayload]
    rfl
  | negative argument =>
    simp only [Value.items] at hcount
    obtain rfl : count = 0 := by omega
    rw [Value.serialize, ← List.append_nil (head 1 argument)] at hserialize
    obtain ⟨s₁, hs₁, _, hpayload, hcontent⟩ :=
      content_of_payload (by decide) hs hserialize hreads
    rw [hcontent, (reads_nil hs₁).mp hpayload]
    rfl
  | bytes value =>
    simp only [Value.items] at hcount
    obtain rfl : count = 0 := by omega
    obtain ⟨s₁, hs₁, _, hpayload, hcontent⟩ :=
      content_of_payload (by decide) hs hserialize hreads
    have htake : s₁.take errors _ = .ok (value, s') :=
      (take_eq_ok hs₁).mpr ⟨(hpayload.toNat_ofNat_length hs₁).symm, hpayload⟩
    rw [hcontent]
    simp only [argumentItem, htake, ok_bind]
    rfl
  | text value =>
    simp only [Value.items] at hcount
    obtain rfl : count = 0 := by omega
    obtain ⟨s₁, hs₁, _, hpayload, hcontent⟩ :=
      content_of_payload (by decide) hs hserialize hreads
    have htake : s₁.take errors _ = .ok (Utf8.bytes value, s') :=
      (take_eq_ok hs₁).mpr ⟨(hpayload.toNat_ofNat_length hs₁).symm, hpayload⟩
    rw [hcontent]
    simp only [argumentItem, htake, ok_bind, Utf8.fromUtf8_bytes, okOr_some]
    rfl
  | array values =>
    rw [Value.items, Nat.add_left_cancel_iff] at hcount
    subst hcount
    obtain ⟨s₁, hs₁, hitems, hpayload, hcontent⟩ :=
      content_of_payload (by decide) hs hserialize hreads
    have hlen := length_le_itemsList values
    have hcount : boundedCount errors (UInt64.ofNat values.length) = .ok values.length :=
      boundedCount_eq_ok.mpr ⟨toNat_ofNat_of_le (by omega), by omega⟩
    have hvalues : elements read values.length s₁ = .ok (values, s') := by
      refine (elements_eq_ok hread hs₁ (by omega)).mpr ⟨rfl, ?_, hpayload, hmax⟩
      intro value hvalue
      exact ⟨allMapsList_iff.mp hcanonical value hvalue, depthList_le.mp hdepth value hvalue⟩
    rw [hcontent]
    simp only [argumentItem, hcount, hvalues, ok_bind]
    rfl
  | map entries =>
    rw [Value.items, Nat.add_left_cancel_iff] at hcount
    subst hcount
    obtain ⟨s₁, hs₁, hitems, hpayload, hcontent⟩ :=
      content_of_payload (by decide) hs hserialize hreads
    have hlen := length_le_itemsEntries entries
    have hcount : boundedCount errors (UInt64.ofNat entries.length) = .ok entries.length :=
      boundedCount_eq_ok.mpr ⟨toNat_ofNat_of_le (by omega), by omega⟩
    have hentries : Wire.entries errors read entries.length none s₁ = .ok (entries, s') := by
      refine (entries_eq_ok hread hs₁ (by omega)).mpr
        ⟨rfl, ⟨hcanonical.1, by simp⟩, ?_, hpayload, hmax⟩
      intro e he
      exact ⟨allMapsEntries_iff.mp hcanonical.2 e he, depthEntries_le.mp hdepth e he⟩
    rw [hcontent]
    simp only [argumentItem, map, hcount, hentries, ok_bind]
    rfl
  | bool value =>
    simp only [Value.items] at hcount
    obtain rfl : count = 0 := by omega
    rw [Value.serialize, List.cons.injEq] at hserialize
    obtain ⟨hinitial, htail⟩ := hserialize
    subst hinitial htail
    rw [(reads_nil hs).mp hreads]
    cases value <;> rfl
  | null =>
    simp only [Value.items] at hcount
    obtain rfl : count = 0 := by omega
    rw [Value.serialize, List.cons.injEq] at hserialize
    obtain ⟨hinitial, htail⟩ := hserialize
    subst hinitial htail
    rw [(reads_nil hs).mp hreads]
    rfl

theorem content_sound (hread : ReadsItems read levels) (hs : s.Valid) (hitems : s.items ≤ maxItems)
    (h : content errors read initial s = .ok (value, s')) :
    (value.Canonical ∧ value.depth ≤ levels) ∧
      (∃ tail count, value.serialize = initial :: tail ∧ value.items = 1 + count ∧
        Reads s s' tail count) ∧
      s'.items ≤ maxItems := by
  have hparts := initialByte_of_parts initial
  unfold content at h
  dsimp only at h
  split_ifs at h with h7
  · simp only [bind_eq_ok, pure_eq_ok, Prod.mk.injEq, simple_eq_ok] at h
    obtain ⟨value', hsimple, hvalue, hstate⟩ := h
    subst hvalue hstate
    rw [h7] at hparts
    have hnil : Reads s s [] 0 := (reads_nil hs).mpr rfl
    rcases hsimple with ⟨hadditional, hvalue⟩ | ⟨hadditional, hvalue⟩ | ⟨hadditional, hvalue⟩
    all_goals
      subst hvalue
      rw [hadditional] at hparts
      subst hparts
      exact ⟨⟨trivial, Nat.zero_le _⟩, ⟨[], 0, rfl, rfl, hnil⟩, hitems⟩
  · simp only [bind_eq_ok, Prod.exists, argument_eq_ok hs] at h
    obtain ⟨argument, s₁, ⟨hinfo, hargument⟩, h⟩ := h
    have hitems₁ : s₁.items ≤ maxItems := by
      rwa [hargument.items_eq]
    obtain ⟨hok, ⟨payload, count, hserialize, hcount, hreads⟩, hmax⟩ :=
      argumentItem_sound hread (hargument.valid hs) hitems₁ h
    refine ⟨hok, ⟨argumentBytes argument ++ payload, 0 + count, ?_, by omega,
      reads_append.mpr ⟨s₁, hargument, hreads⟩⟩, hmax⟩
    rw [hserialize, head, hinfo, hparts, List.cons_append]

/-- The first byte of an item, with the item counted. -/
theorem reads_cons {tail : List UInt8} :
    Reads s s' (initial :: tail) (1 + count) ↔
      ∃ s₁, Reads { s with items := s.items + 1 } s₁ [initial] 0 ∧ Reads s₁ s' tail count := by
  rw [← List.singleton_append, reads_append]
  have hfirst : ∀ s₁, Reads s s₁ [initial] 1 ↔
      Reads { s with items := s.items + 1 } s₁ [initial] 0 :=
    fun s₁ => ⟨fun h => ⟨h.isPrefix, h.inBounds, h.state⟩,
      fun h => ⟨h.isPrefix, h.inBounds, h.state⟩⟩
  simp only [hfirst]

/-- The decoder reads, at each depth, the canonical items within its limits. -/
theorem item_readsItems (errors : Errors ε) (levels : Nat) :
    ReadsItems (item errors levels) levels := by
  induction levels with
  | zero =>
    intro s s' value hs
    simp [item]
  | succ levels ih =>
    intro s s' value hs
    have hs₀ : Decoder.Valid { s with items := s.items + 1 } := ⟨hs.inBounds, hs.fits⟩
    simp only [item, bind_eq_ok, rejectIf_eq_ok, okOr_eq_ok, Prod.exists, take_eq_ok hs₀,
      exists_const, not_le]
    refine ⟨fun h => ?_, fun h => ?_⟩
    · obtain ⟨hitems, bytes, s₁, ⟨hlen, hfirst⟩, initial, hinitial, hcontent⟩ := h
      obtain ⟨b, rfl⟩ := List.length_eq_one_iff.mp hlen
      cases hinitial
      have hitems₁ : s₁.items ≤ maxItems := by
        rw [hfirst.items_eq]
        show s.items + 1 + 0 ≤ maxItems
        omega
      obtain ⟨⟨hcanonical, hdepth⟩, ⟨tail, count, hserialize, hcount, hreads⟩, hmax⟩ :=
        content_sound ih (hfirst.valid hs₀) hitems₁ hcontent
      refine ⟨⟨hcanonical, by omega⟩, ?_, hmax⟩
      rw [hserialize, hcount]
      exact reads_cons.mpr ⟨s₁, hfirst, hreads⟩
    · obtain ⟨⟨hcanonical, hdepth⟩, hreads, hmax⟩ := h
      have hpos := items_pos value
      have hitems := hreads.items_eq
      obtain ⟨count, hcount⟩ : ∃ count, value.items = 1 + count := ⟨value.items - 1, by omega⟩
      obtain ⟨initial, tail, hserialize⟩ :=
        List.exists_cons_of_length_pos (serialize_pos value)
      rw [hserialize, hcount] at hreads
      obtain ⟨s₁, hfirst, htail⟩ := reads_cons.mp hreads
      refine ⟨by omega, [initial], s₁, ⟨rfl, hfirst⟩, initial, rfl, ?_⟩
      exact content_complete ih (hfirst.valid hs₀) hcanonical (by omega) hserialize hcount
        htail hmax

/-! ## The decoder -/

/-- What the decoder's limits allow. -/
structure WithinLimits (value : Value) : Prop where
  size : value.serialize.length ≤ maxBytes
  depth : value.depth ≤ maxDepth
  items : value.items ≤ maxItems

/-- The order of the entries of a map does not count. -/
theorem withinLimits_canon : WithinLimits value.canon ↔ WithinLimits value := by
  constructor
  · intro h
    exact ⟨length_serialize_canon value ▸ h.size, depth_canon value ▸ h.depth,
      items_canon value ▸ h.items⟩
  · intro h
    exact ⟨(length_serialize_canon value).symm ▸ h.size, (depth_canon value).symm ▸ h.depth,
      (items_canon value).symm ▸ h.items⟩

/-- The values of a map are within the limits if the map is. -/
theorem WithinLimits.of_mem_map {entries : List (String × Value)}
    (h : WithinLimits (.map entries)) {e : String × Value} (he : e ∈ entries) :
    WithinLimits e.2 := by
  constructor
  · have hentry := length_entry_le_of_mem he
    have hsize := h.size
    rw [Value.serialize, List.length_append] at hsize
    omega
  · have hdepth := h.depth
    rw [Value.depth, depthEntries_le] at hdepth
    have := hdepth e he
    omega
  · have hitems := h.items
    rw [Value.items, itemsEntries_eq] at hitems
    have := List.le_sum_of_mem (List.mem_map_of_mem (f := fun e => 1 + e.2.items) he)
    omega

/-- The decoder accepts exactly the serializations of the canonical items
within its limits. -/
theorem decode_eq_ok {input : List UInt8} :
    decode errors input = .ok value ↔
      value.Canonical ∧ value.serialize = input ∧ WithinLimits value := by
  have hfits : maxBytes < 2 ^ 64 := by decide
  simp only [decode, bind_eq_ok, rejectIf_eq_ok, pure_eq_ok, Prod.exists, exists_const,
    not_or, not_lt, ne_eq, Decidable.not_not]
  refine ⟨fun h => ?_, fun h => ?_⟩
  · obtain ⟨⟨_, hsize⟩, value', s', hitem, hend, hvalue⟩ := h
    subst hvalue
    obtain ⟨⟨hcanonical, hdepth⟩, hreads, hmax⟩ :=
      (item_readsItems errors _ ⟨Nat.zero_le _, by show input.length < 2 ^ 64; omega⟩).mp hitem
    have hitems := hreads.items_eq
    have hall : value'.serialize = input := by
      have hpre := hreads.isPrefix
      rw [hreads.state] at hend
      simp only [Nat.zero_add, List.drop_zero] at hend hpre
      exact hpre.eq_of_length hend
    exact ⟨hcanonical, hall, by rw [hall]; exact hsize, by omega, by omega⟩
  · obtain ⟨hcanonical, hinput, hlimits⟩ := h
    have hsize := hlimits.size
    have hpos := serialize_pos value
    have hitems := hlimits.items
    rw [hinput] at hsize hpos
    refine ⟨⟨List.ne_nil_of_length_pos hpos, hsize⟩, value, ⟨input, input.length, value.items⟩,
      (item_readsItems errors _ ⟨Nat.zero_le _, by show input.length < 2 ^ 64; omega⟩).mpr
        ⟨⟨hcanonical, Nat.lt_succ_of_le hlimits.depth⟩, ?_, hitems⟩, rfl, rfl⟩
    rw [hinput]
    refine ⟨?_, ?_, ?_⟩
    · show input <+: List.drop 0 input
      rw [List.drop_zero]
    · show 0 + input.length ≤ input.length
      omega
    · simp only [Nat.zero_add]

end ProofboundRuntime.Wire
