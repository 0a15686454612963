import ProofboundRuntime.Lib.Cbor.Value

/-!
# Heads, keys and canonical items

The head of an item determines its argument and where it ends
(`head_append_inj`), so keys are told apart by their encodings.  Reordering
the maps of an item (`Value.canon`) keeps its size, its depth and its item
count, gives a canonical item when no map has a key twice, and changes no
item that is canonical already.
-/

namespace ProofboundRuntime.Cbor

/-! ## Heads -/

/-- The initial byte keeps its two parts apart. -/
theorem initialByte_parts {major additional : UInt8} (hmajor : major < 8)
    (hadditional : additional < 32) :
    initialByte major additional >>> 5 = major ∧
      initialByte major additional &&& 0x1f = additional := by
  have hall : ∀ m : Fin 8, ∀ a : Fin 32,
      initialByte (UInt8.ofNat m) (UInt8.ofNat a) >>> 5 = UInt8.ofNat m ∧
        initialByte (UInt8.ofNat m) (UInt8.ofNat a) &&& 0x1f = UInt8.ofNat a := by
    decide
  have hm : major.toNat < 8 := UInt8.lt_iff_toNat_lt.mp hmajor
  have ha : additional.toNat < 32 := UInt8.lt_iff_toNat_lt.mp hadditional
  simpa using hall ⟨major.toNat, hm⟩ ⟨additional.toNat, ha⟩

/-- Every byte is an initial byte. -/
theorem initialByte_of_parts (b : UInt8) : initialByte (b >>> 5) (b &&& 0x1f) = b := by
  have hall : ∀ n : Fin 256,
      initialByte (UInt8.ofNat n >>> 5) (UInt8.ofNat n &&& 0x1f) = UInt8.ofNat n := by
    decide +kernel
  simpa using hall ⟨b.toNat, b.toNat_lt⟩

/-- The five forms of a head. -/
theorem argument_cases (argument : UInt64) :
    (argument.toNat < 24 ∧ (argumentInfo argument).toNat = argument.toNat ∧
        argumentWidth argument = 0) ∨
    (24 ≤ argument.toNat ∧ argument.toNat < 256 ^ 1 ∧
        (argumentInfo argument).toNat = 24 ∧ argumentWidth argument = 1) ∨
    (256 ^ 1 ≤ argument.toNat ∧ argument.toNat < 256 ^ 2 ∧
        (argumentInfo argument).toNat = 25 ∧ argumentWidth argument = 2) ∨
    (256 ^ 2 ≤ argument.toNat ∧ argument.toNat < 256 ^ 4 ∧
        (argumentInfo argument).toNat = 26 ∧ argumentWidth argument = 4) ∨
    (256 ^ 4 ≤ argument.toNat ∧ argument.toNat < 256 ^ 8 ∧
        (argumentInfo argument).toNat = 27 ∧ argumentWidth argument = 8) := by
  have hlt := argument.toNat_lt
  unfold argumentInfo argumentWidth
  simp only [UInt64.lt_iff_toNat_lt, UInt64.reduceToNat]
  split_ifs
  · rw [UInt64.toNat_toUInt8]
    omega
  · have : (24 : UInt8).toNat = 24 := rfl
    omega
  · have : (25 : UInt8).toNat = 25 := rfl
    omega
  · have : (26 : UInt8).toNat = 26 := rfl
    omega
  · have : (27 : UInt8).toNat = 27 := rfl
    omega

theorem argumentInfo_lt (argument : UInt64) : argumentInfo argument < 28 := by
  have := argument_cases argument
  simp only [UInt8.lt_iff_toNat_lt, UInt8.reduceToNat]
  omega

/-- The argument fits the bytes that its head gives it. -/
theorem toNat_lt_of_width {argument : UInt64} (h : argumentWidth argument ≠ 0) :
    argument.toNat < 256 ^ argumentWidth argument := by
  rcases argument_cases argument with hc | hc | hc | hc | hc
  · exact absurd hc.2.2 h
  all_goals rw [hc.2.2.2]; exact hc.2.1

/-- The additional information determines the width, and an argument without
bytes of its own. -/
theorem argumentInfo_inj {a b : UInt64} (h : argumentInfo a = argumentInfo b) :
    argumentWidth a = argumentWidth b ∧ (argumentWidth a = 0 → a = b) := by
  have ha := argument_cases a
  have hb := argument_cases b
  rw [h] at ha
  refine ⟨by omega, fun hzero => UInt64.toNat_inj.mp (by omega)⟩

/-- A head determines its argument and its end. -/
theorem head_append_inj {major : UInt8} {a b : UInt64} {x y : List UInt8}
    (hmajor : major < 8) (h : head major a ++ x = head major b ++ y) :
    a = b ∧ x = y := by
  unfold head at h
  rw [List.cons_append, List.cons_append, List.cons.injEq] at h
  have hlt : ∀ c, argumentInfo c < 32 := fun c =>
    Std.lt_trans (argumentInfo_lt c) (by decide)
  have hinfo : argumentInfo a = argumentInfo b := by
    rw [← (initialByte_parts hmajor (hlt a)).2, h.1, (initialByte_parts hmajor (hlt b)).2]
  obtain ⟨hwidth, hzero⟩ := argumentInfo_inj hinfo
  obtain ⟨hbytes, hrest⟩ := List.append_inj h.2 (by simp [argumentBytes, hwidth])
  refine ⟨?_, hrest⟩
  by_cases hw : argumentWidth a = 0
  · exact hzero hw
  · apply UInt64.toNat_inj.mp
    have hb : argumentWidth b ≠ 0 := by rwa [← hwidth]
    rw [← BigEndian.ofBytes_toBytes (toNat_lt_of_width hw),
      ← BigEndian.ofBytes_toBytes (toNat_lt_of_width hb)]
    exact congrArg BigEndian.ofBytes hbytes

@[simp] theorem length_head (major : UInt8) (argument : UInt64) :
    (head major argument).length = 1 + argumentWidth argument := by
  simp [head, argumentBytes, Nat.add_comm]

/-! ## Keys -/

theorem textItem_injective : Function.Injective textItem := by
  intro j k h
  unfold textItem lengthHead at h
  exact Utf8.bytes_injective (head_append_inj (by decide) h).2

instance : Std.TransCmp entryCmp :=
  inferInstanceAs (Std.TransCmp (compareOn fun e : String × Value => textItem e.1))

@[simp] theorem keyCmp_eq_eq {j k : String} : keyCmp j k = .eq ↔ j = k := by
  rw [keyCmp, Std.LawfulEqOrd.compare_eq_iff_eq, textItem_injective.eq_iff]

variable {entries : List (String × Value)}

/-- The entries have distinct keys exactly when the comparison tells them
apart. -/
theorem pairwise_entryCmp_ne :
    entries.Pairwise (fun d e => entryCmp d e ≠ .eq) ↔
      (entries.map Prod.fst).Nodup := by
  rw [List.Nodup, List.pairwise_map]
  simp [entryCmp]

/-! ## Sizes -/

theorem serialize_pos (value : Value) : 0 < value.serialize.length := by
  cases value <;> simp [Value.serialize, textItem, lengthHead]

theorem length_le_serializeList (values : List Value) :
    values.length ≤ (serializeList values).length := by
  induction values with
  | nil => simp
  | cons value values ih =>
    have := serialize_pos value
    simp only [serializeList, List.length_append, List.length_cons]
    omega

theorem length_le_serializeEntries (entries : List (String × Value)) :
    entries.length ≤ (serializeEntries entries).length := by
  induction entries with
  | nil => simp
  | cons e entries ih =>
    have := serialize_pos e.2
    simp only [serializeEntries, List.length_append, List.length_cons]
    omega

variable {value : Value}

theorem length_serialize_le_of_mem {values : List Value} (h : value ∈ values) :
    value.serialize.length ≤ (serializeList values).length := by
  induction values with
  | nil => simp at h
  | cons first values ih =>
    rw [serializeList, List.length_append]
    rcases List.mem_cons.mp h with h | h
    · subst h
      omega
    · have := ih h
      omega

theorem length_entry_le_of_mem {e : String × Value} (h : e ∈ entries) :
    (textItem e.1).length + e.2.serialize.length ≤ (serializeEntries entries).length := by
  induction entries with
  | nil => simp at h
  | cons first entries ih =>
    rw [serializeEntries, List.length_append, List.length_append]
    rcases List.mem_cons.mp h with h | h
    · subst h
      omega
    · have := ih h
      omega

theorem items_pos (value : Value) : 0 < value.items := by
  cases value <;> simp [Value.items]

theorem length_le_itemsList (values : List Value) : values.length ≤ itemsList values := by
  induction values with
  | nil => simp
  | cons value values ih =>
    have := items_pos value
    simp only [itemsList, List.length_cons]
    omega

theorem length_le_itemsEntries (entries : List (String × Value)) :
    entries.length ≤ itemsEntries entries := by
  induction entries with
  | nil => simp
  | cons e entries ih =>
    simp only [itemsEntries, List.length_cons]
    omega

/-! ## Reordering the maps -/

theorem canonEntries_perm (entries : List (String × Value)) :
    (Sorting.sortBy entryCmp (canonEntries entries)).Perm
      (entries.map fun e => (e.1, e.2.canon)) := by
  rw [← canonEntries_eq]
  exact Sorting.sortBy_perm _

/-- A sum over the entries of a map is the same after reordering. -/
theorem sum_canonEntries {f : String × Value → Nat} (hf : ∀ e ∈ entries, f (e.1, e.2.canon) = f e) :
    ((Sorting.sortBy entryCmp (canonEntries entries)).map f).sum =
      (entries.map f).sum := by
  rw [((canonEntries_perm entries).map f).sum_eq, List.map_map]
  exact congrArg List.sum (List.map_congr_left hf)

@[simp] theorem length_canonEntries (entries : List (String × Value)) :
    (Sorting.sortBy entryCmp (canonEntries entries)).length = entries.length := by
  rw [(canonEntries_perm entries).length_eq, List.length_map]

@[simp] theorem length_serialize_canon (value : Value) :
    value.canon.serialize.length = value.serialize.length := by
  induction value with
  | array values ih =>
    simp only [Value.canon, Value.serialize, serializeList_eq, canonList_eq,
      List.length_append, List.length_map, List.length_flatMap, List.map_map]
    congr 2
    exact List.map_congr_left ih
  | map entries ih =>
    simp only [Value.canon, Value.serialize, serializeEntries_eq, List.length_append,
      length_canonEntries, List.length_flatMap]
    congr 1
    apply sum_canonEntries
    intro e he
    rw [ih e he]
  | _ => rfl

@[simp] theorem items_canon (value : Value) : value.canon.items = value.items := by
  induction value with
  | array values ih =>
    simp only [Value.canon, Value.items, itemsList_eq, canonList_eq, List.map_map]
    congr 2
    exact List.map_congr_left ih
  | map entries ih =>
    simp only [Value.canon, Value.items, itemsEntries_eq]
    congr 1
    apply sum_canonEntries
    intro e he
    rw [ih e he]
  | _ => rfl

/-- The values inside a reordered map are the reordered values. -/
theorem forall_canonEntries {p : Value → Prop} :
    (∀ e ∈ Sorting.sortBy entryCmp (canonEntries entries), p e.2) ↔
      ∀ e ∈ entries, p e.2.canon := by
  simp only [Sorting.mem_sortBy, canonEntries_eq, List.forall_mem_map]

@[simp] theorem depth_canon (value : Value) : value.canon.depth = value.depth := by
  induction value with
  | array values ih =>
    apply eq_of_forall_ge_iff
    intro n
    simp only [Value.canon, Value.depth, depthList_le, canonList_eq, List.forall_mem_map]
    exact forall₂_congr fun value hvalue => by rw [ih value hvalue]
  | map entries ih =>
    apply eq_of_forall_ge_iff
    intro n
    simp only [Value.canon, Value.depth, depthEntries_le,
      forall_canonEntries (p := fun value => value.depth + 1 ≤ n)]
    exact forall₂_congr fun e he => by rw [ih e he]
  | _ => rfl

/-- Without duplicate keys, reordering gives a canonical item. -/
theorem canonical_canon (h : value.NoDup) : value.canon.Canonical := by
  unfold Value.NoDup at h
  unfold Value.Canonical
  induction value with
  | array values ih =>
    simp only [Value.canon, Value.AllMaps, allMapsList_iff, canonList_eq,
      List.forall_mem_map] at h ⊢
    exact fun value hvalue => ih value hvalue (h value hvalue)
  | map entries ih =>
    simp only [Value.canon, Value.AllMaps, allMapsEntries_iff, forall_canonEntries] at h ⊢
    refine ⟨?_, fun e he => ih e he (h.2 e he)⟩
    apply Sorting.strict_sortBy
    rw [pairwise_entryCmp_ne, canonEntries_eq, List.map_map]
    exact h.1
  | _ => exact h

/-- A canonical item is in order already. -/
theorem Value.Canonical.canon_eq (h : value.Canonical) : value.canon = value := by
  unfold Value.Canonical at h
  induction value with
  | array values ih =>
    simp only [Value.AllMaps, allMapsList_iff] at h
    rw [Value.canon, canonList_eq, List.map_congr_left (fun v hv => ih v hv (h v hv)),
      List.map_id']
  | map entries ih =>
    simp only [Value.AllMaps, allMapsEntries_iff] at h
    have hsame : canonEntries entries = entries := by
      rw [canonEntries_eq]
      refine (List.map_congr_left fun e he => ?_).trans (List.map_id' entries)
      rw [ih e he (h.2 e he)]
    rw [Value.canon, hsame, h.1.sortBy_eq]
  | _ => rfl

/-- A canonical item has no duplicate key. -/
theorem Value.Canonical.noDup (h : value.Canonical) : value.NoDup := by
  unfold Value.Canonical at h
  unfold Value.NoDup
  induction value with
  | array values ih =>
    simp only [Value.AllMaps, allMapsList_iff] at h ⊢
    exact fun value hvalue => ih value hvalue (h value hvalue)
  | map entries ih =>
    simp only [Value.AllMaps, allMapsEntries_iff] at h ⊢
    exact ⟨pairwise_entryCmp_ne.mp h.1.pairwise_ne, fun e he => ih e he (h.2 e he)⟩
  | _ => exact h

end ProofboundRuntime.Cbor
