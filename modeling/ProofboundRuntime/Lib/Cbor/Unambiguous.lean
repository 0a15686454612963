import ProofboundRuntime.Lib.Cbor.ClosedMap
import ProofboundRuntime.Lib.SelfDelimiting

/-!
# Items are known from their bytes

The serialization of items whose lengths are `u64` values is self-delimiting
(`selfDelimiting_serialize`): the initial byte tells the kind of an item, and its head
the argument and where the rest begins.  Maps with one list of distinct keys that
serialize alike in canonical order have the same values, key by key (`canon_map_inj`).
-/

namespace ProofboundRuntime.Cbor

mutual

/-- Every length, at every depth, is a `u64` value. -/
def Value.Fits : Value → Prop
  | .bytes value => value.length < 2 ^ 64
  | .text value => (Utf8.bytes value).length < 2 ^ 64
  | .array values => values.length < 2 ^ 64 ∧ FitsList values
  | .map entries => entries.length < 2 ^ 64 ∧ FitsEntries entries
  | .unsigned _ => True
  | .negative _ => True
  | .bool _ => True
  | .null => True

def FitsList : List Value → Prop
  | [] => True
  | value :: values => value.Fits ∧ FitsList values

def FitsEntries : List (String × Value) → Prop
  | [] => True
  | (key, value) :: entries =>
    (Utf8.bytes key).length < 2 ^ 64 ∧ value.Fits ∧ FitsEntries entries

end

theorem fitsList_iff {values : List Value} :
    FitsList values ↔ ∀ value ∈ values, value.Fits := by
  induction values with
  | nil => simp [FitsList]
  | cons value values ih => rw [FitsList, ih, List.forall_mem_cons]

theorem fitsEntries_iff {entries : List (String × Value)} :
    FitsEntries entries ↔
      ∀ e ∈ entries, (Utf8.bytes e.1).length < 2 ^ 64 ∧ e.2.Fits := by
  induction entries with
  | nil => simp [FitsEntries]
  | cons e entries ih => rw [FitsEntries, ih, List.forall_mem_cons, and_assoc]

/-- The length of an item's serialization bounds every length in it. -/
theorem fits_of_length_serialize {value : Value} (h : value.serialize.length < 2 ^ 64) :
    value.Fits := by
  induction value with
  | bytes value =>
    rw [Value.serialize, List.length_append] at h
    exact (Nat.le_add_left ..).trans_lt h
  | text value =>
    rw [Value.serialize, textItem, List.length_append] at h
    exact (Nat.le_add_left ..).trans_lt h
  | array values ih =>
    rw [Value.serialize, List.length_append] at h
    have hlen := length_le_serializeList values
    refine ⟨by omega, fitsList_iff.mpr fun value hvalue => ih value hvalue ?_⟩
    have := length_serialize_le_of_mem hvalue
    omega
  | map entries ih =>
    rw [Value.serialize, List.length_append] at h
    have hlen := length_le_serializeEntries entries
    refine ⟨by omega, fitsEntries_iff.mpr fun e he => ?_⟩
    have hentry := length_entry_le_of_mem he
    refine ⟨?_, ih e he (by omega)⟩
    rw [textItem, List.length_append] at hentry
    omega
  | _ => trivial

theorem fits_canon {value : Value} (h : value.Fits) : value.canon.Fits := by
  induction value with
  | array values ih =>
    rw [Value.Fits, fitsList_iff] at h
    rw [canon_array, Value.Fits, fitsList_iff, List.length_map, List.forall_mem_map]
    exact ⟨h.1, fun value hvalue => ih value hvalue (h.2 value hvalue)⟩
  | map entries ih =>
    rw [Value.Fits, fitsEntries_iff] at h
    rw [Value.canon, Value.Fits, length_canonEntries, fitsEntries_iff]
    refine ⟨h.1, fun e he => ?_⟩
    rw [Sorting.mem_sortBy, canonEntries_eq] at he
    obtain ⟨e', he', rfl⟩ := List.mem_map.mp he
    exact ⟨(h.2 e' he').1, ih e' he' (h.2 e' he').2⟩
  | _ => exact h

/-! ## The kind of an item -/

/-- The major type. -/
def Value.major : Value → UInt8
  | .unsigned _ => 0
  | .negative _ => 1
  | .bytes _ => 2
  | .text _ => 3
  | .array _ => 4
  | .map _ => 5
  | .bool _ => 7
  | .null => 7

theorem head_major {major : UInt8} (hmajor : major < 8) (argument : UInt64)
    (rest : List UInt8) :
    ∃ initial tail, head major argument ++ rest = initial :: tail ∧ initial >>> 5 = major := by
  have hinfo : argumentInfo argument < 32 :=
    Std.lt_trans (argumentInfo_lt argument) (by decide)
  exact ⟨_, _, rfl, (initialByte_parts hmajor hinfo).1⟩

theorem serialize_major (value : Value) (rest : List UInt8) :
    ∃ initial tail, value.serialize ++ rest = initial :: tail ∧ initial >>> 5 = value.major := by
  cases value with
  | unsigned value | negative argument => exact head_major (by decide) _ _
  | bytes value =>
    rw [Value.serialize, List.append_assoc]
    exact head_major (by decide) _ _
  | text value =>
    rw [Value.serialize, textItem, List.append_assoc]
    exact head_major (by decide) _ _
  | array values | map entries =>
    rw [Value.serialize, List.append_assoc]
    exact head_major (by decide) _ _
  | bool value =>
    refine ⟨_, _, rfl, ?_⟩
    cases value <;> decide
  | null => exact ⟨_, _, rfl, by decide⟩

theorem major_eq {a b : Value} {rest rest' : List UInt8}
    (h : a.serialize ++ rest = b.serialize ++ rest') : a.major = b.major := by
  obtain ⟨initial, tail, heq, hmajor⟩ := serialize_major a rest
  obtain ⟨initial', tail', heq', hmajor'⟩ := serialize_major b rest'
  rw [heq, heq', List.cons.injEq] at h
  rw [← hmajor, ← hmajor', h.1]

/-! ## Reading an item off the front -/

theorem lengthHead_append_inj {major : UInt8} {m n : Nat} {x y : List UInt8}
    (hmajor : major < 8) (hm : m < 2 ^ 64) (hn : n < 2 ^ 64)
    (h : lengthHead major m ++ x = lengthHead major n ++ y) : m = n ∧ x = y := by
  obtain ⟨hargument, hrest⟩ := head_append_inj hmajor h
  refine ⟨?_, hrest⟩
  have hnat := congrArg UInt64.toNat hargument
  rwa [UInt64.toNat_ofNat_of_lt' hm, UInt64.toNat_ofNat_of_lt' hn] at hnat

theorem textItem_append_inj {j k : String} {x y : List UInt8}
    (hj : (Utf8.bytes j).length < 2 ^ 64) (hk : (Utf8.bytes k).length < 2 ^ 64)
    (h : textItem j ++ x = textItem k ++ y) : j = k ∧ x = y := by
  rw [textItem, textItem, List.append_assoc, List.append_assoc] at h
  obtain ⟨hlength, hrest⟩ := lengthHead_append_inj (by decide) hj hk h
  obtain ⟨hbytes, hrest⟩ := List.append_inj hrest hlength
  exact ⟨Utf8.bytes_injective hbytes, hrest⟩

/-- A value that can be read off the front of any bytes. -/
def Readable (a : Value) : Prop :=
  ∀ ⦃b : Value⦄ ⦃rest rest' : List UInt8⦄, a.Fits → b.Fits →
    a.serialize ++ rest = b.serialize ++ rest' → a = b ∧ rest = rest'

theorem readable (a : Value) : Readable a := by
  induction a with
  | unsigned value =>
    intro b rest rest' _ _ h
    cases b with
    | unsigned value' =>
      obtain ⟨rfl, hrest⟩ := head_append_inj (by decide) h
      exact ⟨rfl, hrest⟩
    | _ => exact absurd (major_eq h) (by simp [Value.major])
  | negative argument =>
    intro b rest rest' _ _ h
    cases b with
    | negative argument' =>
      obtain ⟨rfl, hrest⟩ := head_append_inj (by decide) h
      exact ⟨rfl, hrest⟩
    | _ => exact absurd (major_eq h) (by simp [Value.major])
  | bytes value =>
    intro b rest rest' ha hb h
    cases b with
    | bytes value' =>
      rw [Value.serialize, Value.serialize, List.append_assoc, List.append_assoc] at h
      obtain ⟨hlength, hrest⟩ := lengthHead_append_inj (by decide) ha hb h
      obtain ⟨rfl, hafter⟩ := List.append_inj hrest hlength
      exact ⟨rfl, hafter⟩
    | _ => exact absurd (major_eq h) (by simp [Value.major])
  | text value =>
    intro b rest rest' ha hb h
    cases b with
    | text value' =>
      obtain ⟨rfl, hrest⟩ := textItem_append_inj ha hb h
      exact ⟨rfl, hrest⟩
    | _ => exact absurd (major_eq h) (by simp [Value.major])
  | array values ih =>
    intro b rest rest' ha hb h
    cases b with
    | array values' =>
      rw [Value.Fits, fitsList_iff] at ha hb
      rw [Value.serialize, Value.serialize, List.append_assoc, List.append_assoc] at h
      obtain ⟨hlength, hrest⟩ := lengthHead_append_inj (by decide) ha.1 hb.1 h
      rw [serializeList_eq, serializeList_eq] at hrest
      obtain ⟨rfl, hafter⟩ := SelfDelimiting.counted_inj hlength (fun a hmem b hmem' _ _ =>
        ih a hmem (ha.2 a hmem) (hb.2 b hmem')) hrest
      exact ⟨rfl, hafter⟩
    | _ => exact absurd (major_eq h) (by simp [Value.major])
  | map entries ih =>
    intro b rest rest' ha hb h
    cases b with
    | map entries' =>
      rw [Value.Fits, fitsEntries_iff] at ha hb
      rw [Value.serialize, Value.serialize, List.append_assoc, List.append_assoc] at h
      obtain ⟨hlength, hrest⟩ := lengthHead_append_inj (by decide) ha.1 hb.1 h
      rw [serializeEntries_eq, serializeEntries_eq] at hrest
      obtain ⟨rfl, hafter⟩ := SelfDelimiting.counted_inj hlength (fun a hmem b hmem' _ _ h => by
        rw [List.append_assoc, List.append_assoc] at h
        obtain ⟨hkey, hvalue⟩ := textItem_append_inj (ha.2 a hmem).1 (hb.2 b hmem').1 h
        obtain ⟨hvalue, hrest⟩ := ih a hmem (ha.2 a hmem).2 (hb.2 b hmem').2 hvalue
        exact ⟨Prod.ext hkey hvalue, hrest⟩) hrest
      exact ⟨rfl, hafter⟩
    | _ => exact absurd (major_eq h) (by simp [Value.major])
  | bool value =>
    intro b rest rest' _ _ h
    cases b with
    | bool value' =>
      rw [Value.serialize, Value.serialize, List.singleton_append, List.singleton_append,
        List.cons.injEq] at h
      refine ⟨?_, h.2⟩
      cases value <;> cases value' <;> first | rfl | exact absurd h.1 (by decide)
    | null =>
      rw [Value.serialize, Value.serialize, List.singleton_append, List.singleton_append,
        List.cons.injEq] at h
      cases value <;> exact absurd h.1 (by decide)
    | _ => exact absurd (major_eq h) (by simp [Value.major])
  | null =>
    intro b rest rest' _ _ h
    cases b with
    | null => exact ⟨rfl, (List.cons.inj h).2⟩
    | bool value' =>
      rw [Value.serialize, Value.serialize, List.singleton_append, List.singleton_append,
        List.cons.injEq] at h
      cases value' <;> exact absurd h.1 (by decide)
    | _ => exact absurd (major_eq h) (by simp [Value.major])

theorem selfDelimiting_serialize : SelfDelimiting Value.Fits Value.serialize :=
  fun a _ _ _ ha hb h => readable a ha hb h

/-! ## Maps with the same keys -/

/-- Lists with the same distinct keys in the same order that are permutations of each
other are equal. -/
theorem eq_of_perm_of_keys {α β : Type} {l l' : List (α × β)} (hperm : l.Perm l')
    (hkeys : l.map Prod.fst = l'.map Prod.fst) (hnodup : (l.map Prod.fst).Nodup) : l = l' := by
  induction l generalizing l' with
  | nil => exact hperm.nil_eq
  | cons a l ih =>
    cases l' with
    | nil => cases hkeys
    | cons b l' =>
      rw [List.map_cons, List.map_cons, List.cons.injEq] at hkeys
      rw [List.map_cons, List.nodup_cons] at hnodup
      -- The first key occurs once, so the first entries are the same.
      have hfirst : a = b := by
        rcases List.mem_cons.mp (hperm.mem_iff.mp List.mem_cons_self) with hab | hmem
        · exact hab
        · refine absurd ?_ hnodup.1
          rw [hkeys.2]
          exact List.mem_map_of_mem hmem
      subst hfirst
      rw [ih (List.perm_cons a |>.mp hperm) hkeys.2 hnodup.2]

/-- Maps with the same keys that are the same in canonical order have the same values. -/
theorem canon_map_inj (keys : List String) {members members' : List (String × Value)}
    (h : (Value.map members).canon = (Value.map members').canon)
    (hkeys : members.map Prod.fst = keys) (hkeys' : members'.map Prod.fst = keys)
    (hnodup : keys.Nodup) :
    members.map (fun e => e.2.canon) = members'.map fun e => e.2.canon := by
  rw [canon_map, canon_map, Value.map.injEq, sorted, sorted] at h
  have hperm : (members.map fun e => (e.1, e.2.canon)).Perm
      (members'.map fun e => (e.1, e.2.canon)) := by
    have hsorted : (Sorting.sortBy entryCmp (members.map fun e => (e.1, e.2.canon))).Perm
        (members.map fun e => (e.1, e.2.canon)) := Sorting.sortBy_perm _
    rw [h] at hsorted
    exact hsorted.symm.trans (Sorting.sortBy_perm _)
  have hfst : ∀ entries : List (String × Value),
      (entries.map fun e => (e.1, e.2.canon)).map Prod.fst = entries.map Prod.fst :=
    fun entries => List.map_map
  have heq := eq_of_perm_of_keys hperm (by rw [hfst, hfst, hkeys, hkeys'])
    (by rw [hfst, hkeys]; exact hnodup)
  have hsnd := congrArg (List.map Prod.snd) heq
  rwa [List.map_map, List.map_map] at hsnd

end ProofboundRuntime.Cbor
