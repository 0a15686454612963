import ProofboundRuntime.Lib.Cbor.Canonical

/-!
# Maps with declared keys

A reader of a closed map checks that the map has exactly the declared keys and
then looks the values up one by one.

* `exists_values`: what passed the check is the canonical map from the declared
  keys to the values that are looked up;
* `hasExactly_sorted` and `lookup_sorted`: the check passes on such a map, and
  the values are found.
-/

namespace ProofboundRuntime.Cbor

/-- The value of the first entry with the key. -/
def lookup (entries : List (String × Value)) (name : String) : Option Value :=
  (entries.find? fun e => e.1 == name).map Prod.snd

/-- There are as many entries as names, and every name is a key. -/
def hasExactly (entries : List (String × Value)) (names : List String) : Bool :=
  entries.length == names.length &&
    names.all fun name => entries.any fun e => e.1 == name

/-- The entries of the canonical map with the given members. -/
def sorted (members : List (String × Value)) : List (String × Value) :=
  Sorting.sortBy entryCmp (members.map fun e => (e.1, e.2.canon))

theorem canon_map (members : List (String × Value)) :
    (Value.map members).canon = .map (sorted members) := by
  rw [Value.canon, canonEntries_eq, sorted]

theorem canon_array (values : List Value) :
    (Value.array values).canon = .array (values.map Value.canon) := by
  rw [Value.canon, canonList_eq]

@[simp] theorem canon_unsigned (n : UInt64) : (Value.unsigned n).canon = .unsigned n := rfl

@[simp] theorem canon_negative (n : UInt64) : (Value.negative n).canon = .negative n := rfl

@[simp] theorem canon_bytes (b : List UInt8) : (Value.bytes b).canon = .bytes b := rfl

@[simp] theorem canon_text (s : String) : (Value.text s).canon = .text s := rfl

@[simp] theorem canon_null : Value.null.canon = .null := rfl

variable {entries : List (String × Value)}

theorem canonical_map :
    (Value.map entries).Canonical ↔
      Sorting.Strict entryCmp entries ∧ ∀ e ∈ entries, e.2.Canonical := by
  unfold Value.Canonical
  rw [Value.AllMaps, allMapsEntries_iff]

theorem canonical_array {values : List Value} :
    (Value.array values).Canonical ↔ ∀ value ∈ values, value.Canonical := by
  unfold Value.Canonical
  rw [Value.AllMaps, allMapsList_iff]

theorem noDup_map :
    (Value.map entries).NoDup ↔
      (entries.map Prod.fst).Nodup ∧ ∀ e ∈ entries, e.2.NoDup := by
  unfold Value.NoDup
  rw [Value.AllMaps, allMapsEntries_iff]

theorem noDup_array {values : List Value} :
    (Value.array values).NoDup ↔ ∀ value ∈ values, value.NoDup := by
  unfold Value.NoDup
  rw [Value.AllMaps, allMapsList_iff]

/-! ## Lookups -/

@[simp] theorem lookup_nil (name : String) : lookup [] name = none := rfl

@[simp] theorem lookup_cons (key : String) (value : Value) (entries : List (String × Value))
    (name : String) :
    lookup ((key, value) :: entries) name =
      if key = name then some value else lookup entries name := by
  unfold lookup
  by_cases h : key = name <;> simp [h]

variable {name : String}

theorem mem_of_lookup {value : Value} (h : lookup entries name = some value) :
    (name, value) ∈ entries := by
  induction entries with
  | nil => simp at h
  | cons e entries ih =>
    rw [lookup_cons] at h
    split at h
    next hkey =>
      cases h
      subst hkey
      simp
    next => exact List.mem_cons_of_mem _ (ih h)

theorem lookup_of_mem {value : Value} (hnodup : (entries.map Prod.fst).Nodup)
    (h : (name, value) ∈ entries) : lookup entries name = some value := by
  induction entries with
  | nil => simp at h
  | cons e entries ih =>
    rw [List.map_cons, List.nodup_cons] at hnodup
    rw [lookup_cons]
    rcases List.mem_cons.mp h with rfl | h
    · simp
    · have hne : e.1 ≠ name := by
        intro heq
        exact hnodup.1 (heq ▸ List.mem_map_of_mem (f := Prod.fst) h)
      rw [if_neg hne]
      exact ih hnodup.2 h

theorem lookup_isSome : (lookup entries name).isSome ↔ ∃ e ∈ entries, e.1 = name := by
  unfold lookup
  simp

/-- Where no key stands twice, the order of the entries does not matter. -/
theorem lookup_perm {entries entries' : List (String × Value)} (hperm : entries.Perm entries')
    (hnodup : (entries.map Prod.fst).Nodup) (name : String) :
    lookup entries name = lookup entries' name := by
  have hnodup' := (hperm.map Prod.fst).nodup_iff.mp hnodup
  apply Option.ext
  intro value
  constructor <;> intro h
  · exact lookup_of_mem hnodup' (hperm.mem_iff.mp (mem_of_lookup h))
  · exact lookup_of_mem hnodup (hperm.mem_iff.mpr (mem_of_lookup h))

/-- A map without a repeated key is given by its keys and its lookups. -/
theorem eq_map_lookup (hnodup : (entries.map Prod.fst).Nodup) :
    entries = (entries.map Prod.fst).map fun name => (name, (lookup entries name).getD .null) := by
  rw [List.map_map]
  symm
  refine (List.map_congr_left fun e he => ?_).trans (List.map_id entries)
  rw [Function.comp_apply, lookup_of_mem hnodup he]
  rfl

theorem lookup_map_canon (members : List (String × Value)) (name : String) :
    lookup (members.map fun e => (e.1, e.2.canon)) name =
      (lookup members name).map Value.canon := by
  induction members with
  | nil => rfl
  | cons e members ih =>
    rw [List.map_cons, lookup_cons, lookup_cons, ih]
    split <;> rfl

/-! ## The canonical map -/

theorem map_fst_canon (members : List (String × Value)) :
    (members.map fun e => (e.1, e.2.canon)).map Prod.fst = members.map Prod.fst := by
  simp

theorem lookup_sorted {members : List (String × Value)}
    (hnodup : (members.map Prod.fst).Nodup) (name : String) :
    lookup (sorted members) name = (lookup members name).map Value.canon := by
  rw [← lookup_map_canon]
  refine (lookup_perm (Sorting.sortBy_perm _).symm ?_ name).symm
  rwa [map_fst_canon]

@[simp] theorem length_sorted (members : List (String × Value)) :
    (sorted members).length = members.length := by
  rw [sorted, (Sorting.sortBy_perm _).length_eq, List.length_map]

/-- The order of the members of a map does not matter. -/
theorem canon_map_perm {members members' : List (String × Value)} (hperm : members.Perm members')
    (hnodup : (members.map Prod.fst).Nodup) :
    (Value.map members).canon = (Value.map members').canon := by
  have hstrict : ∀ members : List (String × Value), (members.map Prod.fst).Nodup →
      Sorting.Strict entryCmp (sorted members) := by
    intro members hnodup
    apply Sorting.strict_sortBy
    rwa [pairwise_entryCmp_ne, map_fst_canon]
  have hnodup' := (hperm.map Prod.fst).nodup_iff.mp hnodup
  rw [canon_map, canon_map]
  congr 1
  refine (hstrict members hnodup).eq_of_perm (hstrict members' hnodup') ?_
  exact (Sorting.sortBy_perm _).trans ((hperm.map _).trans (Sorting.sortBy_perm _).symm)

theorem hasExactly_sorted {members : List (String × Value)} {names : List String}
    (hkeys : members.map Prod.fst = names) : hasExactly (sorted members) names = true := by
  subst hkeys
  rw [hasExactly, length_sorted, List.length_map, BEq.rfl, Bool.true_and, List.all_eq_true]
  intro name hname
  obtain ⟨e, he, rfl⟩ := List.mem_map.mp hname
  refine List.any_eq_true.mpr ⟨(e.1, e.2.canon), ?_, by simp⟩
  exact Sorting.mem_sortBy.mpr (List.mem_map.mpr ⟨e, he, rfl⟩)

/-- A canonical map with exactly the declared keys is the canonical map from
them to the values that are looked up. -/
theorem exists_values {names : List String} (hcanonical : (Value.map entries).Canonical)
    (hnodup : names.Nodup) (h : hasExactly entries names = true) :
    ∃ values : String → Value,
      entries = Sorting.sortBy entryCmp (names.map fun name => (name, values name)) ∧
        ∀ name ∈ names,
          lookup entries name = some (values name) ∧ (values name).Canonical := by
  rw [canonical_map] at hcanonical
  simp only [hasExactly, Bool.and_eq_true, beq_iff_eq, List.all_eq_true, List.any_eq_true]
    at h
  let values : String → Value := fun name => (lookup entries name).getD .null
  have hvalues : ∀ name ∈ names, lookup entries name = some (values name) := by
    intro name hname
    obtain ⟨value, hvalue⟩ := Option.isSome_iff_exists.mp (lookup_isSome.mpr (h.2 name hname))
    simp only [values, hvalue, Option.getD_some]
  refine ⟨values, ?_, fun name hname => ⟨hvalues name hname, ?_⟩⟩
  · -- The declared members are entries, without repetition and as many as there are entries.
    have hkeys : ((names.map fun name => (name, values name)).map Prod.fst).Nodup := by
      rw [List.map_map]
      simpa [Function.comp_def] using hnodup
    have hsub : (names.map fun name => (name, values name)) ⊆ entries := by
      intro e he
      obtain ⟨name, hname, rfl⟩ := List.mem_map.mp he
      exact mem_of_lookup (hvalues name hname)
    have hperm : (names.map fun name => (name, values name)).Perm entries :=
      ((List.Nodup.of_map _ hkeys).subperm hsub).perm_of_length_le (by simp [h.1])
    refine hcanonical.1.eq_of_perm
      (Sorting.strict_sortBy (pairwise_entryCmp_ne.mpr hkeys)) ?_
    exact hperm.symm.trans (Sorting.sortBy_perm _).symm
  · exact hcanonical.2 _ (mem_of_lookup (hvalues name hname))

end ProofboundRuntime.Cbor
