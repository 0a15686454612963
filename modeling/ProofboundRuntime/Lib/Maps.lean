import Mathlib

/-!
# Finite maps

Removing several keys from a finite map, and the pairs of a map under a
property of the values.
-/

namespace ProofboundRuntime.Maps

variable {κ : Type} [DecidableEq κ] {β : Type}

/-- Removes each key in turn. -/
def eraseAll (keys : List κ) (m : Finmap fun _ : κ => β) : Finmap fun _ : κ => β :=
  keys.foldl (fun m key => m.erase key) m

variable {keys : List κ} {key : κ}

theorem mem_eraseAll {m : Finmap fun _ : κ => β} :
    key ∈ eraseAll keys m ↔ key ∉ keys ∧ key ∈ m := by
  unfold eraseAll
  induction keys generalizing m with
  | nil => simp
  | cons first keys ih =>
    rw [List.foldl_cons, ih, Finmap.mem_erase, List.mem_cons, not_or]
    tauto

variable {value : β}

theorem lookup_of_erase {m : Finmap fun _ : κ => β} {erased key : κ}
    (h : (m.erase erased).lookup key = some value) : m.lookup key = some value := by
  by_cases heq : key = erased
  · rw [heq, Finmap.lookup_erase] at h
    cases h
  · rwa [Finmap.lookup_erase_ne heq] at h

theorem lookup_of_eraseAll {m : Finmap fun _ : κ => β}
    (h : (eraseAll keys m).lookup key = some value) : m.lookup key = some value := by
  unfold eraseAll at h
  induction keys generalizing m with
  | nil => exact h
  | cons first keys ih => exact lookup_of_erase (ih h)

/-- Every value of the map has the property. -/
def AllValues (P : β → Prop) (m : Finmap fun _ : κ => β) : Prop :=
  ∀ key value, m.lookup key = some value → P value

variable {P : β → Prop} {m : Finmap fun _ : κ => β}

theorem AllValues.insert (h : AllValues P m) (hvalue : P value) :
    AllValues P (m.insert key value) := by
  intro key' value' hlookup
  by_cases heq : key' = key
  · subst heq
    rw [Finmap.lookup_insert] at hlookup
    exact Option.some.inj hlookup ▸ hvalue
  · rw [Finmap.lookup_insert_of_ne m heq] at hlookup
    exact h key' value' hlookup

theorem AllValues.erase (h : AllValues P m) (key : κ) : AllValues P (m.erase key) := by
  intro key' value' hlookup
  exact h key' value' (lookup_of_erase hlookup)

theorem AllValues.eraseAll (h : AllValues P m) (keys : List κ) :
    AllValues P (eraseAll keys m) := by
  intro key value hlookup
  exact h key value (lookup_of_eraseAll hlookup)

theorem allValues_singleton (hvalue : P value) : AllValues P (Finmap.singleton key value) := by
  intro key' value' hlookup
  have hkey := Finmap.mem_of_lookup_eq_some hlookup
  rw [Finmap.mem_singleton] at hkey
  rw [hkey, Finmap.lookup_singleton_eq] at hlookup
  exact Option.some.inj hlookup ▸ hvalue

theorem eq_empty_iff : m = ∅ ↔ ∀ key, key ∉ m := by
  constructor
  · intro h key
    rw [h]
    exact Finmap.notMem_empty
  · intro h
    apply Finmap.ext_lookup
    intro key
    rw [Finmap.lookup_eq_none.mpr (h key), Finmap.lookup_empty]

/-! ## Counters -/

/-- Counts one more occurrence of the key. -/
def bump (key : κ) (m : Finmap fun _ : κ => Nat) : Finmap fun _ : κ => Nat :=
  m.insert key ((m.lookup key).getD 0 + 1)

/-- The map holds the number of occurrences of each key of the list. -/
def Counts (m : Finmap fun _ : κ => Nat) (keys : List κ) : Prop :=
  ∀ key, m.lookup key = if key ∈ keys then some (keys.count key) else none

variable {m : Finmap fun _ : κ => Nat}

theorem Counts.getD (h : Counts m keys) (key : κ) : (m.lookup key).getD 0 = keys.count key := by
  rw [h key]
  split
  next => rfl
  next hkey => exact (List.count_eq_zero.mpr hkey).symm

theorem counts_empty : Counts (∅ : Finmap fun _ : κ => Nat) [] := by
  intro key
  simp

theorem Counts.bump (h : Counts m keys) (key : κ) : Counts (bump key m) (keys ++ [key]) := by
  intro other
  by_cases heq : other = key
  · subst heq
    rw [Maps.bump, Finmap.lookup_insert, h.getD]
    simp
  · rw [Maps.bump, Finmap.lookup_insert_of_ne _ heq, h other]
    simp [heq, List.count_append, Ne.symm heq]

theorem Counts.keys_eq (h : Counts m keys) : m.keys = keys.toFinset := by
  ext key
  rw [Finmap.mem_keys, ← Finmap.lookup_isSome, h key, List.mem_toFinset]
  split <;> simp_all

end ProofboundRuntime.Maps
