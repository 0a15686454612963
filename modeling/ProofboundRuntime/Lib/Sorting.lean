import Mathlib

/-!
# Sorting and strictly increasing lists

Sorting, the check of neighbouring elements and binary search, over an
arbitrary comparison function `cmp`.  The comparison need not tell all
elements apart: a comparison of keys is a case of it.

* `strict_iff_windowsAny`: a check of neighbours decides strict order;
* `strict_sortBy`: sorting distinct elements gives a strictly increasing list;
* `Strict.eq_of_mem_iff`: a strictly increasing list is determined by its
  elements;
* `binarySearchBy_isSome`: on a sorted list binary search finds what is there.
-/

namespace ProofboundRuntime.Sorting

variable {α : Type} {cmp : α → α → Ordering}

/-- `sort_by`: a stable sort. -/
def sortBy (cmp : α → α → Ordering) (l : List α) : List α :=
  l.insertionSort (fun a b => (cmp a b).isLE)

/-- `windows(2).any(p)`. -/
def windowsAny (p : α → α → Bool) : List α → Bool
  | a :: b :: l => p a b || windowsAny p (b :: l)
  | _ => false

/-- Every element is below all the later ones. -/
def Strict (cmp : α → α → Ordering) (l : List α) : Prop :=
  l.Pairwise (fun a b => cmp a b = .lt)

instance (l : List α) : Decidable (Strict cmp l) :=
  inferInstanceAs (Decidable (l.Pairwise (fun a b => cmp a b = .lt)))

@[simp] theorem strict_nil : Strict cmp [] := List.Pairwise.nil

variable {l : List α}

@[simp] theorem strict_cons {a : α} :
    Strict cmp (a :: l) ↔ (∀ b ∈ l, cmp a b = .lt) ∧ Strict cmp l :=
  List.pairwise_cons

/-- A map that keeps the comparison keeps strict order. -/
theorem Strict.map {β : Type} {cmp' : β → β → Ordering} {f : α → β} (h : Strict cmp l)
    (hf : ∀ a b, cmp' (f a) (f b) = cmp a b) : Strict cmp' (l.map f) := by
  rw [Strict, List.pairwise_map]
  refine List.Pairwise.imp ?_ h
  intro a b hlt
  rw [hf, hlt]

theorem sortBy_perm (l : List α) : (sortBy cmp l).Perm l :=
  List.perm_insertionSort _ l

@[simp] theorem mem_sortBy {a : α} : a ∈ sortBy cmp l ↔ a ∈ l :=
  (sortBy_perm l).mem_iff

/-- The elements of a `BTreeSet` into which these were inserted, in its order. -/
def ordered [DecidableEq α] (cmp : α → α → Ordering) (l : List α) : List α := sortBy cmp l.dedup

@[simp] theorem mem_ordered [DecidableEq α] {a : α} : a ∈ ordered cmp l ↔ a ∈ l := by
  rw [ordered, mem_sortBy, List.mem_dedup]

theorem Strict.pairwise_isLE (h : Strict cmp l) : l.Pairwise (fun a b => (cmp a b).isLE) :=
  h.imp fun hlt => by simp [hlt]

/-- A strictly increasing list is sorted already. -/
theorem Strict.sortBy_eq (h : Strict cmp l) : sortBy cmp l = l :=
  h.pairwise_isLE.insertionSort_eq

theorem Strict.pairwise_ne (h : Strict cmp l) : l.Pairwise (fun a b => cmp a b ≠ .eq) :=
  h.imp fun hlt => by simp [hlt]

/-- Sorting the images is sorting by the images. -/
theorem sortBy_map {β : Type} {cmp : β → β → Ordering} (f : α → β) (l : List α) :
    sortBy cmp (l.map f) = (sortBy (fun a b => cmp (f a) (f b)) l).map f := by
  symm
  apply List.map_insertionSort
  exact fun _ _ _ _ => Iff.rfl

/-! ## Checks of neighbours -/

theorem windowsAny_eq_false {p : α → α → Bool} :
    windowsAny p l = false ↔ l.IsChain (fun a b => p a b = false) := by
  induction l with
  | nil => simp [windowsAny]
  | cons a l ih =>
    cases l with
    | nil => simp [windowsAny]
    | cons b l => simp [windowsAny, ih]

section TransCmp

variable [Std.TransCmp cmp]

variable {l : List α}

/-- The neighbours are in strict order exactly when the whole list is. -/
theorem strict_iff_windowsAny {p : α → α → Bool} (hp : ∀ a b, p a b = false ↔ cmp a b = .lt) :
    windowsAny p l = false ↔ Strict cmp l := by
  have : IsTrans α (fun a b => cmp a b = .lt) := ⟨fun _ _ _ => Std.TransCmp.lt_trans⟩
  rw [windowsAny_eq_false, Strict, ← List.isChain_iff_pairwise]
  constructor <;> intro h
  · exact h.imp fun a b => (hp a b).mp
  · exact h.imp fun a b => (hp a b).mpr

theorem Strict.nodup (h : Strict cmp l) : l.Nodup := by
  apply List.Pairwise.imp (R := fun a b => cmp a b = .lt) _ h
  intro a b hlt heq
  subst heq
  have hself : cmp a a = .eq := Std.ReflCmp.compare_self
  simp [hself] at hlt

/-- Two strictly increasing lists of the same elements are one list. -/
theorem Strict.eq_of_perm {l l' : List α} (h : Strict cmp l) (h' : Strict cmp l')
    (hperm : l.Perm l') : l = l' := by
  apply hperm.eq_of_pairwise _ h h'
  intro a b _ _ hab hba
  have hswap : cmp a b = (cmp b a).swap := Std.OrientedCmp.eq_swap
  simp [hab, hba] at hswap

theorem Strict.eq_of_mem_iff {l l' : List α} (h : Strict cmp l) (h' : Strict cmp l')
    (hmem : ∀ a, a ∈ l ↔ a ∈ l') : l = l' :=
  h.eq_of_perm h' ((List.perm_ext_iff_of_nodup h.nodup h'.nodup).mpr hmem)

/-! ## Sorting -/

theorem sortBy_pairwise (l : List α) :
    (sortBy cmp l).Pairwise (fun a b => (cmp a b).isLE) := by
  have : IsTrans α (fun a b => (cmp a b).isLE) := ⟨fun _ _ _ => Std.TransCmp.isLE_trans⟩
  have : Std.Total (fun a b => (cmp a b).isLE = true) := by
    refine ⟨fun a b => ?_⟩
    have hswap : cmp b a = (cmp a b).swap := Std.OrientedCmp.eq_swap
    rw [hswap]
    cases cmp a b <;> simp
  exact List.pairwise_insertionSort _ l

/-- Sorting elements that the comparison tells apart gives a strictly
increasing list. -/
theorem strict_sortBy (h : l.Pairwise (fun a b => cmp a b ≠ .eq)) : Strict cmp (sortBy cmp l) := by
  have hne : (sortBy cmp l).Pairwise (fun a b => cmp a b ≠ .eq) := by
    refine (sortBy_perm l).symm.pairwise h ?_
    intro a b hab heq
    exact hab (Std.OrientedCmp.eq_symm heq)
  refine List.Pairwise.imp ?_ ((sortBy_pairwise l).and hne)
  rintro a b ⟨hle, hne⟩
  revert hle hne
  cases cmp a b <;> simp

/-! ## Ordered sets -/

section Ordered

variable [DecidableEq α]

theorem strict_ordered [Std.LawfulEqCmp cmp] (l : List α) : Strict cmp (ordered cmp l) := by
  refine strict_sortBy (List.Pairwise.imp ?_ l.nodup_dedup)
  intro a b hne heq
  exact hne (Std.LawfulEqCmp.eq_of_compare heq)

end Ordered

/-- Weak order, with neighbours that differ, is strict order. -/
theorem strict_of_isChain_ne (hle : l.Pairwise (fun a b => (cmp a b).isLE))
    (hne : l.IsChain (fun a b => cmp a b ≠ .eq)) : Strict cmp l := by
  induction l with
  | nil => exact strict_nil
  | cons a l ih =>
    rw [List.pairwise_cons] at hle
    cases l with
    | nil => simp
    | cons b l =>
      rw [List.isChain_cons_cons] at hne
      have hab : cmp a b = .lt := by
        have hle_ab := hle.1 b (by simp)
        have hne_ab := hne.1
        revert hle_ab hne_ab
        cases cmp a b <;> simp
      refine strict_cons.mpr ⟨?_, ih hle.2 hne.2⟩
      intro c hc
      rcases List.mem_cons.mp hc with rfl | hc
      · exact hab
      · exact Std.TransCmp.lt_of_lt_of_isLE hab ((List.pairwise_cons.mp hle.2).1 c hc)

/-- After a sort, a check for equal neighbours finds every duplicate. -/
theorem windowsAny_sortBy {p : α → α → Bool} (hp : ∀ a b, p a b = false ↔ cmp a b ≠ .eq) :
    windowsAny p (sortBy cmp l) = false ↔ l.Pairwise (fun a b => cmp a b ≠ .eq) := by
  rw [windowsAny_eq_false]
  constructor
  · intro h
    have hstrict := strict_of_isChain_ne (sortBy_pairwise l) (h.imp fun a b => (hp a b).mp)
    refine (sortBy_perm l).pairwise hstrict.pairwise_ne ?_
    exact fun hab heq => hab (Std.OrientedCmp.eq_symm heq)
  · intro h
    exact (strict_sortBy h).isChain.imp fun a b hlt => (hp a b).mpr (by simp [hlt])

/-- A sorted list without equal neighbours is strictly increasing, where the
comparison tells all elements apart. -/
theorem strict_sortBy_of_windowsAny [DecidableEq α] [Std.LawfulEqCmp cmp]
    (h : windowsAny (fun a b => a == b) (sortBy cmp l) = false) : Strict cmp (sortBy cmp l) := by
  have hcmp : ∀ a b : α, (a == b) = false ↔ cmp a b ≠ .eq := by
    intro a b
    simp
  rw [windowsAny_sortBy hcmp] at h
  exact strict_sortBy h

/-! ## Binary search -/

/-- The loop of `binary_search_by`: halves the window of `size` elements from
`base` until one element is left, and returns its index.  `fuel` bounds the
number of rounds. -/
def bisect (f : α → Ordering) (l : List α) : (fuel size base : Nat) → Nat
  | 0, _, base => base
  | fuel + 1, size, base =>
    if size ≤ 1 then base
    else
      let half := size / 2
      let mid := base + half
      let base := if l[mid]?.map f = some .gt then base else mid
      bisect f l fuel (size - half) base

/-- `binary_search_by`: the index of an element that `f` finds equal. -/
def binarySearchBy (f : α → Ordering) (l : List α) : Option Nat :=
  let base := bisect f l l.length l.length 0
  if l[base]?.map f = some .eq then some base else none

omit [Std.TransCmp cmp] in
/-- An index found by binary search holds an equal element. -/
theorem exists_of_binarySearchBy {f : α → Ordering} (h : (binarySearchBy f l).isSome) :
    ∃ a ∈ l, f a = .eq := by
  simp only [binarySearchBy] at h
  split at h
  next heq =>
    obtain ⟨a, ha, hfa⟩ := Option.map_eq_some_iff.mp heq
    exact ⟨a, List.mem_of_getElem? ha, hfa⟩
  next => cases h

theorem isLE_getElem (hsorted : l.Pairwise (fun a b => (cmp a b).isLE)) {i j : Nat} (hij : i ≤ j)
    (hj : j < l.length) : (cmp l[i] l[j]).isLE := by
  rcases Nat.eq_or_lt_of_le hij with rfl | hlt
  · simp [Std.ReflCmp.compare_self]
  · exact List.pairwise_iff_getElem.mp hsorted _ _ _ hj hlt

/-- The loop keeps an equal element inside its window. -/
theorem bisect_spec {target : α} (hsorted : l.Pairwise (fun a b => (cmp a b).isLE)) :
    ∀ (fuel size base i : Nat) (hi : i < l.length), size ≤ fuel →
      base + size ≤ l.length → base ≤ i → i < base + size → cmp l[i] target = .eq →
      l[bisect (cmp · target) l fuel size base]?.map (cmp · target) = some .eq := by
  intro fuel
  induction fuel with
  | zero =>
    intro size base i hi hfuel hlen hlow hhigh
    omega
  | succ fuel ih =>
    intro size base i hi hfuel hlen hlow hhigh heq
    rw [bisect]
    by_cases hsize : size ≤ 1
    · obtain rfl : base = i := by omega
      rw [if_pos hsize, List.getElem?_eq_getElem hi, Option.map_some, heq]
    · have hmid : base + size / 2 < l.length := by omega
      simp only [if_neg hsize, List.getElem?_eq_getElem hmid, Option.map_some,
        Option.some_inj]
      split
      next hgt =>
        -- The middle is above the target, so the element is in the lower half.
        refine ih _ _ i hi (by omega) (by omega) hlow ?_ heq
        by_contra hge
        have hle := Std.TransCmp.isLE_trans
          (isLE_getElem hsorted (show base + size / 2 ≤ i by omega) hi)
          (Ordering.isLE_of_eq_eq heq)
        simp [hgt] at hle
      next hngt =>
        rcases Nat.lt_or_ge i (base + size / 2) with hlt | hge
        · -- The middle lies between an equal element and the target.
          refine ih _ _ (base + size / 2) hmid (by omega) (by omega) le_rfl (by omega) ?_
          have hnlt : cmp l[base + size / 2] target ≠ .lt := by
            intro hlt'
            have := Std.TransCmp.lt_of_isLE_of_lt (isLE_getElem hsorted hlt.le hmid) hlt'
            simp [heq] at this
          revert hngt hnlt
          cases cmp l[base + size / 2] target <;> simp
        · exact ih _ _ i hi (by omega) (by omega) hge (by omega) heq

/-- On a sorted list binary search finds an equal element if there is one. -/
theorem binarySearchBy_isSome {target : α} (hsorted : l.Pairwise (fun a b => (cmp a b).isLE)) :
    (binarySearchBy (cmp · target) l).isSome ↔ ∃ a ∈ l, cmp a target = .eq := by
  refine ⟨exists_of_binarySearchBy, ?_⟩
  rintro ⟨a, ha, heq⟩
  obtain ⟨i, hi, rfl⟩ := List.getElem_of_mem ha
  have hfound := bisect_spec hsorted l.length l.length 0 i hi le_rfl (by omega)
    (Nat.zero_le i) (by omega) heq
  simp only [binarySearchBy, if_pos hfound, Option.isSome_some]

theorem not_isNone_binarySearchBy [Std.LawfulEqCmp cmp] {target : α} (h : Strict cmp l) :
    ¬(binarySearchBy (cmp · target) l).isNone ↔ target ∈ l := by
  rw [Bool.not_eq_true, Option.isNone_eq_false_iff, binarySearchBy_isSome h.pairwise_isLE]
  simp only [Std.LawfulEqCmp.compare_eq_iff_eq, exists_eq_right]

end TransCmp

end ProofboundRuntime.Sorting
