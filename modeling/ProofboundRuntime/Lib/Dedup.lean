import ProofboundRuntime.Lib.Sorting

/-!
# Removing neighbours that are alike

`dedup_by` keeps the first of each run of elements that are alike.  On a list
sorted by a key and then by something else, this is the least element of each key:
`dedupBy_strict` and `exists_mem_dedupBy`.
-/

namespace ProofboundRuntime.Sorting

variable {α κ : Type} {same : α → α → Bool}

/-- The elements after `last`, which was kept. -/
def dedupAfter (same : α → α → Bool) (last : α) : List α → List α
  | [] => []
  | a :: l => if same a last then dedupAfter same last l else a :: dedupAfter same a l

/-- `dedup_by`. -/
def dedupBy (same : α → α → Bool) : List α → List α
  | [] => []
  | a :: l => a :: dedupAfter same a l

theorem dedupAfter_sublist (last : α) (l : List α) : (dedupAfter same last l).Sublist l := by
  induction l generalizing last with
  | nil => exact List.Sublist.slnil
  | cons a l ih =>
    rw [dedupAfter]
    split
    · exact (ih last).cons a
    · exact (ih a).cons_cons a

theorem dedupBy_sublist (l : List α) : (dedupBy same l).Sublist l := by
  cases l with
  | nil => exact List.Sublist.slnil
  | cons a l => exact (dedupAfter_sublist a l).cons_cons a

theorem mem_of_mem_dedupBy {a : α} {l : List α} (h : a ∈ dedupBy same l) : a ∈ l :=
  (dedupBy_sublist l).subset h

section Key

variable {key : α → κ} {cmp : κ → κ → Ordering}
  (hsame : ∀ a b, same a b = true ↔ key a = key b)

include hsame

/-- Every element is alike a kept one that is not after it. -/
theorem exists_mem_dedupAfter {R : α → α → Prop} {last : α} {l : List α}
    (hsorted : (last :: l).Pairwise R) {a : α} (ha : a ∈ l) :
    ∃ b ∈ last :: dedupAfter same last l, key b = key a ∧ (b = a ∨ R b a) := by
  induction l generalizing last with
  | nil => cases ha
  | cons c l ih =>
    rw [List.pairwise_cons, List.pairwise_cons] at hsorted
    rw [dedupAfter]
    by_cases hc : same c last = true
    · rw [if_pos hc]
      rcases List.mem_cons.mp ha with rfl | ha
      · exact ⟨last, List.mem_cons_self, ((hsame a last).mp hc).symm,
          .inr (hsorted.1 a List.mem_cons_self)⟩
      · have hrest : (last :: l).Pairwise R := List.pairwise_cons.mpr
          ⟨fun b hb => hsorted.1 b (List.mem_cons_of_mem c hb), hsorted.2.2⟩
        exact ih hrest ha
    · rw [if_neg hc]
      rcases List.mem_cons.mp ha with rfl | ha
      · exact ⟨a, by simp, rfl, .inl rfl⟩
      · obtain ⟨b, hb, hkey⟩ := ih (List.pairwise_cons.mpr hsorted.2) ha
        exact ⟨b, List.mem_cons_of_mem last hb, hkey⟩

theorem exists_mem_dedupBy {R : α → α → Prop} {l : List α} (hsorted : l.Pairwise R) {a : α}
    (ha : a ∈ l) : ∃ b ∈ dedupBy same l, key b = key a ∧ (b = a ∨ R b a) := by
  cases l with
  | nil => cases ha
  | cons c l =>
    rcases List.mem_cons.mp ha with rfl | ha
    · exact ⟨a, List.mem_cons_self, rfl, .inl rfl⟩
    · exact exists_mem_dedupAfter hsame hsorted ha

variable [Std.TransCmp cmp] [Std.LawfulEqCmp cmp]

/-- The kept keys after `last` are above it, each one above those before it. -/
theorem dedupAfter_strict {last : α} {l : List α}
    (hsorted : (last :: l).Pairwise fun a b => (cmp (key a) (key b)).isLE) :
    Strict cmp ((last :: dedupAfter same last l).map key) := by
  induction l generalizing last with
  | nil => simp [dedupAfter]
  | cons c l ih =>
    rw [List.pairwise_cons, List.pairwise_cons] at hsorted
    rw [dedupAfter]
    by_cases hc : same c last = true
    · rw [if_pos hc]
      refine ih (List.pairwise_cons.mpr ⟨fun b hb => ?_, hsorted.2.2⟩)
      exact hsorted.1 b (List.mem_cons_of_mem c hb)
    · rw [if_neg hc, List.map_cons, strict_cons]
      have hrest := ih (List.pairwise_cons.mpr hsorted.2)
      refine ⟨fun k hk => ?_, hrest⟩
      have hlt : cmp (key last) (key c) = .lt := by
        have hle := hsorted.1 c List.mem_cons_self
        have hne : cmp (key last) (key c) ≠ .eq := by
          intro heq
          exact hc ((hsame c last).mpr (Std.LawfulEqCmp.eq_of_compare heq).symm)
        revert hle hne
        cases cmp (key last) (key c) <;> simp
      rw [List.map_cons, List.mem_cons] at hk
      rcases hk with rfl | hk
      · exact hlt
      · rw [List.map_cons, strict_cons] at hrest
        exact Std.TransCmp.lt_trans hlt (hrest.1 k hk)

theorem dedupBy_strict {l : List α}
    (hsorted : l.Pairwise fun a b => (cmp (key a) (key b)).isLE) :
    Strict cmp ((dedupBy same l).map key) := by
  cases l with
  | nil => exact strict_nil
  | cons a l => exact dedupAfter_strict hsame hsorted

end Key

section Plain

variable [BEq α] [LawfulBEq α] {cmp : α → α → Ordering} [Std.TransCmp cmp] {l : List α}

omit [Std.TransCmp cmp] in
theorem beq_iff_id (a b : α) : (a == b) = true ↔ id a = id b := beq_iff_eq

/-- `dedup` after a sort keeps every element. -/
theorem mem_dedupBy_sortBy {a : α} : a ∈ dedupBy (· == ·) (sortBy cmp l) ↔ a ∈ l := by
  constructor
  · intro ha
    exact mem_sortBy.mp (mem_of_mem_dedupBy ha)
  · intro ha
    have hsorted : (sortBy cmp l).Pairwise fun a b => (cmp a b).isLE := sortBy_pairwise l
    obtain ⟨b, hb, heq, -⟩ := exists_mem_dedupBy beq_iff_id hsorted (mem_sortBy.mpr ha)
    exact (show b = a from heq) ▸ hb

theorem strict_dedupBy_sortBy [Std.LawfulEqCmp cmp] (l : List α) :
    Strict cmp (dedupBy (· == ·) (sortBy cmp l)) := by
  have hsorted : (sortBy cmp l).Pairwise fun a b => (cmp a b).isLE := sortBy_pairwise l
  have hstrict : Strict cmp ((dedupBy (· == ·) (sortBy cmp l)).map id) :=
    dedupBy_strict beq_iff_id hsorted
  rwa [List.map_id] at hstrict

end Plain

end ProofboundRuntime.Sorting
