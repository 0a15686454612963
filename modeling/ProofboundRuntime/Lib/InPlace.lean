import ProofboundRuntime.Lib.Sorting

/-!
# Sorting and removing duplicates in place

Two loops on a vector that only swap elements: `deduplicate` moves the first of each
value to the front and cuts the rest off, and `insertionSort` moves each element back
while it comes before the one in front of it.

* `deduplicate_spec`: each value is kept once;
* `insertionSort_spec`: the elements stay, in order;
* `normalize_spec`: both together give the strictly increasing list of the values.
-/

namespace ProofboundRuntime.InPlace

open Sorting

variable {α : Type}

/-- `items.swap(i, j)`. -/
def swap (items : List α) (i j : Nat) : List α :=
  match items[i]?, items[j]? with
  | some a, some b => (items.set i b).set j a
  | _, _ => items

/-- One of the first `stop` elements is the same as the candidate. -/
def startContains (same : α → α → Bool) (items : List α) (stop candidate : Nat) : Bool :=
  match items[candidate]? with
  | some value => (items.take stop).any fun item => same item value
  | none => false

/-- A round of the loop: the vector, and where the next value is written. -/
def deduplicateStep (same : α → α → Bool) (state : List α × Nat) (read : Nat) : List α × Nat :=
  if startContains same state.1 state.2 read then state
  else (if state.2 ≠ read then swap state.1 state.2 read else state.1, state.2 + 1)

def deduplicate (same : α → α → Bool) (items : List α) : List α :=
  let state := (List.range items.length).foldl (deduplicateStep same) (items, 0)
  state.1.take state.2

/-- The inner loop: the element at `cursor` is moved back. -/
def sink (before : α → α → Bool) : List α → (cursor : Nat) → List α
  | items, 0 => items
  | items, cursor + 1 =>
    match items[cursor + 1]?, items[cursor]? with
    | some a, some b =>
      if before a b then sink before (swap items (cursor + 1) cursor) cursor else items
    | _, _ => items

def insertionSort (before : α → α → Bool) (items : List α) : List α :=
  (List.range' 1 (items.length - 1)).foldl (sink before) items

/-! ## Swaps -/

theorem swap_append (front middle back : List α) (a b : α) :
    swap (front ++ a :: (middle ++ b :: back)) front.length (front.length + 1 + middle.length) =
      front ++ b :: (middle ++ a :: back) := by
  have hfirst : (front ++ a :: (middle ++ b :: back))[front.length]? = some a := by simp
  have hsecond :
      (front ++ a :: (middle ++ b :: back))[front.length + 1 + middle.length]? = some b := by
    rw [List.getElem?_append_right (by omega),
      show front.length + 1 + middle.length - front.length = middle.length + 1 by omega]
    simp
  rw [swap, hfirst, hsecond]
  show ((front ++ a :: (middle ++ b :: back)).set front.length b).set _ a = _
  rw [List.set_append_right _ _ (le_refl _), Nat.sub_self, List.set_cons_zero,
    List.set_append_right _ _ (by omega),
    show front.length + 1 + middle.length - front.length = middle.length + 1 by omega,
    List.set_cons_succ, List.set_append_right _ _ (le_refl _), Nat.sub_self, List.set_cons_zero]

/-- The inner loop swaps neighbours, the later one first. -/
theorem swap_neighbours (front back : List α) (a b : α) :
    swap (front ++ b :: a :: back) (front.length + 1) front.length = front ++ a :: b :: back := by
  have hfirst : (front ++ b :: a :: back)[front.length]? = some b := by simp
  have hsecond : (front ++ b :: a :: back)[front.length + 1]? = some a := by
    rw [List.getElem?_append_right (by omega), Nat.add_sub_cancel_left]
    rfl
  rw [swap, hfirst, hsecond]
  show ((front ++ b :: a :: back).set (front.length + 1) b).set front.length a = _
  rw [List.set_append_right _ _ (by omega), Nat.add_sub_cancel_left,
    List.set_append_right _ _ (le_refl _), Nat.sub_self]
  rfl

/-! ## Duplicates -/

/-- After so many rounds: the values so far, each once, then elements that are not
looked at again, then the rest. -/
structure Deduplicated (items : List α) (read : Nat) (state : List α × Nat) : Prop where
  exists_split : ∃ kept skipped, state = (kept ++ skipped ++ items.drop read, kept.length) ∧
    kept.length + skipped.length = read ∧ kept.Nodup ∧ ∀ a, a ∈ kept ↔ a ∈ items.take read

section Deduplicate

variable {same : α → α → Bool} (hsame : ∀ a b, same a b = true ↔ a = b)

include hsame

theorem Deduplicated.step {items : List α} {read : Nat} {state : List α × Nat}
    (h : Deduplicated items read state) (hread : read < items.length) :
    Deduplicated items (read + 1) (deduplicateStep same state read) := by
  obtain ⟨kept, skipped, rfl, hlength, hnodup, hmem⟩ := h.exists_split
  have hdrop : items.drop read = items[read] :: items.drop (read + 1) :=
    List.drop_eq_getElem_cons hread
  have htake : ∀ a, a ∈ items.take (read + 1) ↔ a ∈ items.take read ∨ a = items[read] := by
    intro a
    rw [List.take_succ_eq_append_getElem hread, List.mem_append, List.mem_singleton]
  have hcandidate : (kept ++ skipped ++ items.drop read)[read]? = some items[read] := by
    rw [List.getElem?_append_right (by simp; omega), List.length_append, hlength, Nat.sub_self,
      hdrop]
    rfl
  have hcontains : startContains same (kept ++ skipped ++ items.drop read) kept.length read = true ↔
      items[read] ∈ kept := by
    simp only [startContains, hcandidate]
    rw [List.append_assoc, List.take_left, List.any_eq_true]
    constructor
    · rintro ⟨item, hitem, heq⟩
      rw [hsame] at heq
      exact heq ▸ hitem
    · intro hitem
      exact ⟨_, hitem, (hsame _ _).mpr rfl⟩
  unfold deduplicateStep
  split
  next hfound =>
    rw [hcontains] at hfound
    refine ⟨kept, skipped ++ [items[read]], ?_, by simp; omega, hnodup, fun a => ?_⟩
    · rw [hdrop, ← List.append_assoc kept, List.append_assoc (kept ++ skipped)]
      rfl
    · rw [htake, ← hmem]
      constructor
      · exact .inl
      · rintro (ha | rfl)
        · exact ha
        · exact hfound
  next hfound =>
    rw [hcontains] at hfound
    have hnodup' : (kept ++ [items[read]]).Nodup := by
      rw [List.nodup_append_comm, List.singleton_append, List.nodup_cons]
      exact ⟨hfound, hnodup⟩
    have hmem' : ∀ a, a ∈ kept ++ [items[read]] ↔ a ∈ items.take (read + 1) := by
      intro a
      rw [List.mem_append, List.mem_singleton, htake, hmem]
    rw [hdrop]
    cases skipped with
    | nil =>
      -- nothing was skipped: the element is in its place
      have hwrite : kept.length = read := by simpa using hlength
      refine ⟨kept ++ [items[read]], [], ?_, by simp [hwrite], hnodup', hmem'⟩
      rw [if_neg (not_not.mpr hwrite)]
      simp
    | cons skip skipped =>
      rw [List.length_cons] at hlength
      refine ⟨kept ++ [items[read]], skipped ++ [skip], ?_, by simp; omega, hnodup', hmem'⟩
      have hswap := swap_append kept skipped (items.drop (read + 1)) skip items[read]
      rw [show kept.length + 1 + skipped.length = read by omega] at hswap
      rw [if_pos (show kept.length ≠ read by omega), List.append_assoc, List.cons_append, hswap]
      simp

/-- Each value is kept once. -/
theorem deduplicate_spec (items : List α) :
    (deduplicate same items).Nodup ∧ ∀ a, a ∈ deduplicate same items ↔ a ∈ items := by
  have hrun : ∀ read, read ≤ items.length → Deduplicated items read
      ((List.range read).foldl (deduplicateStep same) (items, 0)) := by
    intro read
    induction read with
    | zero => exact fun _ => ⟨[], [], by simp, rfl, List.nodup_nil, by simp⟩
    | succ read ih =>
      intro hread
      rw [List.range_succ, List.foldl_append]
      exact (ih (by omega)).step hsame (by omega)
  obtain ⟨kept, skipped, hstate, -, hnodup, hmem⟩ := (hrun items.length le_rfl).exists_split
  rw [deduplicate, hstate, List.append_assoc, List.take_left]
  rw [List.take_length] at hmem
  exact ⟨hnodup, hmem⟩

end Deduplicate

/-! ## Order -/

section Order

variable {cmp : α → α → Ordering} [Std.TransCmp cmp] {before : α → α → Bool}
  (hbefore : ∀ a b, before a b = true ↔ cmp a b = .lt)

include hbefore

/-- The inner loop inserts an element into the sorted elements in front of it. -/
theorem sink_append (front back : List α) (a : α) :
    ∃ sorted, sink before (front ++ a :: back) front.length = sorted ++ back ∧
      sorted.Perm (a :: front) ∧
      (front.Pairwise (fun x y => (cmp x y).isLE) → sorted.Pairwise (fun x y => (cmp x y).isLE)) := by
  induction front using List.reverseRecOn generalizing back with
  | nil => exact ⟨[a], rfl, List.Perm.refl _, fun _ => List.pairwise_singleton _ _⟩
  | append_singleton front b ih =>
    have hlength : (front ++ [b]).length = front.length + 1 := by simp
    have hitems : front ++ [b] ++ a :: back = front ++ b :: a :: back := by simp
    have hfirst : (front ++ b :: a :: back)[front.length]? = some b := by simp
    have hsecond : (front ++ b :: a :: back)[front.length + 1]? = some a := by
      rw [List.getElem?_append_right (by omega), Nat.add_sub_cancel_left]
      rfl
    rw [hlength, hitems, sink, hfirst, hsecond]
    dsimp only
    split
    next hlt =>
      rw [hbefore] at hlt
      obtain ⟨sorted, hsink, hperm, hsorted⟩ := ih (b :: back)
      rw [swap_neighbours, hsink]
      refine ⟨sorted ++ [b], by simp, ?_, fun hfront => ?_⟩
      · exact (hperm.append_right [b]).trans (by simp)
      · rw [List.pairwise_append] at hfront
        refine List.pairwise_append.mpr ⟨hsorted hfront.1, List.pairwise_singleton _ _, ?_⟩
        intro x hx y hy
        rw [List.mem_singleton.mp hy]
        rcases List.mem_cons.mp (hperm.mem_iff.mp hx) with rfl | hx
        · simp [hlt]
        · exact hfront.2.2 x hx b List.mem_cons_self
    next hlt =>
      rw [hbefore] at hlt
      refine ⟨front ++ [b] ++ [a], by simp, List.perm_append_singleton a _, fun hfront => ?_⟩
      refine List.pairwise_append.mpr ⟨hfront, List.pairwise_singleton _ _, ?_⟩
      intro x hx y hy
      rw [List.mem_singleton.mp hy]
      have hba : (cmp b a).isLE := by
        have hswap : cmp b a = (cmp a b).swap := Std.OrientedCmp.eq_swap
        rw [hswap]
        revert hlt
        cases cmp a b <;> simp
      rcases List.mem_append.mp hx with hx | hx
      · exact Std.TransCmp.isLE_trans
          ((List.pairwise_append.mp hfront).2.2 x hx b List.mem_cons_self) hba
      · rwa [List.mem_singleton.mp hx]

/-- The elements stay, in order. -/
theorem insertionSort_spec (items : List α) :
    (insertionSort before items).Perm items ∧
      (insertionSort before items).Pairwise (fun x y => (cmp x y).isLE) := by
  have hrun : ∀ count, count + 1 ≤ items.length → ∃ sorted,
      (List.range' 1 count).foldl (sink before) items = sorted ++ items.drop (count + 1) ∧
        sorted.Perm (items.take (count + 1)) ∧ sorted.Pairwise (fun x y => (cmp x y).isLE) := by
    intro count
    induction count with
    | zero =>
      intro hcount
      refine ⟨items.take 1, (List.take_append_drop 1 items).symm, List.Perm.refl _, ?_⟩
      obtain ⟨a, rest, rfl⟩ := List.exists_cons_of_length_pos hcount
      exact List.pairwise_singleton _ _
    | succ count ih =>
      intro hcount
      obtain ⟨sorted, hfold, hperm, hsorted⟩ := ih (by omega)
      have hlength : sorted.length = count + 1 := by
        rw [hperm.length_eq, List.length_take]
        omega
      have hdrop : items.drop (count + 1) = items[count + 1] :: items.drop (count + 1 + 1) :=
        List.drop_eq_getElem_cons (by omega)
      obtain ⟨sorted', hsink, hperm', hsorted'⟩ :=
        sink_append hbefore sorted (items.drop (count + 1 + 1)) items[count + 1]
      refine ⟨sorted', ?_, ?_, hsorted' hsorted⟩
      · rw [List.range'_concat, List.foldl_append, hfold, hdrop]
        show sink before _ (1 + 1 * count) = _
        rw [show 1 + 1 * count = sorted.length by omega, hsink]
      · rw [List.take_succ_eq_append_getElem (by omega)]
        refine hperm'.trans ((hperm.cons _).trans ?_)
        exact (List.perm_append_singleton _ _).symm
  cases items with
  | nil => exact ⟨List.Perm.refl _, List.Pairwise.nil⟩
  | cons a rest =>
    obtain ⟨sorted, hfold, hperm, hsorted⟩ := hrun rest.length (by simp)
    have hresult : insertionSort before (a :: rest) = sorted := by
      rw [insertionSort, List.length_cons, Nat.add_sub_cancel, hfold]
      simp
    rw [hresult]
    rw [List.take_of_length_le (by simp)] at hperm
    exact ⟨hperm, hsorted⟩

end Order

/-- Both loops together give the values in strict order. -/
theorem normalize_spec {cmp : α → α → Ordering} [Std.TransCmp cmp]
    [Std.LawfulEqCmp cmp] {same before : α → α → Bool} (hsame : ∀ a b, same a b = true ↔ a = b)
    (hbefore : ∀ a b, before a b = true ↔ cmp a b = .lt) (items : List α) :
    Strict cmp (insertionSort before (deduplicate same items)) ∧
      ∀ a, a ∈ insertionSort before (deduplicate same items) ↔ a ∈ items := by
  obtain ⟨hnodup, hmem⟩ := deduplicate_spec hsame items
  obtain ⟨hperm, hsorted⟩ := insertionSort_spec hbefore (deduplicate same items)
  refine ⟨?_, fun a => (hperm.mem_iff).trans (hmem a)⟩
  have hne := hperm.symm.nodup hnodup
  refine List.Pairwise.imp ?_ (hsorted.and hne)
  intro a b hab
  obtain ⟨hle, hne⟩ := hab
  have hneq : cmp a b ≠ .eq := fun heq => hne (Std.LawfulEqCmp.eq_of_compare heq)
  revert hle hneq
  cases cmp a b <;> simp

end ProofboundRuntime.InPlace
