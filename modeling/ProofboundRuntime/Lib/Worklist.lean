import Mathlib

/-!
# Work lists

A work list over nodes that are told apart by a key.  The nodes found so far are those taken
from the list and those that wait in it; an edge of a taken node is handled by adding its
end, if no node with that key has been found.  `Progress` is the invariant of such a loop,
with one lemma for each of its moves.  When nothing waits the nodes found are explored: they
are the first ones of each key among the root and the ends of their own edges, and they have
every property that the root has and that passes along the edges.
-/

namespace ProofboundRuntime.Worklist

variable {α κ : Type} [DecidableEq κ]

/-- Adds the element unless one with its key is there. -/
def visit (key : α → κ) (found : List α) (a : α) : List α :=
  if key a ∈ found.map key then found else found ++ [a]

/-- The first element of each key. -/
def firstsBy (key : α → κ) (l : List α) : List α := l.foldl (visit key) []

variable {key : α → κ} {a b : α} {l found : List α}

theorem firstsBy_concat : firstsBy key (l ++ [a]) = visit key (firstsBy key l) a := by
  rw [firstsBy, List.foldl_append]
  rfl

theorem mem_map_visit {k : κ} :
    k ∈ (visit key found a).map key ↔ k ∈ found.map key ∨ k = key a := by
  rw [visit]
  split
  next h =>
    constructor
    · exact Or.inl
    · intro hk
      rcases hk with hk | rfl
      · exact hk
      · exact h
  next => rw [List.map_append, List.mem_append, List.map_singleton, List.mem_singleton]

theorem mem_map_firstsBy {k : κ} : k ∈ (firstsBy key l).map key ↔ k ∈ l.map key := by
  induction l using List.reverseRecOn with
  | nil => rfl
  | append_singleton l a ih =>
    rw [firstsBy_concat, mem_map_visit, ih, List.map_append, List.mem_append, List.map_singleton,
      List.mem_singleton]

theorem mem_of_mem_visit (h : b ∈ visit key found a) : b ∈ found ∨ b = a := by
  rw [visit] at h
  split at h
  · exact Or.inl h
  · rwa [List.mem_append, List.mem_singleton] at h

theorem nodup_map_firstsBy : ((firstsBy key l).map key).Nodup := by
  induction l using List.reverseRecOn with
  | nil => exact List.nodup_nil
  | append_singleton l a ih =>
    rw [firstsBy_concat, visit]
    split
    next => exact ih
    next h =>
      rw [List.map_append, List.map_singleton, List.nodup_append]
      refine ⟨ih, List.nodup_singleton _, ?_⟩
      intro k hk k' hk' heq
      rw [List.mem_singleton.mp hk'] at heq
      exact h (heq ▸ hk)

/-- The first element stays in front. -/
theorem head?_firstsBy_cons : (firstsBy key (a :: l)).head? = some a := by
  induction l using List.reverseRecOn with
  | nil => rfl
  | append_singleton l b ih =>
    rw [← List.cons_append, firstsBy_concat, visit]
    split
    · exact ih
    · rw [List.head?_append, ih, Option.some_or]

/-! ## Exploration -/

/-- The nodes of the list have every property that the root has and that passes along the edges
of the nodes taken. -/
def Least (edges : α → List α) (root : α) (taken found : List α) : Prop :=
  ∀ P : α → Prop, P root → (∀ a ∈ taken, P a → ∀ b ∈ edges a, P b) → ∀ a ∈ found, P a

/-- Everything that the root leads to has been found. -/
structure Explores (edges : α → List α) (key : α → κ) (root : α) (found : List α) : Prop where
  firsts : found = firstsBy key (root :: found.flatMap edges)
  least : Least edges root found found

/-- A loop has taken nodes, others wait, and of the edges of the last one taken there remain
these. -/
structure Progress (edges : α → List α) (key : α → κ) (root : α)
    (taken waiting rest : List α) : Prop where
  handled : ∃ handled, handled ++ rest = taken.flatMap edges ∧
    taken ++ waiting = firstsBy key (root :: handled)
  least : Least edges root taken (taken ++ waiting)

variable {edges : α → List α} {root : α} {taken waiting rest : List α}

theorem Progress.start (edges : α → List α) (key : α → κ) (root : α) :
    Progress edges key root [] [root] [] := by
  refine ⟨⟨[], rfl, rfl⟩, ?_⟩
  intro P hroot _ a ha
  rw [List.nil_append, List.mem_singleton] at ha
  exact ha ▸ hroot

theorem Progress.take (h : Progress edges key root taken (a :: waiting) []) :
    Progress edges key root (taken ++ [a]) waiting (edges a) := by
  obtain ⟨handled, hrest, hfound⟩ := h.handled
  have hsplit : taken ++ [a] ++ waiting = taken ++ a :: waiting := by simp
  constructor
  · refine ⟨handled, ?_, ?_⟩
    · rw [List.append_nil] at hrest
      rw [hrest, List.flatMap_append, List.flatMap_singleton]
    · rw [hsplit, hfound]
  · intro P hroot hclosed
    rw [hsplit]
    exact h.least P hroot fun b hb => hclosed b (List.mem_append_left _ hb)

theorem Progress.handle (h : Progress edges key root taken waiting (b :: rest)) :
    Progress edges key root taken
      (if key b ∈ (taken ++ waiting).map key then waiting else waiting ++ [b]) rest := by
  obtain ⟨handled, hrest, hfound⟩ := h.handled
  have hvisit : taken ++ (if key b ∈ (taken ++ waiting).map key then waiting else waiting ++ [b]) =
      visit key (taken ++ waiting) b := by
    rw [visit]
    split
    · rfl
    · rw [List.append_assoc]
  constructor
  · refine ⟨handled ++ [b], ?_, ?_⟩
    · rw [List.append_assoc, List.singleton_append, hrest]
    · rw [hvisit, hfound, ← firstsBy_concat, List.cons_append]
  · intro P hroot hclosed a ha
    rw [hvisit] at ha
    rcases mem_of_mem_visit ha with ha | rfl
    · exact h.least P hroot hclosed a ha
    · have hedge : a ∈ taken.flatMap edges := by
        rw [← hrest]
        exact List.mem_append_right _ List.mem_cons_self
      obtain ⟨parent, hparent, hmem⟩ := List.mem_flatMap.mp hedge
      have hP := h.least P hroot hclosed parent (List.mem_append_left _ hparent)
      exact hclosed parent hparent hP a hmem

theorem Progress.explores (h : Progress edges key root taken [] []) :
    Explores edges key root taken := by
  obtain ⟨handled, hrest, hfound⟩ := h.handled
  have hleast := h.least
  rw [List.append_nil] at hrest hfound hleast
  exact ⟨by rw [← hrest, ← hfound], hleast⟩

namespace Explores

theorem head? (h : Explores edges key root found) : found.head? = some root := by
  rw [h.firsts]
  exact head?_firstsBy_cons

theorem nodup (h : Explores edges key root found) : (found.map key).Nodup := by
  rw [h.firsts]
  exact nodup_map_firstsBy

theorem closed (h : Explores edges key root found) (ha : a ∈ found) (hb : b ∈ edges a) :
    key b ∈ found.map key := by
  rw [h.firsts, mem_map_firstsBy]
  refine List.mem_map_of_mem (List.mem_cons_of_mem _ ?_)
  exact List.mem_flatMap.mpr ⟨a, ha, hb⟩

end Explores

end ProofboundRuntime.Worklist
