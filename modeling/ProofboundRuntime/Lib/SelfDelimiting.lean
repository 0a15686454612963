import Mathlib

/-!
# Self-delimiting encodings

An encoding is self-delimiting on the values with `P` when a value can be read off the
front of any bytes that start with its encoding.  Such encodings stay unambiguous when
they are written one after the other (`SelfDelimiting.flatMap_inj`).
-/

namespace ProofboundRuntime

variable {α β : Type}

/-- A value with `P` and what follows it can be told from the symbols. -/
def SelfDelimiting (P : α → Prop) (encode : α → List β) : Prop :=
  ∀ ⦃a b : α⦄ ⦃rest rest' : List β⦄, P a → P b →
    encode a ++ rest = encode b ++ rest' → a = b ∧ rest = rest'

namespace SelfDelimiting

variable {P : α → Prop} {encode : α → List β}

theorem inj (h : SelfDelimiting P encode) {a b : α} (ha : P a) (hb : P b)
    (heq : encode a = encode b) : a = b :=
  (h ha hb (congrArg (· ++ []) heq)).1

/-- Blocks of one length can be told apart. -/
theorem of_length {width : Nat} (hlength : ∀ a, (encode a).length = width)
    (hinj : Function.Injective encode) : SelfDelimiting P encode := by
  intro a b rest rest' _ _ h
  obtain ⟨hblock, hrest⟩ := List.append_inj h (by rw [hlength, hlength])
  exact ⟨hinj hblock, hrest⟩

/-- Two sequences of one length can be told when their values can. -/
theorem counted_inj {as bs : List α} {rest rest' : List β} (hlength : as.length = bs.length)
    (hread : ∀ a ∈ as, ∀ b ∈ bs, ∀ ⦃rest rest' : List β⦄,
      encode a ++ rest = encode b ++ rest' → a = b ∧ rest = rest')
    (heq : as.flatMap encode ++ rest = bs.flatMap encode ++ rest') : as = bs ∧ rest = rest' := by
  induction as generalizing bs with
  | nil =>
    cases bs with
    | nil => exact ⟨rfl, heq⟩
    | cons b bs => cases hlength
  | cons a as ih =>
    cases bs with
    | nil => cases hlength
    | cons b bs =>
      rw [List.flatMap_cons, List.flatMap_cons, List.append_assoc, List.append_assoc] at heq
      obtain ⟨rfl, htail⟩ := hread a List.mem_cons_self b List.mem_cons_self heq
      obtain ⟨rfl, hrest⟩ := ih (Nat.succ.inj hlength) (fun a ha b hb =>
        hread a (List.mem_cons_of_mem _ ha) b (List.mem_cons_of_mem _ hb)) htail
      exact ⟨rfl, hrest⟩

/-- A sequence of values can be told from its symbols. -/
theorem flatMap_inj (h : SelfDelimiting P encode) (hne : ∀ a, encode a ≠ [])
    {as bs : List α} (has : ∀ a ∈ as, P a) (hbs : ∀ b ∈ bs, P b)
    (heq : as.flatMap encode = bs.flatMap encode) : as = bs := by
  induction as generalizing bs with
  | nil =>
    cases bs with
    | nil => rfl
    | cons b bs =>
      rw [List.flatMap_nil, List.flatMap_cons] at heq
      exact absurd (List.append_eq_nil_iff.mp heq.symm).1 (hne b)
  | cons a as ih =>
    cases bs with
    | nil =>
      rw [List.flatMap_nil, List.flatMap_cons] at heq
      exact absurd (List.append_eq_nil_iff.mp heq).1 (hne a)
    | cons b bs =>
      rw [List.flatMap_cons, List.flatMap_cons] at heq
      obtain ⟨hhead, htail⟩ := h (has a List.mem_cons_self) (hbs b List.mem_cons_self) heq
      rw [hhead, ih (fun a ha => has a (List.mem_cons_of_mem _ ha))
        (fun b hb => hbs b (List.mem_cons_of_mem _ hb)) htail]

end SelfDelimiting

end ProofboundRuntime
