import Mathlib

/-!
# Loops

A loop whose rounds go on with a state or leave with a result.  `Leaves round s r` says
that the loop leaves with `r`; a loop leaves with one result at most (`Leaves.unique`),
and with one when every round lowers a measure (`exists_leaves`).  What each round keeps
holds where the loop leaves (`Leaves.exists_last`).
-/

namespace ProofboundRuntime

/-- What one round of a loop does. -/
inductive Round (σ ρ : Type) where
  | next (state : σ)
  | leave (result : ρ)
deriving DecidableEq

namespace Loop

variable {σ ρ : Type}

/-- The loop in at most so many rounds. -/
def run (round : σ → Round σ ρ) : Nat → σ → Option ρ
  | 0, _ => none
  | rounds + 1, s =>
    match round s with
    | .next s' => run round rounds s'
    | .leave r => some r

/-- The states of these rounds. -/
def visited (round : σ → Round σ ρ) : Nat → σ → List σ
  | 0, _ => []
  | rounds + 1, s =>
    s :: match round s with
      | .next s' => visited round rounds s'
      | .leave _ => []

/-- The loop leaves with the result after some number of rounds. -/
def Leaves (round : σ → Round σ ρ) (s : σ) (r : ρ) : Prop := ∃ rounds, run round rounds s = some r

variable {round : σ → Round σ ρ} {s s' : σ} {r r' : ρ}

theorem leaves_of_leave (h : round s = .leave r) : Leaves round s r' ↔ r = r' := by
  constructor
  · intro ⟨rounds, hrun⟩
    cases rounds with
    | zero => cases hrun
    | succ rounds =>
      rw [run, h] at hrun
      exact Option.some.inj hrun
  · rintro rfl
    exact ⟨1, by rw [run, h]⟩

theorem leaves_of_next (h : round s = .next s') : Leaves round s r ↔ Leaves round s' r := by
  constructor
  · intro ⟨rounds, hrun⟩
    cases rounds with
    | zero => cases hrun
    | succ rounds =>
      rw [run, h] at hrun
      exact ⟨rounds, hrun⟩
  · intro ⟨rounds, hrun⟩
    exact ⟨rounds + 1, by rw [run, h]; exact hrun⟩

/-- Induction over the rounds of a loop that leaves with `r`. -/
@[elab_as_elim]
theorem Leaves.induction {motive : ∀ s, Leaves round s r → Prop}
    (leave : ∀ s (hround : round s = .leave r), motive s ((leaves_of_leave hround).mpr rfl))
    (next : ∀ s s' (hround : round s = .next s') (h : Leaves round s' r), motive s' h →
      motive s ((leaves_of_next hround).mpr h))
    (h : Leaves round s r) : motive s h := by
  obtain ⟨rounds, hrun⟩ := h
  induction rounds generalizing s with
  | zero => cases hrun
  | succ rounds ih =>
    rw [run] at hrun
    cases hround : round s with
    | next s' =>
      rw [hround] at hrun
      exact next s s' hround ⟨rounds, hrun⟩ (ih hrun)
    | leave r' =>
      rw [hround] at hrun
      exact leave s (Option.some.inj hrun ▸ hround)

theorem Leaves.unique (h : Leaves round s r) (h' : Leaves round s r') : r = r' := by
  induction h using Leaves.induction with
  | leave s hround => exact (leaves_of_leave hround).mp h'
  | next s s' hround _ ih => exact ih ((leaves_of_next hround).mp h')

/-- What every round keeps holds in the last one. -/
theorem Leaves.exists_last {Inv : σ → Prop} (h : Leaves round s r) (hs : Inv s)
    (hnext : ∀ s s', Inv s → round s = .next s' → Inv s') :
    ∃ last, Inv last ∧ round last = .leave r := by
  induction h using Leaves.induction with
  | leave s hround => exact ⟨s, hs, hround⟩
  | next s s' hround _ ih => exact ih (hnext s s' hs hround)

/-- A counter that a loop raises in the rounds with `p` counts these rounds. -/
theorem exists_last_count {count : σ → Nat} {p : σ → Bool} {rounds : Nat}
    (h : run round rounds s = some r)
    (hnext : ∀ s s', round s = .next s' → count s' = count s + (p s).toNat) :
    ∃ last, round last = .leave r ∧
      count last + (p last).toNat = count s + (visited round rounds s).countP p := by
  induction rounds generalizing s with
  | zero => cases h
  | succ rounds ih =>
    rw [run] at h
    rw [visited, List.countP_cons]
    have hp : (if p s = true then 1 else 0) = (p s).toNat := by cases p s <;> rfl
    cases hround : round s with
    | leave r' =>
      rw [hround] at h
      refine ⟨s, Option.some.inj h ▸ hround, ?_⟩
      rw [hp]
      dsimp only
      rw [List.countP_nil, Nat.zero_add]
    | next s' =>
      rw [hround] at h
      obtain ⟨last, hlast, hcount⟩ := ih h
      refine ⟨last, hlast, ?_⟩
      rw [hcount, hnext s s' hround, hp]
      dsimp only
      omega

/-- A loop whose rounds lower a measure leaves. -/
theorem exists_leaves {β : Type} {lt : β → β → Prop} (wf : WellFounded lt) (measure : σ → β)
    (hnext : ∀ s s', round s = .next s' → lt (measure s') (measure s)) (s : σ) :
    ∃ r, Leaves round s r := by
  have hwf : WellFounded (InvImage lt measure) := InvImage.wf measure wf
  induction s using hwf.induction with
  | _ s ih =>
    cases hround : round s with
    | leave r => exact ⟨r, (leaves_of_leave hround).mpr rfl⟩
    | next s' =>
      obtain ⟨r, hr⟩ := ih s' (hnext s s' hround)
      exact ⟨r, (leaves_of_next hround).mpr hr⟩

/-- A measure bounds the rounds. -/
theorem exists_run_eq {measure : σ → Nat}
    (hnext : ∀ s s', round s = .next s' → measure s' < measure s) {rounds : Nat}
    (h : measure s < rounds) : ∃ r, run round rounds s = some r := by
  induction rounds generalizing s with
  | zero => omega
  | succ rounds ih =>
    rw [run]
    cases hround : round s with
    | leave r => exact ⟨r, rfl⟩
    | next s' =>
      have hless := hnext s s' hround
      exact ih (by omega)

end Loop

end ProofboundRuntime
