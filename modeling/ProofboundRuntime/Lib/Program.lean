import Mathlib

/-!
# Programs that make calls

A program makes calls, goes on with their answers and ends with a result.

* Programs and their combinators.  `attempt` turns a failure into a value, and
  `onError` goes on after it.
* Running a program on a machine that answers its calls.  `Throughout` says what
  holds in every state of the machine on the way and at the end.
* A machine that gives any answers.
-/

namespace ProofboundRuntime

/-! ## Programs -/

/-- A program over calls with answers that fails with `ε` or returns `α`. -/
inductive Program (Call : Type) (Answer : Call → Type) (ε α : Type) where
  | done (result : Except ε α)
  | call (c : Call) (next : Answer c → Program Call Answer ε α)

namespace Program

variable {Call : Type} {Answer : Call → Type} {ε ε' α β : Type}

protected def bind : Program Call Answer ε α → (α → Program Call Answer ε β) →
    Program Call Answer ε β
  | .done (.ok a), f => f a
  | .done (.error e), _ => .done (.error e)
  | .call c next, f => .call c fun answer => (next answer).bind f

instance : Monad (Program Call Answer ε) where
  pure a := .done (.ok a)
  bind := Program.bind

/-- One call. -/
def perform (c : Call) : Program Call Answer ε (Answer c) :=
  .call c fun answer => .done (.ok answer)

/-- A result without a call. -/
def lift (result : Except ε α) : Program Call Answer ε α := .done result

def fail (e : ε) : Program Call Answer ε α := .done (.error e)

/-- A failure becomes a value. -/
def attempt : Program Call Answer ε α → Program Call Answer ε' (Except ε α)
  | .done result => .done (.ok result)
  | .call c next => .call c fun answer => (next answer).attempt

/-- The handler goes on after a failure. -/
def onError (x : Program Call Answer ε α) (handler : ε → Program Call Answer ε' α) :
    Program Call Answer ε' α := do
  match ← x.attempt with
  | .ok a => pure a
  | .error e => handler e

/-! ## Machines -/

section Machine

variable {σ : Type} (handle : σ → (c : Call) → Answer c × σ)

/-- The result of a program, and the state of the machine at its end. -/
def run : Program Call Answer ε α → σ → Except ε α × σ
  | .done result, s => (result, s)
  | .call c next, s => run (next (handle s c).1) (handle s c).2

/-- The states before and after every call. -/
def visited : Program Call Answer ε α → σ → List σ
  | .done _, s => [s]
  | .call c next, s => s :: visited (next (handle s c).1) (handle s c).2

variable {handle} {s s' : σ}

@[simp] theorem run_pure (a : α) :
    run handle (Pure.pure a : Program Call Answer ε α) s = (.ok a, s) := rfl

@[simp] theorem run_fail (e : ε) :
    run handle (fail e : Program Call Answer ε α) s = (.error e, s) := rfl

@[simp] theorem run_lift (result : Except ε α) :
    run handle (lift result : Program Call Answer ε α) s = (result, s) := rfl

@[simp] theorem run_perform_bind (c : Call) (f : Answer c → Program Call Answer ε β) :
    run handle (perform c >>= f) s = run handle (f (handle s c).1) (handle s c).2 := rfl

variable {x : Program Call Answer ε α}

theorem run_bind_of_ok {f : α → Program Call Answer ε β} {a : α}
    (h : run handle x s = (.ok a, s')) : run handle (x >>= f) s = run handle (f a) s' := by
  induction x generalizing s with
  | done result =>
    cases h
    rfl
  | call c next ih => exact ih (handle s c).1 h

theorem run_bind_of_error {f : α → Program Call Answer ε β} {e : ε}
    (h : run handle x s = (.error e, s')) : run handle (x >>= f) s = (.error e, s') := by
  induction x generalizing s with
  | done result =>
    cases h
    rfl
  | call c next ih => exact ih (handle s c).1 h

/-- A program that succeeds before another is run has succeeded itself. -/
theorem run_bind_eq_ok {f : α → Program Call Answer ε β} {b : β}
    (h : run handle (x >>= f) s = (.ok b, s')) :
    ∃ a s₁, run handle x s = (.ok a, s₁) ∧ run handle (f a) s₁ = (.ok b, s') := by
  rcases hx : run handle x s with ⟨e | a, s₁⟩
  · simp [run_bind_of_error hx] at h
  · exact ⟨a, s₁, rfl, (run_bind_of_ok hx).symm.trans h⟩

theorem run_attempt (x : Program Call Answer ε α) :
    run handle (x.attempt : Program Call Answer ε' (Except ε α)) s =
      (.ok (run handle x s).1, (run handle x s).2) := by
  induction x generalizing s with
  | done result => rfl
  | call c next ih => exact ih (handle s c).1

theorem run_attempt_bind (x : Program Call Answer ε α) (f : Except ε α → Program Call Answer ε' β) :
    run handle (x.attempt >>= f) s = run handle (f (run handle x s).1) (run handle x s).2 :=
  run_bind_of_ok (run_attempt x)

theorem run_onError_of_ok {handler : ε → Program Call Answer ε' α} {a : α}
    (h : run handle x s = (.ok a, s')) : run handle (x.onError handler) s = (.ok a, s') := by
  rw [onError, run_attempt_bind, h]
  rfl

theorem run_onError_of_error {handler : ε → Program Call Answer ε' α} {e : ε}
    (h : run handle x s = (.error e, s')) :
    run handle (x.onError handler) s = run handle (handler e) s' := by
  rw [onError, run_attempt_bind, h]

/-- Every state satisfies `J`, and the result with the last state satisfies `Q`. -/
def Throughout (handle : σ → (c : Call) → Answer c × σ) (J : σ → Prop)
    (Q : Except ε α → σ → Prop) (program : Program Call Answer ε α) (s : σ) : Prop :=
  (∀ s' ∈ visited handle program s, J s') ∧ Q (run handle program s).1 (run handle program s).2

section

variable {J : σ → Prop} {Q : Except ε α → σ → Prop} {R : Except ε β → σ → Prop}

@[simp] theorem throughout_done (result : Except ε α) :
    Throughout handle J Q (.done result) s ↔ J s ∧ Q result s := by
  simp [Throughout, visited, run]

@[simp] theorem throughout_pure (a : α) :
    Throughout handle J Q (Pure.pure a) s ↔ J s ∧ Q (.ok a) s :=
  throughout_done (.ok a)

@[simp] theorem throughout_fail (e : ε) :
    Throughout handle J Q (fail e) s ↔ J s ∧ Q (.error e) s :=
  throughout_done (.error e)

theorem throughout_call {c : Call} {next : Answer c → Program Call Answer ε α} :
    Throughout handle J Q (.call c next) s ↔
      J s ∧ Throughout handle J Q (next (handle s c).1) (handle s c).2 := by
  simp [Throughout, visited, run, and_assoc]

@[simp] theorem throughout_perform_bind {c : Call} {f : Answer c → Program Call Answer ε α} :
    Throughout handle J Q (perform c >>= f) s ↔
      J s ∧ Throughout handle J Q (f (handle s c).1) (handle s c).2 :=
  throughout_call

theorem Throughout.holds {program : Program Call Answer ε α}
    (h : Throughout handle J Q program s) : J s := by
  cases program with
  | done result => exact (throughout_done result |>.mp h).1
  | call c next => exact (throughout_call.mp h).1

/-- A program is followed by another where it succeeds. -/
theorem throughout_bind {x : Program Call Answer ε α} {f : α → Program Call Answer ε β} :
    Throughout handle J R (x >>= f) s ↔ Throughout handle J (fun result s =>
      match result with
      | .ok a => Throughout handle J R (f a) s
      | .error e => R (.error e) s) x s := by
  induction x generalizing s with
  | done result =>
    cases result with
    | ok a =>
      rw [throughout_done]
      exact ⟨fun h => ⟨Throughout.holds h, h⟩, fun h => h.2⟩
    | error e =>
      rw [throughout_done]
      exact throughout_fail e
  | call c next ih => exact throughout_call.trans ((and_congr_right fun _ => ih _).trans
      throughout_call.symm)

@[simp] theorem throughout_attempt_bind {x : Program Call Answer ε α}
    {f : Except ε α → Program Call Answer ε' β} {R : Except ε' β → σ → Prop} :
    Throughout handle J R (x.attempt >>= f) s ↔
      Throughout handle J (fun result s => Throughout handle J R (f result) s) x s := by
  induction x generalizing s with
  | done result =>
    rw [throughout_done]
    exact ⟨fun h => ⟨Throughout.holds h, h⟩, fun h => h.2⟩
  | call c next ih => exact throughout_call.trans ((and_congr_right fun _ => ih _).trans
      throughout_call.symm)

end

end Machine

/-! ## Any answers -/

/-- Calls with their answers, the last one first. -/
abbrev History (Call : Type) (Answer : Call → Type) := List ((c : Call) × Answer c)

/-- A machine that gives any answers and keeps them. -/
def record (answer : History Call Answer → (c : Call) → Answer c) (past : History Call Answer)
    (c : Call) : Answer c × History Call Answer :=
  (answer past c, ⟨c, answer past c⟩ :: past)

end Program

end ProofboundRuntime
