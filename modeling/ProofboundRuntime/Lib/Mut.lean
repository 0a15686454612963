import ProofboundRuntime.Lib.Result

/-!
# Fallible methods on a state

A method that takes its state by mutable reference and returns a result.  A
failed method keeps what it changed before it failed, so a specification says
what holds of the state after a success and after a failure.
-/

namespace ProofboundRuntime

/-- A method on a state `σ` that fails with `ε` or returns `α`. -/
def Mut (σ ε α : Type) : Type := σ → Except ε α × σ

namespace Mut

variable {σ ε α β : Type}

instance : Monad (Mut σ ε) where
  pure a := fun s => (.ok a, s)
  bind x f := fun s =>
    match x s with
    | (.ok a, s') => f a s'
    | (.error e, s') => (.error e, s')

def get : Mut σ ε σ := fun s => (.ok s, s)

def modify (f : σ → σ) : Mut σ ε Unit := fun s => (.ok (), f s)

def fail (e : ε) : Mut σ ε α := fun s => (.error e, s)

/-- A result that does not touch the state. -/
def lift (x : Except ε α) : Mut σ ε α := fun s => (x, s)

variable {s s' : σ} {a : α} {b : β}

variable {f : α → Mut σ ε β} {x : Mut σ ε α}

@[simp] theorem bind_eq_ok :
    (x >>= f) s = (.ok b, s') ↔ ∃ a s₁, x s = (.ok a, s₁) ∧ f a s₁ = (.ok b, s') := by
  show (match x s with
    | (.ok a, s') => f a s'
    | (.error e, s') => (.error e, s')) = _ ↔ _
  rcases hx : x s with ⟨e | a, s₁⟩
  · simp
  · simp

@[simp] theorem pure_eq_ok {a' : α} :
    (pure a : Mut σ ε α) s = (.ok a', s') ↔ a = a' ∧ s = s' := by
  show ((.ok a, s) : Except ε α × σ) = _ ↔ _
  simp

@[simp] theorem get_eq_ok {t : σ} : (get : Mut σ ε σ) s = (.ok t, s') ↔ s = t ∧ s = s' := by
  show ((.ok s, s) : Except ε σ × σ) = _ ↔ _
  simp

@[simp] theorem modify_eq_ok {f : σ → σ} {u : Unit} :
    (modify f : Mut σ ε Unit) s = (.ok u, s') ↔ f s = s' := by
  show ((.ok (), f s) : Except ε Unit × σ) = _ ↔ _
  simp

variable {e : ε}

@[simp] theorem fail_eq_ok : (fail e : Mut σ ε α) s = (.ok a, s') ↔ False := by
  show ((.error e, s) : Except ε α × σ) = _ ↔ _
  simp

@[simp] theorem lift_eq_ok {x : Except ε α} :
    (lift x : Mut σ ε α) s = (.ok a, s') ↔ x = .ok a ∧ s = s' := by
  show ((x, s) : Except ε α × σ) = _ ↔ _
  simp

theorem bind_of_ok (h : x s = (.ok a, s')) : (x >>= f) s = f a s' := by
  show (match x s with
    | (.ok a, s') => f a s'
    | (.error e, s') => (.error e, s')) = _
  rw [h]

theorem bind_of_error (h : x s = (.error e, s')) : (x >>= f) s = (.error e, s') := by
  show (match x s with
    | (.ok a, s') => f a s'
    | (.error e, s') => (.error e, s')) = _
  rw [h]

theorem lift_bind_of_ok {x : Except ε α} (h : x = .ok a) : (lift x >>= f) s = f a s := by
  rw [h]
  rfl

theorem lift_bind_of_error {x : Except ε α} (h : x = .error e) :
    (lift x >>= f) s = (.error e, s) := by
  rw [h]
  rfl

/-! ## Specifications -/

/-- From a state with `P`, the method succeeds with `Q` or fails with `E`. -/
def Spec (P : σ → Prop) (x : Mut σ ε α) (Q : α → σ → Prop) (E : ε → σ → Prop) : Prop :=
  ∀ s, P s → match x s with
    | (.ok a, s') => Q a s'
    | (.error e, s') => E e s'

variable {P : σ → Prop} {Q : α → σ → Prop} {E : ε → σ → Prop}

theorem Spec.pure (h : ∀ s, P s → Q a s) : Spec P (Pure.pure a) Q E := h

theorem Spec.modify {f : σ → σ} {Q : Unit → σ → Prop} (h : ∀ s, P s → Q () (f s)) :
    Spec P (modify f) Q E := h

theorem Spec.fail (h : ∀ s, P s → E e s) : Spec P (fail e) Q E := h

theorem Spec.bind {R : α → σ → Prop} {Q : β → σ → Prop} (hx : Spec P x R E)
    (hf : ∀ a, Spec (R a) (f a) Q E) : Spec P (x >>= f) Q E := by
  intro s hs
  have hfirst := hx s hs
  show match (match x s with
    | (.ok a, s') => f a s'
    | (.error e, s') => (.error e, s')) with
    | (.ok b, s') => Q b s'
    | (.error e, s') => E e s'
  rcases hxs : x s with ⟨e | a, s'⟩
  · rwa [hxs] at hfirst
  · rw [hxs] at hfirst
    exact hf a s' hfirst

/-- The rest of a method runs from the state that was read. -/
theorem Spec.get_bind {f : σ → Mut σ ε β} {Q : β → σ → Prop}
    (h : ∀ s, P s → Spec (· = s) (f s) Q E) : Spec P (get >>= f) Q E :=
  fun s hs => h s hs s rfl

theorem Spec.mono {Q' : α → σ → Prop} {E' : ε → σ → Prop} (h : Spec P x Q E)
    (hQ : ∀ a s, Q a s → Q' a s) (hE : ∀ e s, E e s → E' e s) : Spec P x Q' E' := by
  intro s hs
  have hspec := h s hs
  rcases hx : x s with ⟨e | a, s'⟩
  · rw [hx] at hspec
    exact hE e s' hspec
  · rw [hx] at hspec
    exact hQ a s' hspec

/-- A method can be run from each of the states at once. -/
theorem Spec.of_state (h : ∀ s, P s → Spec (· = s) x Q E) : Spec P x Q E :=
  fun s hs => h s hs s rfl

/-- A fact about no state is known to the method. -/
theorem Spec.of_and {A : Prop} (h : A → Spec P x Q E) : Spec (fun s => A ∧ P s) x Q E :=
  fun s hs => h hs.1 s hs.2

/-- A change of a known state leaves a known state. -/
theorem Spec.modify_bind {f : σ → σ} {g : Unit → Mut σ ε β} {Q : β → σ → Prop}
    (h : Spec (· = f s) (g ()) Q E) : Spec (· = s) (Mut.modify f >>= g) Q E := by
  rintro _ rfl
  exact h (f _) rfl

theorem Spec.lift {x : Except ε α} (hok : ∀ a, x = .ok a → ∀ s, P s → Q a s)
    (herror : ∀ e, x = .error e → ∀ s, P s → E e s) : Spec P (Mut.lift x) Q E := by
  intro s hs
  cases x with
  | ok a => exact hok a rfl s hs
  | error e => exact herror e rfl s hs

/-- A result that does not touch the state comes first. -/
theorem Spec.lift_bind {x : Except ε α} {g : α → Mut σ ε β} {Q : β → σ → Prop}
    (hok : ∀ a, x = .ok a → Spec P (g a) Q E) (herror : ∀ e, x = .error e → ∀ s, P s → E e s) :
    Spec P (Mut.lift x >>= g) Q E := by
  intro s hs
  cases x with
  | ok a => exact hok a rfl s hs
  | error e => exact herror e rfl s hs

/-- A check comes first. -/
theorem Spec.rejectIf_bind {cond : Prop} [Decidable cond] {g : Unit → Mut σ ε β}
    {Q : β → σ → Prop} (hpass : ¬cond → Spec P (g ()) Q E) (hreject : cond → ∀ s, P s → E e s) :
    Spec P (Mut.lift (Result.rejectIf cond e) >>= g) Q E := by
  by_cases hcond : cond
  · rw [Result.rejectIf_true hcond]
    exact hreject hcond
  · rw [Result.rejectIf_false hcond]
    exact hpass hcond

end Mut

end ProofboundRuntime
