import Mathlib

/-!
# Reading `Result` computations backwards

Fallible code is modelled in `Except`.  A proof about such code starts from
`f x = .ok y` and has to recover what every step of `f` returned.  This
module has the four steps that the modelled code is made of, each with the
lemma that inverts it:

* `bind_eq_ok` for the question mark operator;
* `rejectIf` for an early `return Err(..)`;
* `okOr` for `Option::ok_or`;
* `collect` for an iterator that is collected into a `Result<Vec<_>, _>`.

The inversion lemmas are `simp` lemmas, so `simp` with the definition of a
modelled function turns the equation into the list of its steps.
-/

namespace ProofboundRuntime.Result

variable {ε ε' α β γ : Type}

variable {f : α → Except ε β} {x : Except ε α}

/-- A bind succeeds exactly when both of its steps do. -/
@[simp] theorem bind_eq_ok {b : β} : (x >>= f) = .ok b ↔ ∃ a, x = .ok a ∧ f a = .ok b := by
  cases x with
  | error e =>
    constructor
    · rintro ⟨⟩
    · rintro ⟨a, ha, _⟩
      cases ha
  | ok a =>
    constructor
    · intro h
      exact ⟨a, rfl, h⟩
    · rintro ⟨a', ha, h⟩
      cases ha
      exact h

theorem forall_mem_nil {p : α → Prop} : (∀ a ∈ ([] : List α), p a) ↔ True := by simp

/-- A check and what follows it. -/
theorem check_bind_eq_ok {x : Except ε Unit} {f : Unit → Except ε β} {b : β} :
    (x >>= f) = .ok b ↔ x = .ok () ∧ f () = .ok b := by
  rw [bind_eq_ok]
  constructor
  · rintro ⟨_, hx, hf⟩
    exact ⟨hx, hf⟩
  · intro h
    exact ⟨(), h⟩

@[simp] theorem ok_bind (a : α) (f : α → Except ε β) :
    ((Except.ok a : Except ε α) >>= f) = f a := rfl

@[simp] theorem error_bind (e : ε) (f : α → Except ε β) :
    ((Except.error e : Except ε α) >>= f) = .error e := rfl

@[simp] theorem pure_eq_ok {a b : α} :
    ((pure a : Except ε α) = .ok b) ↔ a = b := by
  constructor
  · rintro ⟨⟩
    rfl
  · rintro rfl
    rfl

variable {a : α}

/-- A bind after a change of the error succeeds exactly when the step
does. -/
@[simp] theorem mapError_eq_ok {f : ε → ε'} : x.mapError f = .ok a ↔ x = .ok a := by
  cases x <;> simp [Except.mapError]

theorem mapError_eq_error {f : ε → ε'} {e' : ε'} :
    x.mapError f = .error e' ↔ ∃ e, x = .error e ∧ f e = e' := by
  cases x <;> simp [Except.mapError]

@[simp] theorem map_eq_ok {f : α → β} {b : β} : (f <$> x) = .ok b ↔ ∃ a, x = .ok a ∧ f a = b := by
  cases x with
  | error e =>
    constructor
    · rintro ⟨⟩
    · rintro ⟨a, ha, _⟩
      cases ha
  | ok a =>
    constructor
    · rintro ⟨⟩
      exact ⟨a, rfl, rfl⟩
    · rintro ⟨a', ha, rfl⟩
      cases ha
      rfl

/-! ## Early returns -/

/-- `if cond { return Err(error); }`. -/
def rejectIf (cond : Prop) [Decidable cond] (error : ε) : Except ε Unit :=
  if cond then .error error else .ok ()

variable {error : ε} {cond : Prop}

@[simp] theorem rejectIf_eq_ok [Decidable cond] {u : Unit} :
    rejectIf cond error = .ok u ↔ ¬cond := by
  unfold rejectIf
  split <;> simp_all

theorem rejectIf_false [Decidable cond] (h : ¬cond) : rejectIf cond error = .ok () :=
  rejectIf_eq_ok.mpr h

theorem rejectIf_true [Decidable cond] (h : cond) : rejectIf cond error = .error error :=
  if_pos h

/-- A check whose outcome the rest of the computation uses. -/
theorem dite_error_eq_ok [Decidable cond] {f : ¬cond → Except ε α} :
    (if h : cond then .error error else f h) = .ok a ↔ ∃ h : ¬cond, f h = .ok a := by
  by_cases h : cond
  · simp [h]
  · simp [h]

/-- `Option::ok_or`. -/
def okOr (value : Option α) (error : ε) : Except ε α :=
  match value with
  | some a => .ok a
  | none => .error error

@[simp] theorem okOr_eq_ok {value : Option α} : okOr value error = .ok a ↔ value = some a := by
  cases value <;> simp [okOr]

@[simp] theorem okOr_some (a : α) (error : ε) : okOr (some a) error = .ok a := rfl

/-! ## Results without their errors -/

theorem toOption_bind (x : Except ε α) (f : α → Except ε β) :
    (x >>= f).toOption = x.toOption.bind fun a => (f a).toOption := by
  cases x <;> rfl

theorem toOption_okOr (value : Option α) (error : ε) : (okOr value error).toOption = value := by
  cases value <;> rfl

theorem toOption_mapError (x : Except ε α) (f : ε → ε') :
    (x.mapError f).toOption = x.toOption := by
  cases x <;> rfl

theorem toOption_eq_some : x.toOption = some a ↔ x = .ok a := by
  cases x <;> simp [Except.toOption]

/-! ## Collecting an iterator of results -/

/-- `iter.map(f).collect::<Result<Vec<_>, _>>()`: the images in order, or the
first error. -/
def collect (f : α → Except ε β) : List α → Except ε (List β)
  | [] => .ok []
  | a :: as => do
    let b ← f a
    let bs ← collect f as
    pure (b :: bs)

variable {as : List α} {bs : List β}

/-- The collection succeeds exactly when every element does. -/
theorem collect_eq_ok : collect f as = .ok bs ↔ List.Forall₂ (fun a b => f a = .ok b) as bs := by
  induction as generalizing bs with
  | nil =>
    constructor
    · rintro ⟨⟩
      exact .nil
    · rintro ⟨⟩
      rfl
  | cons a as ih =>
    simp only [collect, bind_eq_ok, pure_eq_ok]
    constructor
    · rintro ⟨b, hb, tail, htail, rfl⟩
      exact .cons hb (ih.mp htail)
    · intro h
      cases h with
      | cons hb htail => exact ⟨_, hb, _, ih.mpr htail, rfl⟩

/-- A collection holds the images and nothing else. -/
theorem mem_of_collect {b : β} (h : collect f as = .ok bs) : b ∈ bs ↔ ∃ a ∈ as, f a = .ok b := by
  rw [collect_eq_ok] at h
  induction h with
  | nil => simp
  | cons hhead _ ih =>
    rw [List.mem_cons, ih]
    constructor
    · intro hb
      rcases hb with rfl | ⟨a, ha, hb⟩
      · exact ⟨_, List.mem_cons_self, hhead⟩
      · exact ⟨a, List.mem_cons_of_mem _ ha, hb⟩
    · intro ⟨a, ha, hb⟩
      rcases List.mem_cons.mp ha with rfl | ha
      · rw [hhead] at hb
        cases hb
        exact .inl rfl
      · exact .inr ⟨a, ha, hb⟩

/-- A collection holds an image of each element. -/
theorem exists_of_collect (h : collect f as = .ok bs) (ha : a ∈ as) : ∃ b ∈ bs, f a = .ok b := by
  rw [collect_eq_ok] at h
  induction h with
  | nil => cases ha
  | cons hhead _ ih =>
    rcases List.mem_cons.mp ha with rfl | ha
    · exact ⟨_, List.mem_cons_self, hhead⟩
    · obtain ⟨b, hb, hfb⟩ := ih ha
      exact ⟨b, List.mem_cons_of_mem _ hb, hfb⟩

/-- A collection succeeds when each step does. -/
theorem exists_collect (h : ∀ a ∈ as, ∃ b, f a = .ok b) : ∃ bs, collect f as = .ok bs := by
  induction as with
  | nil => exact ⟨[], rfl⟩
  | cons a as ih =>
    obtain ⟨⟨b, hb⟩, has⟩ := List.forall_mem_cons.mp h
    obtain ⟨bs, hbs⟩ := ih has
    refine ⟨b :: bs, ?_⟩
    rw [collect, hb, ok_bind, hbs]
    rfl

/-- If each step succeeds on some elements, with a known image, the collection
succeeds when all elements are such and collects the images. -/
theorem collect_eq_ok_iff_map {p : α → Prop} {g : α → β}
    (hf : ∀ {a b}, f a = .ok b ↔ p a ∧ g a = b) :
    collect f as = .ok bs ↔ (∀ a ∈ as, p a) ∧ as.map g = bs := by
  induction as generalizing bs with
  | nil => simp [collect]
  | cons a as ih =>
    simp only [collect, bind_eq_ok, pure_eq_ok, hf, ih, List.forall_mem_cons, List.map_cons]
    refine ⟨fun h => ?_, fun h => ?_⟩
    · obtain ⟨_, ⟨ha, hb⟩, _, ⟨has, hbs⟩, hcons⟩ := h
      subst hb hbs
      exact ⟨⟨ha, has⟩, hcons⟩
    · exact ⟨_, ⟨h.1.1, rfl⟩, _, ⟨h.1.2, rfl⟩, h.2⟩

/-- If each step succeeds on the images under `g` only, a collection is of the
images of what it collects. -/
theorem collect_eq_ok_iff_eq_map {p : β → Prop} {g : β → α}
    (hf : ∀ {a b}, f a = .ok b ↔ a = g b ∧ p b) :
    collect f as = .ok bs ↔ as = bs.map g ∧ ∀ b ∈ bs, p b := by
  rw [collect_eq_ok]
  constructor
  · intro h
    induction h with
    | nil => simp
    | cons hhead _ ih =>
      rw [List.map_cons, (hf.mp hhead).1, ih.1, List.forall_mem_cons]
      exact ⟨rfl, (hf.mp hhead).2, ih.2⟩
  · rintro ⟨rfl, hp⟩
    rw [List.forall₂_map_left_iff]
    exact List.forall₂_same.mpr fun b hb => hf.mpr ⟨rfl, hp b hb⟩

/-! ## One kind of failure -/

/-- No other error is returned. -/
def FailsOnlyWith (error : ε) (x : Except ε α) : Prop := ∀ e, x = .error e → e = error

namespace FailsOnlyWith

variable {error : ε}

theorem ok (a : α) : FailsOnlyWith error (.ok a : Except ε α) := by
  intro e h
  cases h

theorem throws : FailsOnlyWith error (.error error : Except ε α) := by
  intro e h
  cases h
  rfl

theorem rejectIf (cond : Prop) [Decidable cond] : FailsOnlyWith error (rejectIf cond error) := by
  rw [Result.rejectIf]
  split
  · exact throws
  · exact ok ()

theorem bind (hx : FailsOnlyWith error x) (hf : ∀ a, FailsOnlyWith error (f a)) :
    FailsOnlyWith error (x >>= f) := by
  cases x with
  | error e =>
    intro e' h
    rw [error_bind] at h
    cases h
    exact hx e rfl
  | ok a => exact hf a

theorem foldlM {f : β → α → Except ε β} (hf : ∀ b a, FailsOnlyWith error (f b a)) (as : List α)
    (b : β) : FailsOnlyWith error (as.foldlM f b) := by
  induction as generalizing b with
  | nil => exact ok b
  | cons a as ih =>
    rw [List.foldlM_cons]
    exact (hf b a).bind ih

/-- Two results that succeed alike and have one way to fail are the same. -/
theorem eq_of_ok_iff {x y : Except ε α} (hx : FailsOnlyWith error x) (hy : FailsOnlyWith error y)
    (h : ∀ a, x = .ok a ↔ y = .ok a) : x = y := by
  cases x with
  | ok a => exact ((h a).mp rfl).symm
  | error e =>
    cases y with
    | ok a => exact (h a).mpr rfl
    | error e' => rw [hx e rfl, hy e' rfl]

end FailsOnlyWith

end ProofboundRuntime.Result
