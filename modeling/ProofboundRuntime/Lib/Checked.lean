import ProofboundRuntime.Lib.Result

/-!
# Arithmetic that can fail

Code on machine integers and slices stops at a sum or a product that does not fit and at an
index outside a slice.  `Checked` code has these faults beside its own errors.  `Overflows` and
`InBounds` say of a computation that it stops at the first fault, and that it does not stop at the
second; their lemmas go through a computation step by step.
-/

namespace ProofboundRuntime.Checked

open Result

inductive Fault (ε : Type) where
  /-- A sum or a product that does not fit, with the error where this is not checked. -/
  | overflow (error : ε)
  /-- An index or a range outside a slice. -/
  | outOfBounds
  | error (error : ε)
deriving DecidableEq

variable {ε α β : Type}

/-- `usize` on a 64-bit target. -/
def usizeBound : Nat := 2 ^ 64

def mul (a b : Nat) (error : ε) : Except (Fault ε) Nat :=
  if a * b < usizeBound then .ok (a * b) else .error (.overflow error)

/-- `slice.get(start..start + width).ok_or(error)`.  A sum that does not fit wraps to less than
`start`, so without overflow checks the range is none of the slice. -/
def slice (bytes : List α) (start width : Nat) (error : ε) : Except (Fault ε) (List α) :=
  if usizeBound ≤ start + width then .error (.overflow error)
  else if start + width ≤ bytes.length then .ok ((bytes.drop start).take width)
  else .error (.error error)

/-- `&slice[..stop]`. -/
def indexTo (bytes : List α) (stop : Nat) : Except (Fault ε) (List α) :=
  if stop ≤ bytes.length then .ok (bytes.take stop) else .error .outOfBounds

/-- A failure of the code's own. -/
def lift (x : Except ε α) : Except (Fault ε) α := x.mapError .error

/-- The code without overflow checks, with an error for an index out of bounds. -/
def unchecked (panic : ε) (x : Except (Fault ε) α) : Except ε α :=
  x.mapError fun fault => match fault with
    | .overflow e | .error e => e
    | .outOfBounds => panic

@[simp] theorem lift_ok (a : α) : lift (.ok a : Except ε α) = .ok a := rfl

@[simp] theorem lift_eq_ok {x : Except ε α} {a : α} : lift x = .ok a ↔ x = .ok a :=
  mapError_eq_ok

theorem slice_eq_ok {bytes part : List α} {start width : Nat} {error : ε}
    (hlength : bytes.length < usizeBound) :
    slice bytes start width error = .ok part ↔
      start + width ≤ bytes.length ∧ part = (bytes.drop start).take width := by
  unfold slice
  split_ifs with hover hinside
  · simp
    omega
  · simp [hinside, eq_comm]
  · simp [hinside]

/-! ## Overflows -/

/-- The computation stops at a sum or a product that does not fit. -/
def Overflows : Except (Fault ε) α → Prop
  | .error (.overflow _) => True
  | _ => False

@[simp] theorem overflows_ok (a : α) : ¬ Overflows (.ok a : Except (Fault ε) α) := id

@[simp] theorem overflows_pure (a : α) : ¬ Overflows (pure a : Except (Fault ε) α) := id

@[simp] theorem overflows_lift (x : Except ε α) : ¬ Overflows (lift x) := by
  cases x <;> exact id

@[simp] theorem overflows_slice {bytes : List α} {start width : Nat} {error : ε} :
    Overflows (slice bytes start width error) ↔ usizeBound ≤ start + width := by
  unfold slice
  split_ifs with hover hinside
  · exact iff_of_true trivial hover
  · exact iff_of_false id hover
  · exact iff_of_false id hover

@[simp] theorem overflows_indexTo (bytes : List α) (stop : Nat) :
    ¬ Overflows (indexTo bytes stop : Except (Fault ε) (List α)) := by
  unfold indexTo
  split_ifs <;> exact id

variable {f : α → Except (Fault ε) β}

@[simp] theorem overflows_bind {x : Except (Fault ε) α} :
    Overflows (x >>= f) ↔ Overflows x ∨ ∃ a, x = .ok a ∧ Overflows (f a) := by
  cases x with
  | error fault =>
    rw [error_bind]
    cases fault <;> simp [Overflows]
  | ok a =>
    rw [ok_bind]
    simp

theorem not_overflows_collect (h : ∀ a, ¬ Overflows (f a)) (as : List α) :
    ¬ Overflows (collect f as) := by
  induction as with
  | nil => exact id
  | cons a as ih =>
    rw [collect]
    simp only [overflows_bind, h, ih, overflows_pure, and_false, exists_false, or_self,
      not_false_eq_true]

/-- A fold overflows at one of its elements, after those before it. -/
theorem overflows_foldlM {f : β → α → Except (Fault ε) β} {as : List α} {b : β} :
    Overflows (as.foldlM f b) ↔
      ∃ i, ∃ a ∈ as[i]?, ∃ b', (as.take i).foldlM f b = .ok b' ∧ Overflows (f b' a) := by
  induction as generalizing b with
  | nil => simp
  | cons a as ih =>
    rw [List.foldlM_cons, overflows_bind]
    simp only [ih]
    constructor
    · intro h
      rcases h with h | ⟨b', hb', i, c, hc, b'', hrun, hover⟩
      · exact ⟨0, a, rfl, b, rfl, h⟩
      · refine ⟨i + 1, c, hc, b'', ?_, hover⟩
        rwa [List.take_succ_cons, List.foldlM_cons, hb']
    · intro ⟨i, c, hc, b'', hrun, hover⟩
      cases i with
      | zero =>
        left
        cases hc
        cases hrun
        exact hover
      | succ i =>
        right
        rw [List.take_succ_cons, List.foldlM_cons] at hrun
        obtain ⟨b', hb', hrun⟩ := bind_eq_ok.mp hrun
        exact ⟨b', hb', i, c, hc, b'', hrun, hover⟩

/-! ## Bounds -/

/-- The computation does not stop at an index outside a slice. -/
def InBounds : Except (Fault ε) α → Prop
  | .error .outOfBounds => False
  | _ => True

@[simp] theorem inBounds_pure (a : α) : InBounds (pure a : Except (Fault ε) α) := trivial

@[simp] theorem inBounds_lift (x : Except ε α) : InBounds (lift x) := by
  cases x <;> trivial

@[simp] theorem inBounds_mul (a b : Nat) (error : ε) : InBounds (mul a b error) := by
  unfold mul
  split_ifs <;> trivial

@[simp] theorem inBounds_slice (bytes : List α) (start width : Nat) (error : ε) :
    InBounds (slice bytes start width error) := by
  unfold slice
  split_ifs <;> trivial

@[simp] theorem inBounds_bind {x : Except (Fault ε) α} :
    InBounds (x >>= f) ↔ InBounds x ∧ ∀ a, x = .ok a → InBounds (f a) := by
  cases x with
  | error fault =>
    rw [error_bind]
    cases fault <;> simp [InBounds]
  | ok a =>
    rw [ok_bind]
    simp [InBounds]

theorem inBounds_foldlM {f : β → α → Except (Fault ε) β} (h : ∀ b a, InBounds (f b a))
    (as : List α) (b : β) : InBounds (as.foldlM f b) := by
  induction as generalizing b with
  | nil => trivial
  | cons a as ih =>
    rw [List.foldlM_cons]
    simp [h, ih]

theorem inBounds_collect (h : ∀ a, InBounds (f a)) (as : List α) : InBounds (collect f as) := by
  induction as with
  | nil => trivial
  | cons a as ih =>
    rw [collect]
    simp only [inBounds_bind, h, ih, inBounds_pure, implies_true, and_self]

end ProofboundRuntime.Checked
