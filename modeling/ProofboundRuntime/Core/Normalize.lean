import ProofboundRuntime.Core.Authority
import ProofboundRuntime.Lib.InPlace

/-!
# Normalization of an authority plan

`normalize.rs`: duplicates are removed and the entries are sorted, with comparisons
that `authority.rs` writes by hand beside the derived order.  The comparisons agree
with the derived order (`PathAuthority.comesBefore_iff`), so the result is the strictly
increasing list of the entries.
-/

namespace ProofboundRuntime.Core

open Result Sorting

/-! ## Comparisons -/

/-- `AuthorityText::same_value`. -/
def sameBytes : List UInt8 → List UInt8 → Bool
  | [], [] => true
  | a :: as, b :: bs => if a ≠ b then false else sameBytes as bs
  | _, _ => false

/-- `AuthorityText::comes_before`. -/
def bytesComeBefore : List UInt8 → List UInt8 → Bool
  | a :: as, b :: bs => if a ≠ b then a < b else bytesComeBefore as bs
  | as, bs => as.length < bs.length

theorem sameBytes_iff (a b : List UInt8) : sameBytes a b = true ↔ a = b := by
  induction a generalizing b with
  | nil => cases b <;> simp [sameBytes]
  | cons x a ih =>
    cases b with
    | nil => simp [sameBytes]
    | cons y b =>
      rw [sameBytes]
      split
      next hne => simp [hne]
      next heq =>
        rw [not_not] at heq
        rw [ih, heq, List.cons.injEq, and_iff_right rfl]

theorem bytesComeBefore_iff (a b : List UInt8) :
    bytesComeBefore a b = true ↔ compare a b = .lt := by
  induction a generalizing b with
  | nil => cases b <;> simp [bytesComeBefore, List.compare_nil_cons]
  | cons x a ih =>
    cases b with
    | nil => simp [bytesComeBefore]
    | cons y b =>
      rw [bytesComeBefore, List.compare_cons_cons, Ordering.then_eq_lt, ← ih]
      split
      next hne => simp [hne, Std.compare_eq_lt]
      next heq =>
        rw [not_not] at heq
        simp [heq]

def FileAccess.rank : FileAccess → Nat
  | .read => 0
  | .write => 1
  | .execute => 2

def PathRole.rank : PathRole → Nat
  | .projectInput => 0
  | .outputRoot => 1
  | .runtimeExecutable => 2
  | .runtimeLoaderExecutable => 3
  | .runtimeLibrary => 4

namespace AuthorityPath

def sameValue (a b : AuthorityPath) : Bool := sameBytes (Utf8.bytes a.asStr) (Utf8.bytes b.asStr)

def comesBefore (a b : AuthorityPath) : Bool :=
  bytesComeBefore (Utf8.bytes a.asStr) (Utf8.bytes b.asStr)

end AuthorityPath

namespace EnvironmentName

def sameValue (a b : EnvironmentName) : Bool :=
  sameBytes (Utf8.bytes a.asStr) (Utf8.bytes b.asStr)

def comesBefore (a b : EnvironmentName) : Bool :=
  bytesComeBefore (Utf8.bytes a.asStr) (Utf8.bytes b.asStr)

/-- The derived order. -/
def cmp : EnvironmentName → EnvironmentName → Ordering :=
  compareOn fun name => Utf8.bytes name.asStr

end EnvironmentName

namespace PathAuthority

def sameValue (a b : PathAuthority) : Bool :=
  a.path.sameValue b.path && a.access.rank == b.access.rank && a.role.rank == b.role.rank

def comesBefore (a b : PathAuthority) : Bool :=
  if !a.path.sameValue b.path then a.path.comesBefore b.path
  else if a.access.rank ≠ b.access.rank then a.access.rank < b.access.rank
  else a.role.rank < b.role.rank

/-- The derived order: by path, then by access, then by role, where the values of an
enumeration are in the order of their declaration. -/
def cmp : PathAuthority → PathAuthority → Ordering :=
  compareLex (compareOn fun entry => Utf8.bytes entry.path.asStr)
    (compareLex (compareOn fun entry => entry.access.ctorIdx)
      (compareOn fun entry => entry.role.ctorIdx))

end PathAuthority

/-! ## The comparisons are those of the derived order -/

theorem FileAccess.rank_eq_ctorIdx (access : FileAccess) : access.rank = access.ctorIdx := by
  cases access <;> rfl

theorem PathRole.rank_eq_ctorIdx (role : PathRole) : role.rank = role.ctorIdx := by
  cases role <;> rfl

theorem FileAccess.rank_injective : Function.Injective FileAccess.rank := by
  intro a b h
  cases a <;> cases b <;> first | rfl | cases h

theorem PathRole.rank_injective : Function.Injective PathRole.rank := by
  intro a b h
  cases a <;> cases b <;> first | rfl | cases h

theorem AuthorityPath.sameValue_iff (a b : AuthorityPath) : a.sameValue b = true ↔ a = b := by
  rw [sameValue, sameBytes_iff, Utf8.bytes_inj]
  constructor
  · intro h
    cases a
    cases b
    cases h
    rfl
  · exact congrArg AuthorityPath.asStr

namespace EnvironmentName

theorem asStr_inj {a b : EnvironmentName} : a.asStr = b.asStr ↔ a = b := by
  constructor
  · intro h
    cases a
    cases b
    cases h
    rfl
  · exact congrArg EnvironmentName.asStr

theorem sameValue_iff (a b : EnvironmentName) : a.sameValue b = true ↔ a = b := by
  rw [sameValue, sameBytes_iff, Utf8.bytes_inj, asStr_inj]

theorem comesBefore_iff (a b : EnvironmentName) : a.comesBefore b = true ↔ cmp a b = .lt :=
  bytesComeBefore_iff _ _

instance : Std.TransCmp cmp := by
  unfold cmp
  infer_instance

instance : Std.LawfulEqCmp cmp where
  eq_of_compare h := asStr_inj.mp (Utf8.bytes_inj.mp (Std.LawfulEqOrd.eq_of_compare h))

end EnvironmentName

namespace PathAuthority

theorem sameValue_iff (a b : PathAuthority) : a.sameValue b = true ↔ a = b := by
  simp only [sameValue, Bool.and_eq_true, AuthorityPath.sameValue_iff, beq_iff_eq,
    FileAccess.rank_injective.eq_iff, PathRole.rank_injective.eq_iff]
  constructor
  · rintro ⟨⟨hpath, haccess⟩, hrole⟩
    cases a
    cases b
    cases hpath
    cases haccess
    cases hrole
    rfl
  · rintro rfl
    exact ⟨⟨rfl, rfl⟩, rfl⟩

theorem cmp_eq (a b : PathAuthority) :
    cmp a b = (compare (Utf8.bytes a.path.asStr) (Utf8.bytes b.path.asStr)).then
      ((compare a.access.rank b.access.rank).then (compare a.role.rank b.role.rank)) := by
  simp only [FileAccess.rank_eq_ctorIdx, PathRole.rank_eq_ctorIdx]
  rfl

instance : Std.TransCmp cmp := by
  unfold cmp
  infer_instance

instance : Std.LawfulEqCmp cmp where
  eq_of_compare {a b} h := by
    rw [cmp_eq, Ordering.then_eq_eq, Ordering.then_eq_eq] at h
    obtain ⟨hpath, haccess, hrole⟩ := h
    refine (sameValue_iff a b).mp ?_
    have hsame : a.path.sameValue b.path = true :=
      (sameBytes_iff _ _).mpr (Std.LawfulEqOrd.eq_of_compare hpath)
    simp [sameValue, hsame, Std.LawfulEqOrd.eq_of_compare haccess,
      Std.LawfulEqOrd.eq_of_compare hrole]

theorem comesBefore_iff (a b : PathAuthority) : a.comesBefore b = true ↔ cmp a b = .lt := by
  rw [cmp_eq, Ordering.then_eq_lt, Ordering.then_eq_lt]
  by_cases hpath : a.path.sameValue b.path = true
  · have heq : Utf8.bytes a.path.asStr = Utf8.bytes b.path.asStr := (sameBytes_iff _ _).mp hpath
    rw [comesBefore, hpath, heq]
    simp only [Std.ReflOrd.compare_self]
    by_cases haccess : a.access.rank = b.access.rank
    · simp [haccess, Nat.compare_eq_lt]
    · simp [haccess, Nat.compare_eq_lt]
  · have hne : Utf8.bytes a.path.asStr ≠ Utf8.bytes b.path.asStr := fun heq =>
      hpath ((sameBytes_iff _ _).mpr heq)
    have hcmp : ¬compare (Utf8.bytes a.path.asStr) (Utf8.bytes b.path.asStr) = .eq := fun heq =>
      hne (Std.LawfulEqOrd.eq_of_compare heq)
    rw [Bool.not_eq_true] at hpath
    rw [comesBefore, hpath, ← bytesComeBefore_iff]
    simp [hcmp, AuthorityPath.comesBefore]

end PathAuthority

/-! ## Normalization -/

structure NormalizedAuthority where
  paths : List PathAuthority
  environment : List EnvironmentName
  limits : ResourceLimits
  network : NetworkMode
deriving DecidableEq

def sortAndDeduplicatePaths (items : List PathAuthority) : List PathAuthority :=
  InPlace.insertionSort PathAuthority.comesBefore
    (InPlace.deduplicate PathAuthority.sameValue items)

def sortAndDeduplicateEnvironment (items : List EnvironmentName) : List EnvironmentName :=
  InPlace.insertionSort EnvironmentName.comesBefore
    (InPlace.deduplicate EnvironmentName.sameValue items)

def normalizeAuthority (plan : AuthorityPlan) : Except AuthorityError NormalizedAuthority :=
  .ok {
    paths := sortAndDeduplicatePaths plan.paths
    environment := sortAndDeduplicateEnvironment plan.environment
    limits := plan.limits
    network := plan.network }

/-- `is_strictly_sorted`. -/
def isStrictlySorted {α : Type} (cmp : α → α → Ordering) (items : List α) : Bool :=
  !windowsAny (fun a b => !(cmp a b).isLT) items

namespace NormalizedAuthority

def isCanonical (authority : NormalizedAuthority) : Bool :=
  isStrictlySorted PathAuthority.cmp authority.paths &&
    isStrictlySorted EnvironmentName.cmp authority.environment

def toPlan (authority : NormalizedAuthority) : AuthorityPlan :=
  AuthorityPlan.new authority.paths authority.environment authority.limits

end NormalizedAuthority

theorem isStrictlySorted_iff {α : Type} {cmp : α → α → Ordering} [Std.TransCmp cmp]
    {items : List α} : isStrictlySorted cmp items = true ↔ Strict cmp items := by
  rw [isStrictlySorted, Bool.not_eq_true']
  refine strict_iff_windowsAny fun a b => ?_
  rw [Bool.not_eq_false', Ordering.isLT_iff_eq_lt]

/-- What a normalized authority is, of a plan. -/
structure IsNormalized (plan : AuthorityPlan) (authority : NormalizedAuthority) : Prop where
  paths : Strict PathAuthority.cmp authority.paths
  environment : Strict EnvironmentName.cmp authority.environment
  mem_paths : ∀ entry, entry ∈ authority.paths ↔ entry ∈ plan.paths
  mem_environment : ∀ name, name ∈ authority.environment ↔ name ∈ plan.environment
  limits : authority.limits = plan.limits
  network : authority.network = plan.network

namespace IsNormalized

variable {plan plan' : AuthorityPlan} {authority authority' : NormalizedAuthority}

theorem isCanonical (h : IsNormalized plan authority) : authority.isCanonical = true := by
  rw [NormalizedAuthority.isCanonical, Bool.and_eq_true, isStrictlySorted_iff,
    isStrictlySorted_iff]
  exact ⟨h.paths, h.environment⟩

/-- A plan's normal form is determined by its sets of entries, its limits and its network. -/
theorem unique (h : IsNormalized plan authority) (h' : IsNormalized plan' authority')
    (hpaths : ∀ entry, entry ∈ plan.paths ↔ entry ∈ plan'.paths)
    (henvironment : ∀ name, name ∈ plan.environment ↔ name ∈ plan'.environment)
    (hlimits : plan.limits = plan'.limits) (hnetwork : plan.network = plan'.network) :
    authority = authority' := by
  have paths : authority.paths = authority'.paths := h.paths.eq_of_mem_iff h'.paths fun entry => by
    rw [h.mem_paths, hpaths, h'.mem_paths]
  have environment : authority.environment = authority'.environment :=
    h.environment.eq_of_mem_iff h'.environment fun name => by
      rw [h.mem_environment, henvironment, h'.mem_environment]
  have limits : authority.limits = authority'.limits :=
    h.limits.trans (hlimits.trans h'.limits.symm)
  have network : authority.network = authority'.network :=
    h.network.trans (hnetwork.trans h'.network.symm)
  cases authority
  cases authority'
  cases paths
  cases environment
  cases limits
  cases network
  rfl

end IsNormalized

theorem isNormalized_normalizeAuthority (plan : AuthorityPlan) :
    ∃ authority, normalizeAuthority plan = .ok authority ∧ IsNormalized plan authority := by
  have paths := InPlace.normalize_spec PathAuthority.sameValue_iff PathAuthority.comesBefore_iff
    plan.paths
  have environment := InPlace.normalize_spec EnvironmentName.sameValue_iff
    EnvironmentName.comesBefore_iff plan.environment
  exact ⟨_, rfl, paths.1, environment.1, paths.2, environment.2, rfl, rfl⟩

theorem normalizeAuthority_eq_of_isNormalized {plan plan' : AuthorityPlan}
    {authority : NormalizedAuthority} (h : IsNormalized plan authority)
    (hpaths : ∀ entry, entry ∈ plan'.paths ↔ entry ∈ plan.paths)
    (henvironment : ∀ name, name ∈ plan'.environment ↔ name ∈ plan.environment)
    (hlimits : plan'.limits = plan.limits) (hnetwork : plan'.network = plan.network) :
    normalizeAuthority plan' = .ok authority := by
  obtain ⟨authority', hrun, h'⟩ := isNormalized_normalizeAuthority plan'
  rw [hrun, h'.unique h hpaths henvironment hlimits hnetwork]

/-- Normalization succeeds on every plan with the canonical form of its entries; it is
idempotent, and blind to the order and the repetition of the lists. -/
theorem normalizeAuthority_canonical (plan : AuthorityPlan) :
    ∃ authority, normalizeAuthority plan = .ok authority ∧
      authority.isCanonical = true ∧ IsNormalized plan authority ∧
      normalizeAuthority authority.toPlan = .ok authority ∧
      ∀ plan' : AuthorityPlan,
        (∀ entry, entry ∈ plan'.paths ↔ entry ∈ plan.paths) →
        (∀ name, name ∈ plan'.environment ↔ name ∈ plan.environment) →
        plan'.limits = plan.limits → plan'.network = plan.network →
        normalizeAuthority plan' = .ok authority := by
  obtain ⟨authority, hrun, h⟩ := isNormalized_normalizeAuthority plan
  refine ⟨authority, hrun, h.isCanonical, h, ?_, fun plan' =>
    normalizeAuthority_eq_of_isNormalized h⟩
  -- the network has one mode, so the plan of the result has it too
  have hnetwork : authority.toPlan.network = plan.network := by
    cases plan.network
    rfl
  exact normalizeAuthority_eq_of_isNormalized h h.mem_paths h.mem_environment h.limits hnetwork

end ProofboundRuntime.Core
