import Mathlib

/-!
# The verifier's eligibility derivation

`derive.rs`: the verifier derives from the decoded facts of a receipt whether
it may be reused, and if not, every reason.

* `deriveEligibility_eq_reusable`: the conditions under which a receipt is
  reusable.
-/

namespace ProofboundRuntime.Verify

inductive BoundaryState where
  | installed
  | incomplete
deriving DecidableEq

inductive OutcomeState where
  | exited (code : Int)
  | signaled (signal : UInt32)
  | timedOut
  | denied
  | launcherFailed
  | incomplete
deriving DecidableEq

inductive CaptureState where
  | complete
  | truncated
deriving DecidableEq

inductive StructureState where
  | valid
  | malformed
deriving DecidableEq

/-- `EligibilityInput`.  The seven limit events are in the order of their
reasons. -/
structure EligibilityInput where
  boundary : BoundaryState
  outcome : OutcomeState
  stdout : CaptureState
  stderr : CaptureState
  structureState : StructureState
  limitEvents : List Bool
deriving DecidableEq

inductive FailureReason where
  | boundaryIncomplete
  | exitCodeNonzero
  | processSignaled
  | timedOut
  | denied
  | launcherFailed
  | executionIncomplete
  | standardOutputTruncated
  | standardErrorTruncated
  | receiptMalformed
  | memoryHigh
  | memoryMax
  | memoryOom
  | memoryOomKill
  | memoryOomGroupKill
  | swapMax
  | swapFail
deriving DecidableEq

inductive EligibilityDecision where
  | reusable
  | nonReusable (reasons : List FailureReason)
deriving DecidableEq

/-- The failure of the boundary, if any. -/
def boundaryFailures : BoundaryState → List FailureReason
  | .installed => []
  | .incomplete => [.boundaryIncomplete]

def outcomeFailures : OutcomeState → List FailureReason
  | .exited code => if code = 0 then [] else [.exitCodeNonzero]
  | .signaled _ => [.processSignaled]
  | .timedOut => [.timedOut]
  | .denied => [.denied]
  | .launcherFailed => [.launcherFailed]
  | .incomplete => [.executionIncomplete]

/-- The failure of a captured stream, `reason` if it was truncated. -/
def captureFailures (reason : FailureReason) : CaptureState → List FailureReason
  | .complete => []
  | .truncated => [reason]

def structureFailures : StructureState → List FailureReason
  | .valid => []
  | .malformed => [.receiptMalformed]

/-- The reasons of the limit events, in the order of the counters. -/
def limitReasons : List FailureReason :=
  [.memoryHigh, .memoryMax, .memoryOom, .memoryOomKill, .memoryOomGroupKill, .swapMax,
    .swapFail]

def limitFailures (limitEvents : List Bool) : List FailureReason :=
  (limitEvents.zip limitReasons).filterMap fun (present, reason) =>
    if present then some reason else none

/-- The vector `failures` of `derive_eligibility` after its pushes. -/
def failures (input : EligibilityInput) : List FailureReason :=
  boundaryFailures input.boundary ++ outcomeFailures input.outcome ++
    captureFailures .standardOutputTruncated input.stdout ++
    captureFailures .standardErrorTruncated input.stderr ++
    structureFailures input.structureState ++ limitFailures input.limitEvents

def deriveEligibility (input : EligibilityInput) : EligibilityDecision :=
  if (failures input).isEmpty then .reusable else .nonReusable (failures input)

/-! ## When a receipt is reusable -/

theorem boundaryFailures_eq_nil {state : BoundaryState} :
    boundaryFailures state = [] ↔ state = .installed := by
  cases state <;> simp [boundaryFailures]

theorem outcomeFailures_eq_nil {state : OutcomeState} :
    outcomeFailures state = [] ↔ state = .exited 0 := by
  cases state <;> simp [outcomeFailures]

theorem captureFailures_eq_nil {reason : FailureReason} {state : CaptureState} :
    captureFailures reason state = [] ↔ state = .complete := by
  cases state <;> simp [captureFailures]

theorem structureFailures_eq_nil {state : StructureState} :
    structureFailures state = [] ↔ state = .valid := by
  cases state <;> simp [structureFailures]

theorem limitFailures_eq_nil {limitEvents : List Bool} (hlength : limitEvents.length = 7) :
    limitFailures limitEvents = [] ↔ ∀ present ∈ limitEvents, present = false := by
  rw [limitFailures, List.filterMap_eq_nil_iff]
  constructor
  · intro h present hmem
    -- Every flag has a reason beside it.
    obtain ⟨i, hi, rfl⟩ := List.getElem_of_mem hmem
    have hzip : i < (limitEvents.zip limitReasons).length := by
      rw [List.length_zip, hlength]
      exact lt_min (by omega) (by simp only [limitReasons, List.length_cons, List.length_nil]; omega)
    have := h _ (List.getElem_mem hzip)
    simpa using this
  · intro h pair hpair
    have := h pair.1 (List.of_mem_zip hpair).1
    simp [this]

/-- A receipt is reusable exactly when nothing failed. -/
theorem deriveEligibility_eq_reusable {input : EligibilityInput}
    (hlength : input.limitEvents.length = 7) :
    deriveEligibility input = .reusable ↔
      input.boundary = .installed ∧ input.outcome = .exited 0 ∧ input.stdout = .complete ∧
        input.stderr = .complete ∧ input.structureState = .valid ∧
        ∀ present ∈ input.limitEvents, present = false := by
  have hempty : deriveEligibility input = .reusable ↔ failures input = [] := by
    unfold deriveEligibility
    split <;> simp_all
  rw [hempty, failures]
  simp only [List.append_eq_nil_iff, boundaryFailures_eq_nil, outcomeFailures_eq_nil,
    captureFailures_eq_nil, structureFailures_eq_nil, limitFailures_eq_nil hlength, and_assoc]

end ProofboundRuntime.Verify
