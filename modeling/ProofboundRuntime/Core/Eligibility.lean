import Mathlib

/-!
# The producer's eligibility derivation

`proofbound-runtime-receipt`: the facts of an execution, and the reasons for
which its receipt cannot be reused.

* `LimitEvents.contains_new`: the canonical set of limit events holds what was
  put in;
* `reasons_eq`: the reasons, part by part.
-/

namespace ProofboundRuntime.Core

inductive BoundaryInstallation where
  | installed
  | incomplete
deriving DecidableEq

structure SignalNumber where
  get : UInt32
  ne_zero : get ≠ 0
deriving DecidableEq

inductive ExecutionOutcome where
  | exited (code : Int32)
  | signaled (signal : SignalNumber)
  | timedOut
  | denied
  | launcherFailed
  | incomplete
deriving DecidableEq

inductive StreamCapture where
  | complete
  | truncated
deriving DecidableEq

inductive ReceiptStructure where
  | valid
  | malformed
deriving DecidableEq

/-! ## Limit events -/

inductive LimitEvent where
  | memoryHigh
  | memoryMax
  | memoryOom
  | memoryOomKill
  | memoryOomGroupKill
  | swapMax
  | swapFail
deriving DecidableEq

/-- The set of the events, one flag for each. -/
structure LimitEvents where
  memoryHigh : Bool
  memoryMax : Bool
  memoryOom : Bool
  memoryOomKill : Bool
  memoryOomGroupKill : Bool
  swapMax : Bool
  swapFail : Bool
deriving DecidableEq

namespace LimitEvents

/-- `LimitEvents::default`. -/
def empty : LimitEvents := ⟨false, false, false, false, false, false, false⟩

/-- The loop body of `LimitEvents::new`. -/
def insert (present : LimitEvents) : LimitEvent → LimitEvents
  | .memoryHigh => { present with memoryHigh := true }
  | .memoryMax => { present with memoryMax := true }
  | .memoryOom => { present with memoryOom := true }
  | .memoryOomKill => { present with memoryOomKill := true }
  | .memoryOomGroupKill => { present with memoryOomGroupKill := true }
  | .swapMax => { present with swapMax := true }
  | .swapFail => { present with swapFail := true }

def new (events : List LimitEvent) : LimitEvents := events.foldl insert empty

def contains (events : LimitEvents) : LimitEvent → Bool
  | .memoryHigh => events.memoryHigh
  | .memoryMax => events.memoryMax
  | .memoryOom => events.memoryOom
  | .memoryOomKill => events.memoryOomKill
  | .memoryOomGroupKill => events.memoryOomGroupKill
  | .swapMax => events.swapMax
  | .swapFail => events.swapFail

theorem contains_insert (present : LimitEvents) (event other : LimitEvent) :
    (present.insert event).contains other = (other == event || present.contains other) := by
  cases event <;> cases other <;> simp [insert, contains]

/-- What is added to the set stays there. -/
theorem contains_foldl (events : List LimitEvent) (present : LimitEvents) (event : LimitEvent) :
    (events.foldl insert present).contains event =
      (events.contains event || present.contains event) := by
  induction events generalizing present with
  | nil => simp
  | cons head events ih =>
    rw [List.foldl_cons, ih, contains_insert, List.contains_cons]
    cases events.contains event <;> cases event == head <;> simp

theorem contains_new (events : List LimitEvent) (event : LimitEvent) :
    (new events).contains event = events.contains event := by
  rw [new, contains_foldl]
  cases event <;> simp [empty, contains]

end LimitEvents

/-! ## Eligibility -/

structure ReceiptFacts where
  boundary : BoundaryInstallation
  outcome : ExecutionOutcome
  stdout : StreamCapture
  stderr : StreamCapture
  structureState : ReceiptStructure
  limitEvents : LimitEvents
deriving DecidableEq

def ReceiptFacts.new (boundary : BoundaryInstallation) (outcome : ExecutionOutcome)
    (stdout stderr : StreamCapture) (structureState : ReceiptStructure) : ReceiptFacts :=
  ⟨boundary, outcome, stdout, stderr, structureState, .empty⟩

def ReceiptFacts.newV2 (boundary : BoundaryInstallation) (outcome : ExecutionOutcome)
    (stdout stderr : StreamCapture) (structureState : ReceiptStructure)
    (limitEvents : LimitEvents) : ReceiptFacts :=
  ⟨boundary, outcome, stdout, stderr, structureState, limitEvents⟩

inductive NonReusableReason where
  | boundaryIncomplete
  | exitCodeNonzero
  | processSignaled
  | timedOut
  | denied
  | launcherFailed
  | executionIncomplete
  | standardOutputTruncated
  | standardErrorTruncated
  | receiptMalformed
  | memoryHigh
  | memoryMax
  | memoryOom
  | memoryOomKill
  | memoryOomGroupKill
  | swapMax
  | swapFail
deriving DecidableEq

inductive ReceiptEligibility where
  | reusable
  | nonReusable (reasons : List NonReusableReason)
deriving DecidableEq

def appendReason (reasons : List NonReusableReason) (present : Bool)
    (reason : NonReusableReason) : List NonReusableReason :=
  if present then reasons ++ [reason] else reasons

def appendLimitEventReasons (reasons : List NonReusableReason) (events : LimitEvents) :
    List NonReusableReason :=
  let reasons := appendReason reasons (events.contains .memoryHigh) .memoryHigh
  let reasons := appendReason reasons (events.contains .memoryMax) .memoryMax
  let reasons := appendReason reasons (events.contains .memoryOom) .memoryOom
  let reasons := appendReason reasons (events.contains .memoryOomKill) .memoryOomKill
  let reasons := appendReason reasons (events.contains .memoryOomGroupKill) .memoryOomGroupKill
  let reasons := appendReason reasons (events.contains .swapMax) .swapMax
  appendReason reasons (events.contains .swapFail) .swapFail

def appendOutcomeReason (reasons : List NonReusableReason) :
    ExecutionOutcome → List NonReusableReason
  | .exited code => if code = 0 then reasons else reasons ++ [.exitCodeNonzero]
  | .signaled _ => reasons ++ [.processSignaled]
  | .timedOut => reasons ++ [.timedOut]
  | .denied => reasons ++ [.denied]
  | .launcherFailed => reasons ++ [.launcherFailed]
  | .incomplete => reasons ++ [.executionIncomplete]

/-- The vector of reasons at the end of `derive_receipt_eligibility`. -/
def reasons (facts : ReceiptFacts) : List NonReusableReason :=
  let reasons := appendReason [] (facts.boundary == .incomplete) .boundaryIncomplete
  let reasons := appendOutcomeReason reasons facts.outcome
  let reasons := appendReason reasons (facts.stdout == .truncated) .standardOutputTruncated
  let reasons := appendReason reasons (facts.stderr == .truncated) .standardErrorTruncated
  let reasons := appendReason reasons (facts.structureState == .malformed) .receiptMalformed
  appendLimitEventReasons reasons facts.limitEvents

def deriveReceiptEligibility (facts : ReceiptFacts) : ReceiptEligibility :=
  if (reasons facts).isEmpty then .reusable else .nonReusable (reasons facts)

/-! ## The reasons, part by part -/

theorem appendReason_eq (reasons : List NonReusableReason) (present : Bool)
    (reason : NonReusableReason) :
    appendReason reasons present reason = reasons ++ appendReason [] present reason := by
  cases present <;> simp [appendReason]

theorem appendOutcomeReason_eq (reasons : List NonReusableReason) (outcome : ExecutionOutcome) :
    appendOutcomeReason reasons outcome = reasons ++ appendOutcomeReason [] outcome := by
  cases outcome with
  | exited code => by_cases h : code = 0 <;> simp [appendOutcomeReason, h]
  | _ => simp [appendOutcomeReason]

theorem appendLimitEventReasons_eq (reasons : List NonReusableReason) (events : LimitEvents) :
    appendLimitEventReasons reasons events = reasons ++ appendLimitEventReasons [] events := by
  have happend : ∀ (reasons reasons' : List NonReusableReason) present reason,
      appendReason (reasons ++ reasons') present reason =
        reasons ++ appendReason reasons' present reason := by
    intro reasons reasons' present reason
    cases present <;> simp [appendReason]
  unfold appendLimitEventReasons
  rw [appendReason_eq reasons]
  simp only [happend]

/-- The reasons are those of the boundary, the outcome, the two streams, the
structure and the limit events, in this order. -/
theorem reasons_eq (facts : ReceiptFacts) :
    reasons facts = appendReason [] (facts.boundary == .incomplete) .boundaryIncomplete ++
      appendOutcomeReason [] facts.outcome ++
      appendReason [] (facts.stdout == .truncated) .standardOutputTruncated ++
      appendReason [] (facts.stderr == .truncated) .standardErrorTruncated ++
      appendReason [] (facts.structureState == .malformed) .receiptMalformed ++
      appendLimitEventReasons [] facts.limitEvents := by
  unfold reasons
  rw [appendLimitEventReasons_eq, appendReason_eq (appendReason (appendReason _ _ _) _ _),
    appendReason_eq (appendReason _ _ .standardOutputTruncated),
    appendReason_eq (appendOutcomeReason _ _), appendOutcomeReason_eq]

end ProofboundRuntime.Core
