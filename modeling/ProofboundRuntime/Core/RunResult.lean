import ProofboundRuntime.Core.Receipt
import ProofboundRuntime.Lib.Json

/-!
# Run results

`RunResultV2` of `run_result.rs` and its JSON projection.  The constructor bounds an exit code
by 255; a signal number is any nonzero `u32`.
-/

namespace ProofboundRuntime.Core

inductive RunResultError where
  | receiptPathInvalid
  | outcomeInvalid
deriving DecidableEq

/-- The exit code is in the portable range. -/
def ExitCodeFits : ExecutionOutcome → Prop
  | .exited code => 0 ≤ code.toInt ∧ code.toInt ≤ 255
  | _ => True

instance : DecidablePred ExitCodeFits
  | .exited code => inferInstanceAs (Decidable (0 ≤ code.toInt ∧ code.toInt ≤ 255))
  | .signaled _ | .timedOut | .denied | .launcherFailed | .incomplete => instDecidableTrue

@[ext] structure RunResultV2 where
  receipt : String
  executionId : ExecutionId
  commitment : Sha256Digest
  outcome : ExecutionOutcome
  receipt_ne : receipt ≠ ""
  exitCode : ExitCodeFits outcome

instance : DecidableEq RunResultV2 :=
  fun _ _ => decidable_of_iff _ RunResultV2.ext_iff.symm

/-- A path is the bytes of an `OsStr`. -/
def RunResultV2.new (receipt : List UInt8) (executionId : ExecutionId)
    (commitment : Sha256Digest) (outcome : ExecutionOutcome) :
    Except RunResultError RunResultV2 :=
  match Utf8.fromUtf8 receipt with
  | none => .error .receiptPathInvalid
  | some receipt =>
    if hreceipt : receipt = "" then .error .receiptPathInvalid
    else if hcode : ExitCodeFits outcome then
      .ok ⟨receipt, executionId, commitment, outcome, hreceipt, hcode⟩
    else .error .outcomeInvalid

/-- `SCHEMA`. -/
def runResultSchema : String := "proofbound-runtime-run-result/2"

def outcomeJson : ExecutionOutcome → Json
  | .exited code => .object [("code", .number code.toInt), ("kind", .string "exited")]
  | .signaled signal =>
    .object [("kind", .string "signaled"), ("signal", .number signal.get.toNat)]
  | .timedOut => .object [("kind", .string "timed-out")]
  | .denied => .object [("kind", .string "denied")]
  | .launcherFailed => .object [("kind", .string "launcher-failed")]
  | .incomplete => .object [("kind", .string "incomplete")]

/-- `hex:` and the digits. -/
def prefixedHex (bytes : List UInt8) : String := "hex:" ++ Hex.text bytes

/-- The members are in the order of an ordered map. -/
def RunResultV2.jsonProjection (result : RunResultV2) : Json :=
  .object [("commitment", .string (prefixedHex result.commitment.toList)),
    ("execution_id", .string (prefixedHex result.executionId.bytes.toList)),
    ("outcome", outcomeJson result.outcome),
    ("receipt", .string result.receipt),
    ("schema", .string runResultSchema)]

/-- Every run result is made by the constructor. -/
theorem RunResultV2.new_receipt (result : RunResultV2) :
    RunResultV2.new (Utf8.bytes result.receipt) result.executionId result.commitment
      result.outcome = .ok result := by
  rw [RunResultV2.new, Utf8.fromUtf8_bytes]
  dsimp only
  rw [dif_neg result.receipt_ne, dif_pos result.exitCode]

end ProofboundRuntime.Core
