import ProofboundRuntime.Verify.DecodeV2
import ProofboundRuntime.Verify.Identity

/-!
# The verifier

`lib.rs`, `canonical.rs`, `commitment.rs`: a receipt is decoded, its bytes are
compared with the expected commitment, its identities are validated, and the
eligibility is derived.

An input that starts with a brace is a version 1 receipt or a diagnostic
receipt.  These are JSON texts; what the verifier does with them is the
parameter `json`.  SHA-256 is the parameter `sha256`.
-/

namespace ProofboundRuntime.Verify

open Result

inductive CanonicalError where
  | duplicateKey
  | bytesMismatch
  | decode (error : DecodeError)
deriving DecidableEq

inductive CommitmentError where
  | invalidEncoding
  | mismatch
deriving DecidableEq

inductive VerifyError where
  | diagnosticProfileNotReusable
  | canonical (error : CanonicalError)
  | commitment (error : CommitmentError)
  | validation (error : ValidationError)
deriving DecidableEq

/-- The verification of JSON inputs. -/
structure JsonPath where
  rejectDiagnosticProfile : List UInt8 → Except VerifyError Unit
  validateCanonicalReceipt : List UInt8 → Except CanonicalError DecodedReceipt

/-- `ReceiptCommitment`. -/
abbrev Commitment := Vector UInt8 32

structure VerificationReport where
  commitment : Commitment
  eligibility : EligibilityDecision
deriving DecidableEq

variable (json : JsonPath) (sha256 : List UInt8 → Commitment)

def isJson (input : List UInt8) : Bool := input.head? == some 0x7b

def rejectDiagnosticProfile (input : List UInt8) : Except VerifyError Unit :=
  if isJson input then json.rejectDiagnosticProfile input else .ok ()

def validateCanonicalReceipt (input : List UInt8) : Except CanonicalError DecodedReceipt :=
  if isJson input then json.validateCanonicalReceipt input
  else do
    let decoded ← (decodeV2Receipt input).mapError .decode
    rejectIf (decoded.versionTwo = false) .bytesMismatch
    pure decoded

/-- `ReceiptCommitment::verify`. -/
def verifyCommitment (expected : Commitment) (input : List UInt8) :
    Except CommitmentError Unit :=
  rejectIf (sha256 input ≠ expected) .mismatch

def verifyReceipt (input : List UInt8) (expected : Commitment) :
    Except VerifyError VerificationReport := do
  rejectDiagnosticProfile json input
  let decoded ← (validateCanonicalReceipt json input).mapError .canonical
  (verifyCommitment sha256 expected input).mapError .commitment
  (validateReceipt decoded).mapError .validation
  pure { commitment := expected, eligibility := deriveEligibility decoded.eligibilityInput }

end ProofboundRuntime.Verify
