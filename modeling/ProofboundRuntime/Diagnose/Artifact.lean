import ProofboundRuntime.Lib.Result

/-!
# Bounds and gaps of a diagnostic run

`artifact.rs` of the diagnose crate: the bounds that one observation keeps to
and the gaps that it can record.
-/

namespace ProofboundRuntime.Diagnose

open Result

inductive DiagnosticArtifactError where
  | boundInvalid
  | eventInvalid
  | eventOrderInvalid
  | eventBoundExceeded
  | processBoundExceeded
  | pathBoundExceeded
  | symlinkBoundExceeded
  | traceeStringBoundExceeded
  | socketAddressInvalid
  | socketAddressBoundExceeded
  | outcomeInvalid
  | resolutionInvalid
  | completionInvalid
deriving DecidableEq

/-- Fixes every collection bound for one diagnostic run.  The bounds that
`validate` accepts are far below the range of a `u64`, and so is every count
that is compared with one. -/
structure ObservationBounds where
  eventCount : Nat
  eventCountPerProcess : Nat
  outputBytes : Nat
  pathBytes : Nat
  processCount : Nat
  socketAddressBytes : Nat
  symlinkHops : Nat
  traceeStringBytes : Nat
deriving DecidableEq

/-- What `ObservationBounds::validate` accepts. -/
def ObservationBounds.Valid (bounds : ObservationBounds) : Prop :=
  (1 ≤ bounds.eventCount ∧ bounds.eventCount ≤ 1048576) ∧
    (1 ≤ bounds.eventCountPerProcess ∧ bounds.eventCountPerProcess ≤ 1048576) ∧
    (1024 ≤ bounds.outputBytes ∧ bounds.outputBytes ≤ 67108864) ∧
    (1 ≤ bounds.pathBytes ∧ bounds.pathBytes ≤ 1048576) ∧
    (1 ≤ bounds.processCount ∧ bounds.processCount ≤ 4096) ∧
    (1 ≤ bounds.socketAddressBytes ∧ bounds.socketAddressBytes ≤ 4096) ∧
    (1 ≤ bounds.symlinkHops ∧ bounds.symlinkHops ≤ 40) ∧
    (1 ≤ bounds.traceeStringBytes ∧ bounds.traceeStringBytes ≤ 1048576)

instance (bounds : ObservationBounds) : Decidable bounds.Valid :=
  inferInstanceAs (Decidable (_ ∧ _))

def ObservationBounds.validate (bounds : ObservationBounds) :
    Except DiagnosticArtifactError ObservationBounds :=
  if bounds.Valid then .ok bounds else .error .boundInvalid

theorem ObservationBounds.validate_eq_ok {bounds bounds' : ObservationBounds} :
    bounds.validate = .ok bounds' ↔ bounds.Valid ∧ bounds' = bounds := by
  unfold ObservationBounds.validate
  split
  next h => simp [h, eq_comm]
  next h => simp [h]

/-- `DiagnosticGap`, in the order of the declaration, which is the order of
the wire names. -/
inductive DiagnosticGap where
  | architectureUnsupported
  | childLost
  | eventLimit
  | eventPerProcessLimit
  | identityDrift
  | observerFailed
  | outputLimit
  | pathLimit
  | processLimit
  | socketAddressLimit
  | stringLimit
  | symlinkLimit
  | syscallUnsupported
  | traceeMemoryReadFailed
  | unexpectedStop
deriving DecidableEq

instance : Fintype DiagnosticGap where
  elems := {.architectureUnsupported, .childLost, .eventLimit, .eventPerProcessLimit,
    .identityDrift, .observerFailed, .outputLimit, .pathLimit, .processLimit,
    .socketAddressLimit, .stringLimit, .symlinkLimit, .syscallUnsupported,
    .traceeMemoryReadFailed, .unexpectedStop}
  complete gap := by cases gap <;> decide

end ProofboundRuntime.Diagnose
