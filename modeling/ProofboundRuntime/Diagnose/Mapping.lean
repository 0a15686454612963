import ProofboundRuntime.Diagnose.Adapter
import ProofboundRuntime.Diagnose.Events

/-!
# The events that the observer retains

`mapping.rs` turns a trace event into a diagnostic event, and the loop of the
diagnose command keeps the mapped events and the gaps of the resolutions until
the observer completes.
-/

namespace ProofboundRuntime.Diagnose

open Result
open ProofboundRuntime.Core (Architecture)
open Linux (TraceProcessId TraceSyscallClass TraceCapturedOperands TraceObjectIdentity
  TraceSelectedObject TraceCandidateObject TraceCandidateObservation TraceSyscallInvocation
  ActiveTraceEvent TraceObservationError)

inductive DiagnosticEventMapError where
  | architectureUnsupported
  | execInvocationInvalid
  | pathEncodingInvalid
  | outcomeInvalid
  | sequenceOverflow
  | artifact (error : DiagnosticArtifactError)
deriving DecidableEq

/-! ## Objects -/

/-- A resolution with the path, the objects and the symlinks it found. -/
structure MappedResolution where
  resolution : ObservationResolution
  resolvedPath : Option String
  objectBefore : Option ObservedObjectIdentity
  objectAfter : Option ObservedObjectIdentity
  symlinkHops : Option UInt64
deriving DecidableEq

def MappedResolution.unresolved : MappedResolution := ⟨.unresolved, none, none, none, none⟩

/-- The path as text, when it is normalized and not the path of a deleted
file. -/
def mapPath (path : List UInt8) : Option String :=
  (Utf8.fromUtf8 path).filter fun path =>
    isNormalizedAbsolutePath path && !(Utf8.bytes " (deleted)").isSuffixOf (Utf8.bytes path)

def mapIdentity (identity : TraceObjectIdentity) :
    Except DiagnosticArtifactError ObservedObjectIdentity :=
  ObservedObjectIdentity.new identity.deviceMajor identity.deviceMinor identity.inode
    identity.mode identity.mountId

def mapSelectedObject (selected : TraceSelectedObject) : MappedResolution :=
  match mapPath selected.path, mapIdentity selected.identity with
  | some path, .ok identity => ⟨.kernelSelected, some path, none, some identity, none⟩
  | _, _ => .unresolved

def mapCandidateObject (candidate : TraceCandidateObject) : MappedResolution :=
  match mapPath candidate.path with
  | none => .unresolved
  | some path =>
    if candidate.objectBefore ≠ candidate.objectAfter then .unresolved
    else
      match mapIdentity candidate.objectBefore, mapIdentity candidate.objectAfter with
      | .ok before, .ok after =>
        ⟨.stableCandidate, some path, some before, some after,
          some candidate.symlinkHops.toUInt64⟩
      | _, _ => .unresolved

def mapObjectResolution : Option TraceSelectedObject → Option TraceCandidateObservation →
    MappedResolution
  | some selected, none => mapSelectedObject selected
  | none, some (.stable candidate) => mapCandidateObject candidate
  | _, _ => .unresolved

/-! ## Calls -/

def mapArchitecture (value : UInt32) : Except DiagnosticEventMapError Architecture :=
  if value = 0xc000003e then .ok .x86_64
  else if value = 0xc00000b7 then .ok .aarch64
  else .error .architectureUnsupported

def mapClass : TraceSyscallClass → DiagnosticEventClass
  | .bind => .bind
  | .clone => .clone
  | .connect => .connect
  | .creat => .creat
  | .execve => .execve
  | .execveat => .execveat
  | .fork => .fork
  | .newfstatat => .newfstatat
  | .open => .open
  | .openat => .openat
  | .openat2 => .openat2
  | .readlink => .readlink
  | .readlinkat => .readlinkat
  | .sendto => .sendto
  | .socket => .socket
  | .statx => .statx
  | .vfork => .vfork

/-- The family is the little-endian number of the first two bytes. -/
def socketAddressFamily : List UInt8 → SocketAddressFamily
  | low :: high :: _ =>
    match low.toNat + 256 * high.toNat with
    | 1 => .unix
    | 2 => .inet
    | 10 => .inet6
    | 16 => .netlink
    | _ => .other
  | _ => .other

def mapOperands (symlinkHops : Option UInt64) :
    TraceCapturedOperands → Except DiagnosticEventMapError ObservationOperands
  | .path bufferBytes directoryFd flags mask mode path resolve => do
    let path ← okOr (Utf8.fromUtf8 path) .pathEncodingInvalid
    pure (.path ⟨bufferBytes, directoryFd, flags, mask, mode, some path, resolve, symlinkHops⟩)
  | .processCreate flags => pure (.processCreate flags)
  | .socketAddress none descriptor payloadBytes =>
    pure (.socketAddress none descriptor payloadBytes)
  | .socketAddress (some bytes) descriptor payloadBytes => do
    let address ←
      (ObservedSocketAddress.new (socketAddressFamily bytes) bytes).mapError .artifact
    pure (.socketAddress (some address) descriptor payloadBytes)
  | .socketCreate domain protocol socketType => pure (.socketCreate domain protocol socketType)

/-- `MAX_LINUX_ERRNO`. -/
def maxLinuxErrno : Nat := 4095

def mapOutcome (result : Int64) (isError : Bool) :
    Except DiagnosticEventMapError ObservationOutcome :=
  if isError then
    let errno := -result.toInt
    if 1 ≤ errno ∧ errno ≤ maxLinuxErrno then .ok (.failed (UInt32.ofNat errno.toNat))
    else .error .outcomeInvalid
  else if 0 ≤ result.toInt then .ok (.returned (UInt64.ofNat result.toInt.toNat))
  else .error .outcomeInvalid

def mapInvocation (sequence : Nat) (process : TraceProcessId)
    (invocation : TraceSyscallInvocation) (result : Int64) (isError : Bool)
    (selectedObject : Option TraceSelectedObject)
    (candidate : Option TraceCandidateObservation) :
    Except DiagnosticEventMapError DiagnosticEvent := do
  let mapped := mapObjectResolution selectedObject candidate
  let architecture ← mapArchitecture invocation.architecture
  let operands ← mapOperands mapped.symlinkHops invocation.operands
  let outcome ← mapOutcome result isError
  (DiagnosticEvent.new sequence process.get architecture (mapClass invocation.syscallClass)
    operands outcome mapped.resolution mapped.resolvedPath mapped.objectBefore
    mapped.objectAfter).mapError .artifact

/-- The event that the mapper makes with the next sequence. -/
def mapEvent (sequence : Nat) :
    ActiveTraceEvent → Except DiagnosticEventMapError (Option DiagnosticEvent)
  | .syscallCompleted process invocation result isError selectedObject candidate => do
    let event ←
      mapInvocation sequence process invocation result isError selectedObject candidate
    pure (some event)
  | .imageReplaced _ process _ (some invocation) selectedObject => do
    rejectIf (invocation.syscallClass ≠ .execve ∧ invocation.syscallClass ≠ .execveat)
      .execInvocationInvalid
    let event ← mapInvocation sequence process invocation 0 false selectedObject none
    pure (some event)
  | .processCreated .. | .imageReplaced _ _ _ none _ | .processExited .. | .unexpectedStop .. =>
    pure none

/-! ## The loop of the command -/

/-- What the loop has kept: the mapper's next sequence, the events and the gaps
of the resolutions. -/
structure Retention where
  nextSequence : Nat
  events : List DiagnosticEvent
  resolutionGaps : Finset DiagnosticGap
deriving DecidableEq

def Retention.new : Retention := ⟨0, [], ∅⟩

/-- `retain_resolution_gap`. -/
def resolutionGap : ActiveTraceEvent → Finset DiagnosticGap
  | .syscallCompleted _ _ _ _ _ (some .identityDrift) => {.identityDrift}
  | .syscallCompleted _ _ _ _ _ (some .symlinkLimit) => {.symlinkLimit}
  | _ => ∅

/-- An event is mapped and kept. -/
def Retention.retain (r : Retention) (event : ActiveTraceEvent) :
    Except DiagnosticEventMapError Retention := do
  let gaps := r.resolutionGaps ∪ resolutionGap event
  match ← mapEvent r.nextSequence event with
  | none => pure { r with resolutionGaps := gaps }
  | some mapped => do
    rejectIf (2 ^ 64 ≤ r.nextSequence + 1) .sequenceOverflow
    pure ⟨r.nextSequence + 1, r.events ++ [mapped], gaps⟩

inductive DiagnoseError where
  | observer (error : ObserverAdapterError)
  | mapping (error : DiagnosticEventMapError)
  | publicationInvalid
deriving DecidableEq

def Retention.retainObserved (r : Retention) :
    ObserverObservation → Except DiagnosticEventMapError Retention
  | .event event => r.retain event
  | .failure _ => pure r

/-- The loop, over the answers to each call.  A call that still waits leaves the
loop open. -/
def observe (polls : List Linux.DrainPoll) (terminal : Except TraceObservationError Unit)
    (o : ActiveObserver) (r : Retention) :
    List ObserverAnswers → Except DiagnoseError (Option (CompletedObserver × Retention))
  | [] => pure none
  | answers :: rest => do
    match ← (o.nextEvent answers).mapError .observer with
    | .waiting _ => pure none
    | .continue next event => do
      let r ← (r.retain event).mapError .mapping
      observe polls terminal next r rest
    | .drain draining observation => do
      let r ← (r.retainObserved observation).mapError .mapping
      let completed ← (draining.finish polls terminal).mapError .observer
      pure (some (completed, r))
    | .complete completed event => do
      let r ← (r.retain event).mapError .mapping
      pure (some (completed, r))

/-- The gaps that are published. -/
def publishedGaps (completed : CompletedObserver) (r : Retention) : Finset DiagnosticGap :=
  completed.protocol.gaps ∪ r.resolutionGaps

/-- The completion that is published. -/
def publishedCompletion (completed : CompletedObserver) (r : Retention) :
    Except DiagnoseError DiagnosticCompletion :=
  match completed.publication, decide (publishedGaps completed r = ∅) with
  | .publishComplete, true => .ok .complete
  | .publishComplete, false | .publishIncomplete, false => .ok .incomplete
  | _, _ => .error .publicationInvalid

end ProofboundRuntime.Diagnose
