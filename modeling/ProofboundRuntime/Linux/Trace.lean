import ProofboundRuntime.Lib.Maps
import ProofboundRuntime.Lib.Mut

/-!
# The process-tree trace

`trace.rs`: what an active trace does with one wait result, and what a draining
trace does with it.  The answers of the system are collected in `Kernel`.  The
order in which the loops poll the processes is left open, so a run is over any
list of wait results.
-/

namespace ProofboundRuntime.Linux

open Result

/-- A process in the positive range of Linux. -/
@[ext] structure TraceProcessId where
  get : UInt32
  ne_zero : get ≠ 0
  le_max : get ≤ 0x7fffffff

instance : DecidableEq TraceProcessId :=
  fun _ _ => decidable_of_iff _ TraceProcessId.ext_iff.symm

/-- `TraceProcessId::new`.  Its error is replaced by every caller. -/
def TraceProcessId.new (value : UInt32) : Option TraceProcessId :=
  if h : value ≠ 0 ∧ value ≤ 0x7fffffff then some ⟨value, h.1, h.2⟩ else none

theorem TraceProcessId.get_injective : Function.Injective TraceProcessId.get := by
  intro p q h
  cases p
  cases q
  cases h
  rfl

instance : LinearOrder TraceProcessId :=
  LinearOrder.lift' (fun p => p.get.toNat) fun _ _ h =>
    TraceProcessId.get_injective (UInt32.toNat_inj.mp h)

inductive TraceObservationError where
  | drainRequired
  | processTreeDrained
  | processIdentityInvalid
  | processIdentityChanged
  | processIdentityDuplicate
  | treeReconciliationFailed
  | processCapacityExceeded
  | processUnknown
  | initialStopMissing
  | waitFailed
  | waitTimedOut
  | resumeFailed
  | eventMessageInvalid
  | syscallInformationInvalid
  | architectureUnsupported
  | syscallFormUnsupported
  | traceeMemoryReadFailed
  | traceeStringLimitExceeded
  | pathLimitExceeded
  | socketAddressLimitExceeded
  | syscallOrderInvalid
  | processHandleFailed
  | threadGroupInvalid
  | drainFailed
  | drainTimedOut
  | streamReadFailed
  | streamDrainTimedOut
  | resourceCleanupFailed
  | resourceObservationIncomplete
deriving DecidableEq

/-! ## Events -/

inductive TraceProcessCreationKind where
  | clone
  | fork
  | vfork
deriving DecidableEq

inductive TraceSyscallClass where
  | bind
  | clone
  | connect
  | creat
  | execve
  | execveat
  | fork
  | newfstatat
  | open
  | openat
  | openat2
  | readlink
  | readlinkat
  | sendto
  | socket
  | statx
  | vfork
deriving DecidableEq

inductive TraceCapturedOperands where
  | path (bufferBytes : Option UInt64) (directoryFd : Option Int32) (flags mask mode : Option UInt64)
      (path : List UInt8) (resolve : Option UInt64)
  | processCreate (flags : Option UInt64)
  | socketAddress (address : Option (List UInt8)) (descriptor : UInt32)
      (payloadBytes : Option UInt64)
  | socketCreate (domain protocol socketType : UInt32)
deriving DecidableEq

structure TraceObjectIdentity where
  deviceMajor : UInt32
  deviceMinor : UInt32
  inode : UInt64
  mode : UInt32
  mountId : UInt64
deriving DecidableEq

structure TraceSelectedObject where
  path : List UInt8
  identity : TraceObjectIdentity
deriving DecidableEq

structure TraceCandidateObject where
  path : List UInt8
  symlinkHops : UInt32
  objectBefore : TraceObjectIdentity
  objectAfter : TraceObjectIdentity
deriving DecidableEq

inductive TraceCandidateObservation where
  | stable (candidate : TraceCandidateObject)
  | identityDrift
  | symlinkLimit
deriving DecidableEq

/-- The entry of a system call, without the registers that nothing reads. -/
structure TraceSyscallInvocation where
  architecture : UInt32
  syscallClass : TraceSyscallClass
  operands : TraceCapturedOperands
deriving DecidableEq

inductive TraceTermination where
  | exit (code : Int32)
  | signal (signal : Int32)
deriving DecidableEq

inductive ActiveTraceEvent where
  | syscallCompleted (process : TraceProcessId) (invocation : TraceSyscallInvocation)
      (result : Int64) (isError : Bool) (selectedObject : Option TraceSelectedObject)
      (candidate : Option TraceCandidateObservation)
  | processCreated (parent child : TraceProcessId) (kind : TraceProcessCreationKind)
  | imageReplaced (formerProcess process : TraceProcessId)
      (supersededProcesses : List TraceProcessId) (invocation : Option TraceSyscallInvocation)
      (selectedObject : Option TraceSelectedObject)
  | processExited (process : TraceProcessId) (termination : TraceTermination)
  | unexpectedStop (process : TraceProcessId) (signal : Int32) (event : UInt32)
deriving DecidableEq

inductive TraceDrainObservation where
  | processCreated (parent child : TraceProcessId) (kind : TraceProcessCreationKind)
  | imageReplaced (formerProcess process : TraceProcessId)
      (supersededProcesses : List TraceProcessId)
  | processExited (process : TraceProcessId) (termination : TraceTermination)
deriving DecidableEq

/-! ## State -/

inductive PendingTraceSyscall where
  | captured (invocation : TraceSyscallInvocation)
  | ignored
deriving DecidableEq

structure TraceeState where
  threadGroup : TraceProcessId
  awaitingInitialStop : Bool
  allowInitialExit : Bool
  pending : Option PendingTraceSyscall
deriving DecidableEq

namespace TraceeState

def releasedAtUnknownSyscallPhase (threadGroup : TraceProcessId) : TraceeState :=
  ⟨threadGroup, false, true, none⟩

def awaitingStop (threadGroup : TraceProcessId) : TraceeState := ⟨threadGroup, true, false, none⟩

def beginSyscall (state : TraceeState) (pending : PendingTraceSyscall) :
    Except TraceObservationError TraceeState :=
  if state.pending.isSome then .error .syscallOrderInvalid
  else .ok { state with allowInitialExit := false, pending := some pending }

def finishSyscall (state : TraceeState) :
    Except TraceObservationError (Option PendingTraceSyscall × TraceeState) :=
  match state.pending with
  | some pending => .ok (some pending, { state with pending := none })
  | none =>
    if state.allowInitialExit then .ok (none, { state with allowInitialExit := false })
    else .error .syscallOrderInvalid

end TraceeState

abbrev Processes := Finmap fun _ : TraceProcessId => TraceeState

structure ActiveTrace where
  root : TraceProcessId
  processes : Processes
  processHandles : Finset TraceProcessId
  heldProcess : Option TraceProcessId
  mustDrain : Bool
  processLimit : Nat
  treeReconciliationFailed : Bool
deriving DecidableEq

/-- `drain_capacity`. -/
def ActiveTrace.drainCapacity (t : ActiveTrace) : Nat := t.processLimit * 2

/-- The live threads. -/
def ActiveTrace.live (t : ActiveTrace) : Finset TraceProcessId := t.processes.keys

def ActiveTrace.isDrained (t : ActiveTrace) : Bool :=
  decide (t.processes = ∅) && !t.treeReconciliationFailed

/-- A trace whose root was released. -/
def ActiveTrace.released (root : TraceProcessId) (processLimit : Nat) : ActiveTrace where
  root := root
  processes := Finmap.singleton root (.releasedAtUnknownSyscallPhase root)
  processHandles := {root}
  heldProcess := none
  mustDrain := false
  processLimit := processLimit
  treeReconciliationFailed := false

/-! ## Answers of the system -/

inductive TraceWaitStatus where
  | stopped (signal : Int32) (event : UInt32)
  | exited (code : Int32)
  | signaled (signal : Int32)
deriving DecidableEq

structure TraceWaitObservation where
  processId : UInt32
  status : TraceWaitStatus
deriving DecidableEq

/-- A syscall stop.  What the registers of an entry decode to is an answer of
its own. -/
inductive TraceSyscallStop where
  | entry
  | exit (result : Int64) (isError : Bool)
  | seccomp
  | none
deriving DecidableEq

structure CandidatePass where
  path : List UInt8
  symlinkHops : UInt32
  identity : TraceObjectIdentity
deriving DecidableEq

inductive CandidateResolutionError where
  | symlinkLimit
  | unresolved
deriving DecidableEq

/-- What the system answers while one wait result is handled. -/
structure Kernel where
  /-- `trace_event_process`. -/
  eventProcess : Option UInt32
  /-- `read_thread_group_id`. -/
  threadGroup : Option TraceProcessId
  /-- `trace_open_process_handle` succeeds. -/
  openHandle : Bool
  /-- `deadline.expired()` before a tracee is resumed. -/
  expired : Bool
  /-- `trace_syscall` succeeds. -/
  resumed : Bool
  /-- `trace_syscall_stop`. -/
  syscallStop : Option TraceSyscallStop
  /-- `capture_syscall_invocation` of the entry registers. -/
  invocation : Except TraceObservationError (Option TraceSyscallInvocation)
  /-- `observe_selected_object`. -/
  selectedObject : Option TraceSelectedObject
  /-- The two passes of `resolve_candidate_once`. -/
  before : Except CandidateResolutionError CandidatePass
  after : Except CandidateResolutionError CandidatePass
  /-- `trace_kill_process_handle` of the group of a process succeeds. -/
  killed : TraceProcessId → Bool

def signalStop : Int32 := 19
def signalTrap : Int32 := 5
def signalSyscall : Int32 := 133

def traceEventIsExec (event : UInt32) : Bool := event == 4

def traceProcessCreationEvent (event : UInt32) : Option TraceProcessCreationKind :=
  if event = 1 then some .fork
  else if event = 2 then some .vfork
  else if event = 3 then some .clone
  else none

/-! ## Objects of a system call -/

/-- A successful open by the only tracee selects the descriptor it returned. -/
def eligibleSelectedDescriptor (syscallClass : TraceSyscallClass) (result : Int64)
    (isError : Bool) (retainedProcesses : Nat) : Option Int64 :=
  if isError = true ∨ retainedProcesses ≠ 1 ∨
      ¬(syscallClass = .creat ∨ syscallClass = .open ∨ syscallClass = .openat ∨
        syscallClass = .openat2) then none
  else if 0 ≤ result ∧ result ≤ 0x7fffffff then some result
  else none

namespace ActiveTrace

variable (t : ActiveTrace) (k : Kernel)

def observeSuccessfulDescriptor (invocation : TraceSyscallInvocation) (result : Int64)
    (isError : Bool) : Option TraceSelectedObject :=
  match eligibleSelectedDescriptor invocation.syscallClass result isError t.live.card with
  | none => none
  | some _ => k.selectedObject

/-- The two passes over the path of a failed operation. -/
def observeCandidate : Option TraceCandidateObservation :=
  match k.before with
  | .error .symlinkLimit => some .symlinkLimit
  | .error .unresolved => none
  | .ok before =>
    match k.after with
    | .error .symlinkLimit => some .symlinkLimit
    | .error .unresolved => none
    | .ok after =>
      if before ≠ after then some .identityDrift
      else some (.stable ⟨after.path, after.symlinkHops, before.identity, after.identity⟩)

def observeFailedCandidate (invocation : TraceSyscallInvocation) (isError : Bool) :
    Option TraceCandidateObservation :=
  if isError = false ∨ t.live.card ≠ 1 then none
  else
    match invocation.operands with
    | .path _ _ _ _ _ path _ => if path = [] then none else observeCandidate k
    | _ => none

end ActiveTrace

/-! ## Changes of the process tree -/

abbrev TraceM := Mut ActiveTrace TraceObservationError

/-- The process that an event names. -/
def eventProcess (k : Kernel) : Except TraceObservationError TraceProcessId := do
  let value ← okOr k.eventProcess .eventMessageInvalid
  okOr (TraceProcessId.new value) .processIdentityInvalid

def resumeBeforeDeadline (k : Kernel) : TraceM Unit :=
  if k.expired then do
    Mut.modify fun t => { t with mustDrain := true }
    Mut.fail .waitTimedOut
  else if k.resumed then pure ()
  else do
    Mut.modify fun t => { t with mustDrain := true }
    Mut.fail .resumeFailed

/-- The threads of a group. -/
def groupMembers (processes : Processes) (group : TraceProcessId) : Finset TraceProcessId :=
  processes.keys.filter fun process =>
    (processes.lookup process).any fun state => state.threadGroup = group

def removeUnusedProcessHandles (t : ActiveTrace) : ActiveTrace :=
  { t with processHandles := t.processHandles.filter fun group =>
      (groupMembers t.processes group).Nonempty }

structure ExecIdentityChange where
  former : TraceProcessId
  survivor : TraceProcessId
  superseded : List TraceProcessId
deriving DecidableEq

def reconcileExecProcesses (processes : Processes) (requested reported former : TraceProcessId) :
    Except TraceObservationError (ExecIdentityChange × Processes) := do
  rejectIf (reported ≠ requested) .processIdentityChanged
  let survivor ← okOr (processes.lookup reported) .processUnknown
  let execState ← okOr (processes.lookup former) .processUnknown
  rejectIf (survivor.threadGroup ≠ reported ∨ execState.threadGroup ≠ reported)
    .processIdentityChanged
  let remaining := processes.erase former
  let replacedThreads := (groupMembers remaining reported).sort
  pure (⟨former, reported, replacedThreads⟩,
    (Maps.eraseAll replacedThreads remaining).insert reported
      { execState with threadGroup := reported, awaitingInitialStop := false })

/-- `entry(group)`: a missing handle is opened. -/
def ensureProcessHandle (k : Kernel) (group : TraceProcessId) : TraceM Unit := do
  let t ← Mut.get
  if group ∈ t.processHandles then pure ()
  else if k.openHandle then
    Mut.modify fun t => { t with processHandles := insert group t.processHandles }
  else Mut.fail .processHandleFailed

def reconcileExecIdentity (k : Kernel) (requested reported : TraceProcessId) :
    TraceM ExecIdentityChange := do
  let former ← Mut.lift (eventProcess k)
  let t ← Mut.get
  let (change, processes) ←
    Mut.lift (reconcileExecProcesses t.processes requested reported former)
  Mut.modify fun t => { t with processes := processes }
  -- The threads are already replaced when the handle cannot be opened.
  ensureProcessHandle k reported
  Mut.modify removeUnusedProcessHandles
  pure change

def recordTerminalProcess (process : TraceProcessId) : TraceM Unit := do
  let t ← Mut.get
  if process ∉ t.processes then Mut.fail .processUnknown
  else
    Mut.modify fun t => removeUnusedProcessHandles
      { t with processes := t.processes.erase process }

/-- Whether the process limit is exceeded. -/
def registerChild (k : Kernel) (child : TraceProcessId) : TraceM Bool := do
  let t ← Mut.get
  if t.drainCapacity ≤ t.live.card then Mut.fail .processCapacityExceeded
  else do
    let capacityExceeded := decide (t.processLimit ≤ t.live.card)
    let threadGroup ← Mut.lift (okOr k.threadGroup .threadGroupInvalid)
    ensureProcessHandle k threadGroup
    Mut.modify fun t =>
      { t with processes := t.processes.insert child (.awaitingStop threadGroup) }
    pure capacityExceeded

/-! ## The active trace -/

def replaceState (process : TraceProcessId) (state : TraceeState) : TraceM Unit :=
  Mut.modify fun t => { t with processes := t.processes.insert process state }

def handleSyscallStop (k : Kernel) (process : TraceProcessId) :
    TraceM (Option ActiveTraceEvent) := do
  let t ← Mut.get
  let state ← Mut.lift (okOr (t.processes.lookup process) .processUnknown)
  if state.awaitingInitialStop then Mut.fail .initialStopMissing
  else
    match k.syscallStop with
    | some .entry => do
      let invocation ← Mut.lift k.invocation
      let pending := (invocation.map PendingTraceSyscall.captured).getD .ignored
      let next ← Mut.lift (state.beginSyscall pending)
      replaceState process next
      resumeBeforeDeadline k
      pure none
    | some (.exit result isError) => do
      let (pending, next) ← Mut.lift state.finishSyscall
      replaceState process next
      match pending with
      | some (.captured invocation) => do
        let t ← Mut.get
        Mut.modify fun t => { t with heldProcess := some process }
        pure (some (.syscallCompleted process invocation result isError
          (t.observeSuccessfulDescriptor k invocation result isError)
          (t.observeFailedCandidate k invocation isError)))
      | some .ignored | none => do
        resumeBeforeDeadline k
        pure none
    | some .seccomp | some .none | none => Mut.fail .syscallInformationInvalid

/-- The pending entry of the system call that replaced the image. -/
def capturedInvocation (processes : Processes) (process : TraceProcessId) :
    Option TraceSyscallInvocation :=
  match (processes.lookup process).bind TraceeState.pending with
  | some (.captured invocation) => some invocation
  | _ => none

def handleExec (k : Kernel) (requested reported : TraceProcessId) :
    TraceM (Option ActiveTraceEvent) := do
  let change ← reconcileExecIdentity k requested reported
  let t ← Mut.get
  Mut.modify fun t => { t with heldProcess := some change.survivor }
  pure (some (.imageReplaced change.former change.survivor change.superseded
    (capturedInvocation t.processes change.survivor) k.selectedObject))

def handleCreation (k : Kernel) (reported : TraceProcessId) (kind : TraceProcessCreationKind) :
    TraceM (Option ActiveTraceEvent) := do
  Mut.modify fun t => { t with treeReconciliationFailed := true }
  let child ← Mut.lift (eventProcess k)
  let t ← Mut.get
  if child ∈ t.processes then Mut.fail .processIdentityDuplicate
  else do
    let capacityExceeded ← registerChild k child
    Mut.modify fun t =>
      { t with
        treeReconciliationFailed := false
        mustDrain := t.mustDrain || capacityExceeded
        heldProcess := some reported }
    pure (some (.processCreated reported child kind))

/-- The initial stop of a new child, or a stop outside the protocol. -/
def handleOtherStop (k : Kernel) (reported : TraceProcessId) (signal : Int32)
    (event : UInt32) : TraceM (Option ActiveTraceEvent) := do
  let t ← Mut.get
  match (if signal = signalStop ∧ event = 0 then t.processes.lookup reported else none) with
  | some ⟨threadGroup, true, allowInitialExit, pending⟩ => do
    replaceState reported ⟨threadGroup, false, allowInitialExit, pending⟩
    resumeBeforeDeadline k
    pure none
  | _ => do
    Mut.modify fun t => { t with mustDrain := true }
    pure (some (.unexpectedStop reported signal event))

def handleStop (k : Kernel) (requested reported : TraceProcessId) (signal : Int32)
    (event : UInt32) : TraceM (Option ActiveTraceEvent) :=
  if signal = signalTrap ∧ traceEventIsExec event = true then handleExec k requested reported
  else
    match (if signal = signalTrap then traceProcessCreationEvent event else none) with
    | some kind => handleCreation k reported kind
    | none =>
      if signal = signalSyscall ∧ event = 0 then handleSyscallStop k reported
      else handleOtherStop k reported signal event

/-- The identity of a wait result must be the one that was asked for. -/
def requireReported (requested : TraceProcessId) (observation : TraceWaitObservation) :
    Except TraceObservationError TraceProcessId := do
  let reported ← okOr (TraceProcessId.new observation.processId) .processIdentityInvalid
  rejectIf (reported ≠ requested) .processIdentityChanged
  pure reported

def handleWaitObservation (k : Kernel) (requested : TraceProcessId)
    (observation : TraceWaitObservation) : TraceM (Option ActiveTraceEvent) := do
  let reported ← Mut.lift (requireReported requested observation)
  match observation.status with
  | .stopped signal event => handleStop k requested reported signal event
  | .exited code => do
    recordTerminalProcess reported
    pure (some (.processExited reported (.exit code)))
  | .signaled signal => do
    recordTerminalProcess reported
    pure (some (.processExited reported (.signal signal)))

/-- One answer to the polling loop of `next_event`. -/
inductive Poll where
  | nothing
  | failed
  | expired
  | observed (requested : TraceProcessId) (observation : TraceWaitObservation) (k : Kernel)
      (expiredBefore expiredAfter : Bool)

def requireDrain (error : TraceObservationError) : TraceM (Option ActiveTraceEvent) := do
  Mut.modify fun t => { t with mustDrain := true }
  Mut.fail error

/-- The polling loop.  It returns no event while it still waits, and it asks for
the known processes only. -/
def pollEvents : List Poll → TraceM (Option ActiveTraceEvent)
  | [] => pure none
  | .nothing :: polls => pollEvents polls
  | .failed :: _ => requireDrain .waitFailed
  | .expired :: _ => requireDrain .waitTimedOut
  | .observed requested observation k expiredBefore expiredAfter :: polls => fun t =>
    if requested ∉ t.processes then pollEvents polls t
    else if expiredBefore then requireDrain .waitTimedOut t
    else
      match handleWaitObservation k requested observation t with
      | (handled, t) =>
        if expiredAfter then requireDrain .waitTimedOut t
        else
          match handled with
          | .ok none => pollEvents polls t
          | .ok (some event) => (.ok (some event), t)
          | .error error => requireDrain error t

/-- The answers to one call of `next_event`. -/
structure NextAnswers where
  expired : Bool
  resume : Kernel
  polls : List Poll

def resumeHeldProcess (k : Kernel) : TraceM Unit := do
  let t ← Mut.get
  match t.heldProcess with
  | none => pure ()
  | some _ => do
    Mut.modify fun t => { t with heldProcess := none }
    resumeBeforeDeadline k

def nextEvent (answers : NextAnswers) : TraceM (Option ActiveTraceEvent) := do
  let t ← Mut.get
  if t.mustDrain then Mut.fail .drainRequired
  else if t.processes = ∅ then Mut.fail .processTreeDrained
  else if answers.expired then requireDrain .waitTimedOut
  else do
    resumeHeldProcess answers.resume
    pollEvents answers.polls

/-! ## The draining trace -/

def beginTermination (t : ActiveTrace) : ActiveTrace :=
  { t with heldProcess := none, mustDrain := true }

def signalProcess (k : Kernel) (process : TraceProcessId) : TraceM Unit := do
  let t ← Mut.get
  let state ← Mut.lift (okOr (t.processes.lookup process) .processUnknown)
  if state.threadGroup ∉ t.processHandles then Mut.fail .processHandleFailed
  else if k.killed process then pure ()
  else Mut.fail .drainFailed

def drainExec (k : Kernel) (requested reported : TraceProcessId) :
    TraceM (Option TraceDrainObservation) := do
  let change ← reconcileExecIdentity k requested reported
  signalProcess k change.survivor
  pure (some (.imageReplaced change.former change.survivor change.superseded))

def drainCreation (k : Kernel) (reported : TraceProcessId) (kind : TraceProcessCreationKind) :
    TraceM (Option TraceDrainObservation) := do
  let child ← Mut.lift (eventProcess k)
  let t ← Mut.get
  if child ∉ t.processes then do
    let _ ← registerChild k child
    signalProcess k child
    signalProcess k reported
    pure (some (.processCreated reported child kind))
  else do
    signalProcess k child
    signalProcess k reported
    pure (some (.processCreated reported child kind))

def handleDrainObservation (k : Kernel) (requested : TraceProcessId)
    (observation : TraceWaitObservation) : TraceM (Option TraceDrainObservation) := do
  let reported ← Mut.lift (requireReported requested observation)
  match observation.status with
  | .stopped signal event =>
    if signal = signalTrap ∧ traceEventIsExec event = true then drainExec k requested reported
    else
      match (if signal = signalTrap then traceProcessCreationEvent event else none) with
      | some kind => drainCreation k reported kind
      | none => do
        signalProcess k reported
        pure none
  | .exited code => do
    recordTerminalProcess reported
    pure (some (.processExited reported (.exit code)))
  | .signaled signal => do
    recordTerminalProcess reported
    pure (some (.processExited reported (.signal signal)))

/-- One wait result of the drain.  The loop skips a process that is gone. -/
structure DrainPoll where
  requested : TraceProcessId
  observation : TraceWaitObservation
  k : Kernel

def drainLoop : List DrainPoll → TraceM (List TraceDrainObservation)
  | [] => pure []
  | poll :: polls => do
    let t ← Mut.get
    if poll.requested ∉ t.processes then drainLoop polls
    else do
      let observed ← handleDrainObservation poll.k poll.requested poll.observation
      let observations ← drainLoop polls
      pure (observed.toList ++ observations)

/-- `DrainingTrace::finish`, with the result of collecting the terminal state.
A drain that leaves a process runs into its deadline. -/
def drain (polls : List DrainPoll) (terminal : Except TraceObservationError Unit) :
    TraceM (List TraceDrainObservation) := do
  let observations ← drainLoop polls
  let t ← Mut.get
  if t.processes ≠ ∅ then Mut.fail .drainTimedOut
  else if t.treeReconciliationFailed then Mut.fail .treeReconciliationFailed
  else do
    Mut.lift terminal
    pure observations

end ProofboundRuntime.Linux
