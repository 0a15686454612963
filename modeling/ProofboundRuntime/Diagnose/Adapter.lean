import ProofboundRuntime.Diagnose.Observer
import ProofboundRuntime.Linux.Trace

/-!
# The observer of a trace

`adapter.rs`: an active observer forwards each trace event to the observer
protocol, and a draining observer forwards what the drain reported.
-/

namespace ProofboundRuntime.Diagnose

open Result
open Linux (TraceProcessId TraceProcessCreationKind ActiveTrace ActiveTraceEvent
  TraceDrainObservation TraceObservationError)

inductive ObserverAdapterError where
  | protocol (error : ObserverProtocolError)
  | observation (error : TraceObservationError)
deriving DecidableEq

def diagnosticProcess (process : TraceProcessId) :
    Except ObserverProtocolError DiagnosticProcessId :=
  DiagnosticProcessId.new process.get

def processCreationKind : TraceProcessCreationKind → ProcessCreationKind
  | .clone => .clone
  | .fork => .fork
  | .vfork => .vfork

inductive DrainPublication where
  | eligible
  | forbidden (error : TraceObservationError)
deriving DecidableEq

structure ActiveObserver where
  trace : ActiveTrace
  protocol : ObserverProtocol
deriving DecidableEq

structure DrainingObserver where
  trace : ActiveTrace
  protocol : ObserverProtocol
  untrackedProcesses : Finset DiagnosticProcessId
  publication : DrainPublication
deriving DecidableEq

structure CompletedObserver where
  protocol : ObserverProtocol
  publication : ObserverDirective
deriving DecidableEq

inductive ObserverObservation where
  | event (event : ActiveTraceEvent)
  | failure (error : TraceObservationError)
deriving DecidableEq

/-- The result of one call of `next_event`.  The call still waits when its
answers end without an event. -/
inductive ActiveObserverStep where
  | waiting (observer : ActiveObserver)
  | continue (observer : ActiveObserver) (event : ActiveTraceEvent)
  | drain (observer : DrainingObserver) (observation : ObserverObservation)
  | complete (observer : CompletedObserver) (event : ActiveTraceEvent)
deriving DecidableEq

/-- A second call after the first one let the observation continue. -/
def ObserverProtocol.andThen (r : ObserverDirective × ObserverProtocol)
    (next : ObserverProtocol → Transition) : Transition :=
  if r.1 = .continue then next r.2 else .ok r

/-- The calls that one trace event makes, with the child that stays
untracked. -/
def forwardEvent (p : ObserverProtocol) (event : ActiveTraceEvent) :
    Except ObserverProtocolError
      ((ObserverDirective × ObserverProtocol) × Finset DiagnosticProcessId) :=
  match event with
  | .syscallCompleted process .. => do
    let process ← diagnosticProcess process
    let r ← p.recordEvent process
    pure (r, ∅)
  | .processCreated parent child kind => do
    let parent ← diagnosticProcess parent
    let child ← diagnosticProcess child
    let discovered ← p.discoverChild parent child (processCreationKind kind)
    let untracked := if child ∈ discovered.2.processes then ∅ else {child}
    let r ← ObserverProtocol.andThen discovered fun p => p.recordEvent parent
    pure (r, untracked)
  | .imageReplaced former process superseded _ _ => do
    let former ← diagnosticProcess former
    let survivor ← diagnosticProcess process
    let superseded ← collect diagnosticProcess superseded
    let replaced ← p.recordExec former survivor superseded
    let r ← ObserverProtocol.andThen replaced fun p => p.recordEvent survivor
    pure (r, ∅)
  | .processExited process _ => do
    let process ← diagnosticProcess process
    let r ← p.recordProcessExit process
    pure (r, ∅)
  | .unexpectedStop process _ _ => do
    let process ← diagnosticProcess process
    let r ← p.recordUnexpectedStop process
    pure (r, ∅)

/-- The answers to one call of `ActiveObserver::next_event`: those of the trace,
whether the groups can be signalled, and the result of collecting a drained
trace. -/
structure ObserverAnswers where
  next : Linux.NextAnswers
  terminated : Except TraceObservationError Unit
  terminal : Except TraceObservationError Unit

namespace ActiveObserver

/-- The setup from the initial stop to the release, with the options that the
trace installed. -/
def start (root : TraceProcessId) (bounds : ObservationBounds) (options : UInt32) :
    Except ObserverProtocolError ActiveObserver := do
  let process ← diagnosticProcess root
  let p ← ObserverProtocol.new process bounds
  let attached ← p.attachRoot
  let ready ← attached.2.recordBoundaryReady
  let options ← DiagnosticTraceOptions.fromBits options
  let enabled ← ready.2.enableTraceOptions options
  let released ← enabled.2.releaseTarget
  pure ⟨.released root bounds.processCount, released.2⟩

/-- A trace error forces the drain. -/
def failed (o : ActiveObserver) (t : ActiveTrace) (error : TraceObservationError)
    (answers : ObserverAnswers) : Except ObserverAdapterError ActiveObserverStep := do
  let publication := if error = .waitTimedOut then .forbidden error else .eligible
  let r ← (o.protocol.recordObserverFailure).mapError .protocol
  rejectIf (r.1 ≠ .terminateAndDrain) (.protocol .transitionInvalid)
  answers.terminated.mapError .observation
  pure (.drain ⟨Linux.beginTermination t, r.2, ∅, publication⟩ (.failure error))

/-- An event is forwarded and its directive is followed. -/
def observed (o : ActiveObserver) (t : ActiveTrace) (event : ActiveTraceEvent)
    (answers : ObserverAnswers) : Except ObserverAdapterError ActiveObserverStep := do
  let (r, untracked) ← (forwardEvent o.protocol event).mapError .protocol
  if r.1 = .terminateAndDrain then do
    answers.terminated.mapError .observation
    pure (.drain ⟨Linux.beginTermination t, r.2, untracked, .eligible⟩ (.event event))
  else do
    rejectIf (r.1 ≠ .continue) (.protocol .transitionInvalid)
    if t.isDrained then do
      answers.terminal.mapError .observation
      let finished ← r.2.finish.mapError .protocol
      pure (.complete ⟨finished.2, finished.1⟩ event)
    else pure (.continue ⟨t, r.2⟩ event)

def nextEvent (o : ActiveObserver) (answers : ObserverAnswers) :
    Except ObserverAdapterError ActiveObserverStep :=
  match Linux.nextEvent answers.next o.trace with
  | (.ok none, t) => .ok (.waiting ⟨t, o.protocol⟩)
  | (.ok (some event), t) => o.observed t event answers
  | (.error error, t) => o.failed t error answers

end ActiveObserver

/-- What one observation of the drain does to the protocol and to the
untracked processes. -/
def forwardDrained (s : ObserverProtocol × Finset DiagnosticProcessId)
    (observation : TraceDrainObservation) :
    Except ObserverProtocolError (ObserverProtocol × Finset DiagnosticProcessId) :=
  match observation with
  | .processCreated parent child kind => do
    let parent ← diagnosticProcess parent
    let child ← diagnosticProcess child
    let r ← s.1.discoverChild parent child (processCreationKind kind)
    pure (r.2, if child ∈ r.2.processes then s.2 else insert child s.2)
  | .imageReplaced former process superseded => do
    let former ← diagnosticProcess former
    let survivor ← diagnosticProcess process
    let superseded ← collect diagnosticProcess superseded
    let r ← s.1.recordExec former survivor superseded
    pure (r.2, s.2)
  | .processExited process _ => do
    let process ← diagnosticProcess process
    if process ∈ s.2 then pure (s.1, s.2.erase process)
    else do
      let r ← s.1.recordProcessExit process
      pure (r.2, s.2)

def forwardAll (s : ObserverProtocol × Finset DiagnosticProcessId) :
    List TraceDrainObservation →
      Except ObserverProtocolError (ObserverProtocol × Finset DiagnosticProcessId)
  | [] => .ok s
  | observation :: observations => do
    let s ← forwardDrained s observation
    forwardAll s observations

/-- `DrainingObserver::finish` once the trace has drained. -/
def DrainingObserver.publish (d : DrainingObserver) (observations : List TraceDrainObservation) :
    Except ObserverAdapterError CompletedObserver := do
  let (p, untracked) ←
    (forwardAll (d.protocol, d.untrackedProcesses) observations).mapError .protocol
  rejectIf (untracked ≠ ∅) (.protocol .processTreeChanged)
  let confirmed ← p.confirmTreeDrained.mapError .protocol
  match d.publication with
  | .forbidden error => .error (.observation error)
  | .eligible => do
    let finished ← confirmed.2.finish.mapError .protocol
    pure ⟨finished.2, finished.1⟩

def DrainingObserver.finish (d : DrainingObserver) (polls : List Linux.DrainPoll)
    (terminal : Except TraceObservationError Unit) :
    Except ObserverAdapterError CompletedObserver := do
  let observations ← (Linux.drain polls terminal d.trace).1.mapError .observation
  d.publish observations

end ProofboundRuntime.Diagnose
