import ProofboundRuntime.Diagnose.Artifact
import ProofboundRuntime.Lib.Maps

/-!
# The observer protocol

`observer.rs`: the pure lifecycle of one diagnostic observer and its bound
decisions.  Each method of the protocol is a call that either is rejected and
leaves the protocol as it was, or gives a directive and the next protocol.
-/

namespace ProofboundRuntime.Diagnose

open Result

inductive ObserverProtocolError where
  | boundsInvalid
  | processIdInvalid
  | processTreeChanged
  | transitionInvalid
  | traceOptionsInvalid
  | processTreeNotDrained
  | treeDrainNotConfirmed
  | protocolTerminal
deriving DecidableEq

/-- A nonzero process in the diagnostic process tree. -/
@[ext] structure DiagnosticProcessId where
  get : UInt32
  ne_zero : get ≠ 0

instance : DecidableEq DiagnosticProcessId :=
  fun _ _ => decidable_of_iff _ DiagnosticProcessId.ext_iff.symm

def DiagnosticProcessId.new (value : UInt32) : Except ObserverProtocolError DiagnosticProcessId :=
  if h : value = 0 then .error .processIdInvalid else .ok ⟨value, h⟩

inductive ProcessCreationKind where
  | clone
  | fork
  | vfork
deriving DecidableEq

/-- The bits of `TRACESYSGOOD`, `TRACEFORK`, `TRACEVFORK`, `TRACECLONE`,
`TRACEEXEC` and `EXITKILL`. -/
def requiredTraceOptions : UInt32 :=
  0x00000001 ||| 0x00000002 ||| 0x00000004 ||| 0x00000008 ||| 0x00000010 ||| 0x00100000

/-- The only accepted option set. -/
structure DiagnosticTraceOptions where
  bits : UInt32
  bits_eq : bits = requiredTraceOptions
deriving DecidableEq

namespace DiagnosticTraceOptions

def fromBits (bits : UInt32) : Except ObserverProtocolError DiagnosticTraceOptions :=
  if h : bits = requiredTraceOptions then .ok ⟨bits, h⟩ else .error .traceOptionsInvalid

def required : DiagnosticTraceOptions := ⟨requiredTraceOptions, rfl⟩

end DiagnosticTraceOptions

inductive ObserverProtocolState where
  | prepared
  | attached
  | boundaryReady
  | optionsEnabled
  | released
  | draining
  | complete
  | incomplete
  | failedBeforeRelease
deriving DecidableEq

namespace ObserverProtocolState

/-- Target code can run or is being terminated. -/
def Observing (state : ObserverProtocolState) : Prop := state = .released ∨ state = .draining

def Terminal (state : ObserverProtocolState) : Prop :=
  state = .complete ∨ state = .incomplete ∨ state = .failedBeforeRelease

instance (state : ObserverProtocolState) : Decidable state.Observing :=
  inferInstanceAs (Decidable (_ ∨ _))

instance (state : ObserverProtocolState) : Decidable state.Terminal :=
  inferInstanceAs (Decidable (_ ∨ _))

end ObserverProtocolState

inductive ObserverDirective where
  | continue
  | terminateAndDrain
  | publishComplete
  | publishIncomplete
  | terminateAndPublishNothing
deriving DecidableEq

structure ProcessObservation where
  events : Nat
deriving DecidableEq

structure ObserverProtocol where
  state : ObserverProtocolState
  bounds : ObservationBounds
  root : DiagnosticProcessId
  processes : Finmap fun _ : DiagnosticProcessId => ProcessObservation
  seenProcesses : Finset DiagnosticProcessId
  totalEvents : Nat
  gaps : Finset DiagnosticGap
  treeDrainConfirmed : Bool
deriving DecidableEq

/-- An accepted call gives a directive and the next protocol. -/
abbrev Transition := Except ObserverProtocolError (ObserverDirective × ObserverProtocol)

namespace ObserverProtocol

def new (root : DiagnosticProcessId) (bounds : ObservationBounds) :
    Except ObserverProtocolError ObserverProtocol := do
  let bounds ← bounds.validate.mapError fun _ => .boundsInvalid
  pure
    { state := .prepared
      bounds, root
      processes := Finmap.singleton root ⟨0⟩
      seenProcesses := {root}
      totalEvents := 0
      gaps := ∅
      treeDrainConfirmed := false }

variable (p : ObserverProtocol)

def requireState (required : ObserverProtocolState) : Except ObserverProtocolError Unit := do
  rejectIf p.state.Terminal .protocolTerminal
  rejectIf (p.state ≠ required) .transitionInvalid

def requireObserving : Except ObserverProtocolError Unit :=
  if p.state.Observing then .ok ()
  else if p.state.Terminal then .error .protocolTerminal
  else .error .transitionInvalid

def stopWithGap (gap : DiagnosticGap) : ObserverDirective × ObserverProtocol :=
  (.terminateAndDrain,
    { p with gaps := insert gap p.gaps, state := .draining, treeDrainConfirmed := false })

/-- The end of an observation that records no gap.  While the tree drains it
withdraws a confirmed drain. -/
def observed : ObserverDirective × ObserverProtocol :=
  if p.state = .draining then (.terminateAndDrain, { p with treeDrainConfirmed := false })
  else (.continue, p)

/-! ## Setup -/

/-- One ordered step of the setup. -/
def advance (required next : ObserverProtocolState) : Transition := do
  p.requireState required
  pure (.continue, { p with state := next })

def attachRoot : Transition := p.advance .prepared .attached

def recordBoundaryReady : Transition := p.advance .attached .boundaryReady

def enableTraceOptions (options : DiagnosticTraceOptions) : Transition := do
  p.requireState .boundaryReady
  rejectIf (options ≠ .required) .traceOptionsInvalid
  pure (.continue, { p with state := .optionsEnabled })

def releaseTarget : Transition := p.advance .optionsEnabled .released

/-! ## Observations -/

def discoverChild (parent child : DiagnosticProcessId) (_kind : ProcessCreationKind) :
    Transition := do
  p.requireObserving
  if parent ∉ p.processes then pure (p.stopWithGap .childLost)
  else if child ∈ p.seenProcesses then pure (p.stopWithGap .observerFailed)
  else if p.bounds.processCount ≤ p.seenProcesses.card then pure (p.stopWithGap .processLimit)
  else
    pure (observed { p with
      seenProcesses := insert child p.seenProcesses
      processes := p.processes.insert child ⟨0⟩ })

/-- The events that are counted for a process. -/
def eventsOf (process : DiagnosticProcessId) : Nat :=
  ((p.processes.lookup process).map ProcessObservation.events).getD 0

/-- The gaps of the exhausted bounds. -/
def limitGaps (perProcessExhausted totalExhausted : Bool) : Finset DiagnosticGap :=
  (if perProcessExhausted then {.eventPerProcessLimit} else ∅) ∪
    (if totalExhausted then {.eventLimit} else ∅)

def recordEvent (process : DiagnosticProcessId) : Transition := do
  p.requireObserving
  if process ∉ p.processes then pure (p.stopWithGap .childLost)
  else if p.state = .draining then
    pure (.terminateAndDrain, { p with treeDrainConfirmed := false })
  else
    let perProcessExhausted := decide (p.bounds.eventCountPerProcess ≤ p.eventsOf process)
    let totalExhausted := decide (p.bounds.eventCount ≤ p.totalEvents)
    if perProcessExhausted || totalExhausted then
      pure (.terminateAndDrain,
        { p with
          gaps := limitGaps perProcessExhausted totalExhausted ∪ p.gaps
          state := .draining
          treeDrainConfirmed := false })
    else do
      let observation ← okOr (p.processes.lookup process) .processTreeChanged
      pure (.continue,
        { p with
          processes := p.processes.insert process ⟨observation.events + 1⟩
          totalEvents := p.totalEvents + 1 })

/-- What `record_exec` requires of the identities of one exec. -/
def IdentitiesAreClosed (former survivor : DiagnosticProcessId)
    (superseded : List DiagnosticProcessId) : Prop :=
  former ∈ p.processes ∧ former ∉ superseded ∧ (∀ process ∈ superseded, process ∈ p.processes) ∧
    superseded.Nodup ∧
    ((former = survivor ∧ survivor ∉ superseded) ∨ (former ≠ survivor ∧ survivor ∈ superseded))

instance (former survivor : DiagnosticProcessId) (superseded : List DiagnosticProcessId) :
    Decidable (p.IdentitiesAreClosed former survivor superseded) :=
  inferInstanceAs (Decidable (_ ∧ _))

def recordExec (former survivor : DiagnosticProcessId) (superseded : List DiagnosticProcessId) :
    Transition := do
  p.requireObserving
  if ¬p.IdentitiesAreClosed former survivor superseded then pure (p.stopWithGap .observerFailed)
  else do
    let observation ← okOr (p.processes.lookup former) .processTreeChanged
    let processes := Maps.eraseAll superseded (p.processes.erase former)
    pure (observed { p with
      processes := processes.insert survivor observation
      seenProcesses := insert survivor p.seenProcesses })

def recordProcessExit (process : DiagnosticProcessId) : Transition := do
  p.requireObserving
  if process ∉ p.processes then pure (p.stopWithGap .childLost)
  else
    let next := { p with processes := p.processes.erase process }
    pure (if p.state = .draining then (.terminateAndDrain, next) else (.continue, next))

def recordUnexpectedStop (process : DiagnosticProcessId) : Transition := do
  p.requireObserving
  pure (p.stopWithGap (if process ∈ p.processes then .unexpectedStop else .childLost))

def recordObserverFailure : Transition :=
  match p.state with
  | .prepared | .attached | .boundaryReady | .optionsEnabled =>
    .ok (.terminateAndPublishNothing, { p with state := .failedBeforeRelease })
  | .released | .draining => .ok (p.stopWithGap .observerFailed)
  | .complete | .incomplete | .failedBeforeRelease => .error .protocolTerminal

/-! ## Completion -/

def confirmTreeDrained : Transition := do
  p.requireState .draining
  rejectIf (p.processes ≠ ∅) .processTreeNotDrained
  pure (.continue, { p with treeDrainConfirmed := true })

def finish : Transition := do
  p.requireObserving
  rejectIf (p.processes ≠ ∅) .processTreeNotDrained
  rejectIf (p.state = .draining ∧ p.treeDrainConfirmed = false) .treeDrainNotConfirmed
  if p.gaps = ∅ then pure (.publishComplete, { p with state := .complete })
  else pure (.publishIncomplete, { p with state := .incomplete })

end ObserverProtocol

end ProofboundRuntime.Diagnose
