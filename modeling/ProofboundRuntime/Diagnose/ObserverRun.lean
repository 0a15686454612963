import ProofboundRuntime.Diagnose.Observer

/-!
# Runs of the observer protocol

What holds of an observer protocol after any calls.

* `Step` is what an accepted call can do, one case for each outcome, and
  `step_of_call` reads it off the protocol.  Every later proof is about
  `Step`.
* `Inv` is the invariant of the protocol and `Step.inv` is its step.
* `History` relates the state to the calls that were accepted so far.
* `LastConfirmed` says that a confirmed drain was followed by no
  observation.
-/

namespace ProofboundRuntime.Diagnose

open Result

/-- A call of one method of the protocol. -/
inductive Call where
  | attachRoot
  | recordBoundaryReady
  | enableTraceOptions (options : DiagnosticTraceOptions)
  | releaseTarget
  | discoverChild (parent child : DiagnosticProcessId) (kind : ProcessCreationKind)
  | recordEvent (process : DiagnosticProcessId)
  | recordExec (former survivor : DiagnosticProcessId) (superseded : List DiagnosticProcessId)
  | recordProcessExit (process : DiagnosticProcessId)
  | recordUnexpectedStop (process : DiagnosticProcessId)
  | recordObserverFailure
  | confirmTreeDrained
  | finish
deriving DecidableEq

/-- The calls that report something about the process tree. -/
def Call.isObservation : Call → Bool
  | .discoverChild .. | .recordEvent .. | .recordExec .. | .recordProcessExit ..
  | .recordUnexpectedStop .. | .recordObserverFailure => true
  | _ => false

namespace ObserverProtocol

def call (p : ObserverProtocol) : Call → Transition
  | .attachRoot => p.attachRoot
  | .recordBoundaryReady => p.recordBoundaryReady
  | .enableTraceOptions options => p.enableTraceOptions options
  | .releaseTarget => p.releaseTarget
  | .discoverChild parent child kind => p.discoverChild parent child kind
  | .recordEvent process => p.recordEvent process
  | .recordExec former survivor superseded => p.recordExec former survivor superseded
  | .recordProcessExit process => p.recordProcessExit process
  | .recordUnexpectedStop process => p.recordUnexpectedStop process
  | .recordObserverFailure => p.recordObserverFailure
  | .confirmTreeDrained => p.confirmTreeDrained
  | .finish => p.finish

/-- The protocol after a call.  A rejected call changes nothing. -/
def step (p : ObserverProtocol) (c : Call) : ObserverProtocol :=
  match p.call c with
  | .ok (_, p') => p'
  | .error _ => p

/-- The protocol after some calls. -/
def run (p : ObserverProtocol) (calls : List Call) : ObserverProtocol := calls.foldl step p

/-- The calls that were accepted. -/
def accepted (p : ObserverProtocol) : List Call → List Call
  | [] => []
  | c :: calls =>
    match p.call c with
    | .ok (_, p') => c :: accepted p' calls
    | .error _ => accepted p calls

variable {p : ObserverProtocol}

theorem step_of_ok {c : Call} {r : ObserverDirective × ObserverProtocol} (h : p.call c = .ok r) :
    p.step c = r.2 := by
  rw [step, h]

theorem step_of_error {c : Call} {e : ObserverProtocolError} (h : p.call c = .error e) :
    p.step c = p := by
  rw [step, h]

theorem requireState_eq_ok {required : ObserverProtocolState} {u : Unit}
    (hrequired : ¬required.Terminal) : p.requireState required = .ok u ↔ p.state = required := by
  simp only [requireState, bind_eq_ok, rejectIf_eq_ok, exists_const, not_not]
  constructor
  · intro h
    exact h.2
  · intro h
    exact ⟨h ▸ hrequired, h⟩

theorem requireObserving_eq_ok {u : Unit} : p.requireObserving = .ok u ↔ p.state.Observing := by
  unfold requireObserving
  split
  next h => simp [h]
  next h => split <;> simp [h]

/-! ## What an accepted call does -/

/-- The ordered steps of the setup. -/
inductive Setup : ObserverProtocolState → Call → ObserverProtocolState → Prop
  | attach : Setup .prepared .attachRoot .attached
  | boundary : Setup .attached .recordBoundaryReady .boundaryReady
  | options : Setup .boundaryReady (.enableTraceOptions .required) .optionsEnabled
  | release : Setup .optionsEnabled .releaseTarget .released

/-- The outcomes of an accepted call. -/
inductive Step (p : ObserverProtocol) : Call → ObserverDirective × ObserverProtocol → Prop
  | setup {c : Call} {next : ObserverProtocolState} (h : Setup p.state c next) :
      Step p c (.continue, { p with state := next })
  | fail (hobserving : ¬p.state.Observing) (hterminal : ¬p.state.Terminal) :
      Step p .recordObserverFailure
        (.terminateAndPublishNothing, { p with state := .failedBeforeRelease })
  | gap {c : Call} {gaps : Finset DiagnosticGap} (hobserving : p.state.Observing)
      (hc : c.isObservation = true) (hgaps : gaps.Nonempty) :
      Step p c (.terminateAndDrain,
        { p with gaps := gaps ∪ p.gaps, state := .draining, treeDrainConfirmed := false })
  | track {parent child : DiagnosticProcessId} {kind : ProcessCreationKind}
      (hobserving : p.state.Observing) (hparent : parent ∈ p.processes)
      (hchild : child ∉ p.seenProcesses)
      (hlimit : p.seenProcesses.card < p.bounds.processCount) :
      Step p (.discoverChild parent child kind)
        (observed { p with
          seenProcesses := insert child p.seenProcesses
          processes := p.processes.insert child ⟨0⟩ })
  | lateEvent {process : DiagnosticProcessId} (hstate : p.state = .draining) :
      Step p (.recordEvent process) (.terminateAndDrain, { p with treeDrainConfirmed := false })
  | event {process : DiagnosticProcessId} {observation : ProcessObservation}
      (hstate : p.state = .released) (hlookup : p.processes.lookup process = some observation)
      (hprocess : observation.events < p.bounds.eventCountPerProcess)
      (htotal : p.totalEvents < p.bounds.eventCount) :
      Step p (.recordEvent process)
        (.continue,
          { p with
            processes := p.processes.insert process ⟨observation.events + 1⟩
            totalEvents := p.totalEvents + 1 })
  | exec {former survivor : DiagnosticProcessId} {superseded : List DiagnosticProcessId}
      {observation : ProcessObservation} (hobserving : p.state.Observing)
      (hclosed : p.IdentitiesAreClosed former survivor superseded)
      (hlookup : p.processes.lookup former = some observation) :
      Step p (.recordExec former survivor superseded)
        (observed { p with
          processes := (Maps.eraseAll superseded (p.processes.erase former)).insert survivor
            observation
          seenProcesses := insert survivor p.seenProcesses })
  | exit {process : DiagnosticProcessId} (hobserving : p.state.Observing)
      (hprocess : process ∈ p.processes) :
      Step p (.recordProcessExit process)
        (if p.state = .draining then .terminateAndDrain else .continue,
          { p with processes := p.processes.erase process })
  | confirm (hstate : p.state = .draining) (hempty : p.processes = ∅) :
      Step p .confirmTreeDrained (.continue, { p with treeDrainConfirmed := true })
  | complete (hobserving : p.state.Observing) (hempty : p.processes = ∅) (hgaps : p.gaps = ∅) :
      Step p .finish (.publishComplete, { p with state := .complete })
  | incomplete (hobserving : p.state.Observing) (hempty : p.processes = ∅)
      (hgaps : p.gaps ≠ ∅) (hconfirmed : p.state = .draining → p.treeDrainConfirmed = true) :
      Step p .finish (.publishIncomplete, { p with state := .incomplete })

variable {p : ObserverProtocol} {c : Call} {r : ObserverDirective × ObserverProtocol}

theorem Step.stopWithGap (hobserving : p.state.Observing) (hc : c.isObservation = true)
    (gap : DiagnosticGap) : Step p c (p.stopWithGap gap) := by
  have h := Step.gap hobserving hc (Finset.singleton_nonempty gap)
  rwa [← Finset.insert_eq] at h

theorem step_of_advance {required next : ObserverProtocolState} (hsetup : Setup required c next)
    (h : p.advance required next = .ok r) : Step p c r := by
  have hrequired : ¬required.Terminal := by cases hsetup <;> decide
  simp only [advance, bind_eq_ok, requireState_eq_ok hrequired, exists_const, pure_eq_ok] at h
  obtain ⟨rfl, rfl⟩ := h
  exact .setup hsetup

theorem step_of_enableTraceOptions {options : DiagnosticTraceOptions}
    (h : p.enableTraceOptions options = .ok r) : Step p (.enableTraceOptions options) r := by
  have hrequired : ¬ObserverProtocolState.boundaryReady.Terminal := by decide
  simp only [enableTraceOptions, bind_eq_ok, requireState_eq_ok hrequired, rejectIf_eq_ok,
    exists_const, not_not, pure_eq_ok] at h
  obtain ⟨hstate, rfl, rfl⟩ := h
  exact .setup (hstate ▸ .options)

theorem step_of_discoverChild {parent child : DiagnosticProcessId} {kind : ProcessCreationKind}
    (h : p.discoverChild parent child kind = .ok r) :
    Step p (.discoverChild parent child kind) r := by
  simp only [discoverChild, bind_eq_ok, requireObserving_eq_ok, exists_const] at h
  obtain ⟨hobserving, h⟩ := h
  split_ifs at h with hparent hchild hlimit
  · obtain rfl := pure_eq_ok.mp h
    exact .stopWithGap hobserving rfl _
  · obtain rfl := pure_eq_ok.mp h
    exact .stopWithGap hobserving rfl _
  · obtain rfl := pure_eq_ok.mp h
    exact .track hobserving hparent hchild (not_le.mp hlimit)
  · obtain rfl := pure_eq_ok.mp h
    exact .stopWithGap hobserving rfl _

variable {process : DiagnosticProcessId}

theorem eventsOf_eq {observation : ProcessObservation}
    (h : p.processes.lookup process = some observation) :
    p.eventsOf process = observation.events := by
  rw [eventsOf, h]
  rfl

theorem limitGaps_nonempty {perProcess total : Bool} (h : (perProcess || total) = true) :
    (limitGaps perProcess total).Nonempty := by
  revert perProcess total
  decide

theorem step_of_recordEvent (h : p.recordEvent process = .ok r) :
    Step p (.recordEvent process) r := by
  simp only [recordEvent, bind_eq_ok, requireObserving_eq_ok, exists_const] at h
  obtain ⟨hobserving, h⟩ := h
  split_ifs at h with hprocess hstate hexhausted
  · obtain rfl := pure_eq_ok.mp h
    exact .lateEvent hstate
  · obtain rfl := pure_eq_ok.mp h
    exact .gap hobserving rfl (limitGaps_nonempty hexhausted)
  · simp only [bind_eq_ok, okOr_eq_ok, pure_eq_ok] at h
    obtain ⟨observation, hlookup, rfl⟩ := h
    simp only [Bool.or_eq_true, decide_eq_true_eq, not_or, not_le, eventsOf_eq hlookup]
      at hexhausted
    exact .event (hobserving.resolve_right hstate) hlookup hexhausted.1 hexhausted.2
  · obtain rfl := pure_eq_ok.mp h
    exact .stopWithGap hobserving rfl _

theorem step_of_recordExec {former survivor : DiagnosticProcessId}
    {superseded : List DiagnosticProcessId}
    (h : p.recordExec former survivor superseded = .ok r) :
    Step p (.recordExec former survivor superseded) r := by
  simp only [recordExec, bind_eq_ok, requireObserving_eq_ok, exists_const] at h
  obtain ⟨hobserving, h⟩ := h
  split_ifs at h with hclosed
  · simp only [bind_eq_ok, okOr_eq_ok, pure_eq_ok] at h
    obtain ⟨observation, hlookup, rfl⟩ := h
    exact .exec hobserving hclosed hlookup
  · obtain rfl := pure_eq_ok.mp h
    exact .stopWithGap hobserving rfl _

theorem step_of_recordProcessExit (h : p.recordProcessExit process = .ok r) :
    Step p (.recordProcessExit process) r := by
  simp only [recordProcessExit, bind_eq_ok, requireObserving_eq_ok, exists_const] at h
  obtain ⟨hobserving, h⟩ := h
  by_cases hprocess : process ∉ p.processes
  · rw [if_pos hprocess] at h
    obtain rfl := pure_eq_ok.mp h
    exact .stopWithGap hobserving rfl _
  · rw [if_neg hprocess] at h
    obtain rfl := pure_eq_ok.mp h
    have hstep := Step.exit hobserving (not_not.mp hprocess)
    split_ifs at hstep ⊢ <;> exact hstep

theorem step_of_recordObserverFailure (h : p.recordObserverFailure = .ok r) :
    Step p .recordObserverFailure r := by
  unfold recordObserverFailure at h
  split at h
  case h_9 | h_8 | h_7 => cases h
  case h_5 | h_6 =>
    obtain rfl := Except.ok.inj h
    exact .stopWithGap (by simp_all [ObserverProtocolState.Observing]) rfl _
  all_goals
    obtain rfl := Except.ok.inj h
    exact .fail (by simp_all [ObserverProtocolState.Observing])
      (by simp_all [ObserverProtocolState.Terminal])

theorem step_of_finish (h : p.finish = .ok r) : Step p .finish r := by
  simp only [finish, bind_eq_ok, requireObserving_eq_ok, rejectIf_eq_ok, exists_const, not_not,
    not_and, Bool.not_eq_false] at h
  obtain ⟨hobserving, hempty, hconfirmed, h⟩ := h
  split_ifs at h with hgaps
  · obtain rfl := pure_eq_ok.mp h
    exact .complete hobserving hempty hgaps
  · obtain rfl := pure_eq_ok.mp h
    exact .incomplete hobserving hempty hgaps hconfirmed

/-- An accepted call is one of the outcomes. -/
theorem step_of_call (h : p.call c = .ok r) : Step p c r := by
  cases c with
  | attachRoot => exact step_of_advance .attach h
  | recordBoundaryReady => exact step_of_advance .boundary h
  | enableTraceOptions options => exact step_of_enableTraceOptions h
  | releaseTarget => exact step_of_advance .release h
  | discoverChild parent child kind => exact step_of_discoverChild h
  | recordEvent process => exact step_of_recordEvent h
  | recordExec former survivor superseded => exact step_of_recordExec h
  | recordProcessExit process => exact step_of_recordProcessExit h
  | recordUnexpectedStop process =>
    simp only [call, recordUnexpectedStop, bind_eq_ok, requireObserving_eq_ok, exists_const,
      pure_eq_ok] at h
    obtain ⟨hobserving, rfl⟩ := h
    exact .stopWithGap hobserving rfl _
  | recordObserverFailure => exact step_of_recordObserverFailure h
  | confirmTreeDrained =>
    have hrequired : ¬ObserverProtocolState.draining.Terminal := by decide
    simp only [call, confirmTreeDrained, bind_eq_ok, requireState_eq_ok hrequired,
      rejectIf_eq_ok, exists_const, not_not, pure_eq_ok] at h
    obtain ⟨hstate, hempty, rfl⟩ := h
    exact .confirm hstate hempty
  | finish => exact step_of_finish h

/-! ## The invariant -/

/-- The fields of `observed` beside the confirmed drain. -/
theorem observed_eq (p : ObserverProtocol) :
    p.observed.2 = { p with
      treeDrainConfirmed := if p.state = .draining then false else p.treeDrainConfirmed } := by
  unfold observed
  split <;> rfl

/-- What is counted stays within the bounds, and a gap is recorded exactly
when the tree must be drained. -/
structure Counted (p : ObserverProtocol) : Prop where
  tracked_seen : ∀ process ∈ p.processes, process ∈ p.seenProcesses
  seen_le : p.seenProcesses.card ≤ p.bounds.processCount
  total_le : p.totalEvents ≤ p.bounds.eventCount
  events_le : Maps.AllValues (fun observation => observation.events ≤
    p.bounds.eventCountPerProcess) p.processes
  gaps : p.gaps = ∅ ↔ p.state ≠ .draining ∧ p.state ≠ .incomplete

structure Inv (p : ObserverProtocol) : Prop extends Counted p where
  confirmed : p.state = .draining → p.treeDrainConfirmed = true → p.processes = ∅

theorem new_eq_ok {root : DiagnosticProcessId} {bounds : ObservationBounds} :
    ObserverProtocol.new root bounds = .ok p ↔ bounds.Valid ∧
      p = ⟨.prepared, bounds, root, Finmap.singleton root ⟨0⟩, {root}, 0, ∅, false⟩ := by
  simp only [ObserverProtocol.new, bind_eq_ok, mapError_eq_ok, ObservationBounds.validate_eq_ok,
    pure_eq_ok]
  constructor
  · rintro ⟨bounds', ⟨hvalid, rfl⟩, rfl⟩
    exact ⟨hvalid, rfl⟩
  · intro h
    exact ⟨bounds, ⟨h.1, rfl⟩, h.2.symm⟩

theorem inv_new {root : DiagnosticProcessId} {bounds : ObservationBounds}
    (h : ObserverProtocol.new root bounds = .ok p) : p.Inv := by
  obtain ⟨hvalid, rfl⟩ := new_eq_ok.mp h
  refine ⟨⟨?_, ?_, ?_, ?_, ?_⟩, ?_⟩
  · simp
  · exact hvalid.2.2.2.2.1.1
  · exact Nat.zero_le _
  · exact Maps.allValues_singleton (Nat.zero_le _)
  · simp
  · simp

theorem Counted.inv_observed (h : p.Counted) : p.observed.2.Inv := by
  rw [observed_eq]
  exact { h with confirmed := by simp +contextual }

theorem Setup.next_ne {state next : ObserverProtocolState} (h : Setup state c next) :
    next ≠ .draining ∧ next ≠ .incomplete := by
  cases h <;> decide

theorem Setup.state_ne {state next : ObserverProtocolState} (h : Setup state c next) :
    state ≠ .draining ∧ state ≠ .incomplete := by
  cases h <;> decide

theorem Counted.track (h : p.Counted) {child : DiagnosticProcessId}
    (hchild : child ∉ p.seenProcesses)
    (hlimit : p.seenProcesses.card < p.bounds.processCount) :
    Counted { p with
      seenProcesses := insert child p.seenProcesses
      processes := p.processes.insert child ⟨0⟩ } where
  tracked_seen := by
    intro process hprocess
    rcases Finmap.mem_insert.mp hprocess with rfl | hprocess
    · exact Finset.mem_insert_self _ _
    · exact Finset.mem_insert_of_mem (h.tracked_seen process hprocess)
  seen_le := by
    rwa [Finset.card_insert_of_notMem hchild]
  total_le := h.total_le
  events_le := h.events_le.insert (Nat.zero_le _)
  gaps := h.gaps

/-- After an exec the survivor is one of the processes that were tracked, so
nothing new is seen. -/
theorem Counted.exec (h : p.Counted) {former survivor : DiagnosticProcessId}
    {superseded : List DiagnosticProcessId} {observation : ProcessObservation}
    (hclosed : p.IdentitiesAreClosed former survivor superseded)
    (hlookup : p.processes.lookup former = some observation) :
    Counted { p with
      processes := (Maps.eraseAll superseded (p.processes.erase former)).insert survivor
        observation
      seenProcesses := insert survivor p.seenProcesses } := by
  obtain ⟨hformer, -, hsuperseded, -, hsurvivor⟩ := hclosed
  have hseen : survivor ∈ p.seenProcesses := by
    rcases hsurvivor with ⟨rfl, -⟩ | ⟨-, hmem⟩
    · exact h.tracked_seen _ hformer
    · exact h.tracked_seen _ (hsuperseded _ hmem)
  rw [Finset.insert_eq_of_mem hseen]
  refine { h with tracked_seen := ?_, events_le := ?_ }
  · intro process hprocess
    rcases Finmap.mem_insert.mp hprocess with rfl | hprocess
    · exact hseen
    · have htracked := (Maps.mem_eraseAll.mp hprocess).2
      exact h.tracked_seen _ (Finmap.mem_erase.mp htracked).2
  · exact ((h.events_le.erase former).eraseAll superseded).insert (h.events_le _ _ hlookup)

/-- The step of the invariant. -/
theorem Step.inv (h : Step p c r) (hinv : p.Inv) : r.2.Inv := by
  cases h with
  | setup h =>
    refine { hinv with gaps := ?_, confirmed := ?_ }
    · simp [hinv.gaps.mpr h.state_ne, h.next_ne]
    · intro hdraining
      exact absurd hdraining h.next_ne.1
  | fail hobserving hterminal =>
    refine { hinv with gaps := ?_, confirmed := ?_ }
    · have hbefore : p.gaps = ∅ := hinv.gaps.mpr
        ⟨fun h => hobserving (Or.inr h), fun h => hterminal (Or.inr (Or.inl h))⟩
      simp [hbefore]
    · rintro ⟨⟩
  | gap hobserving hc hgaps =>
    refine { hinv with gaps := ?_, confirmed := ?_ }
    · have hne : _ ∪ p.gaps ≠ ∅ := (hgaps.mono Finset.subset_union_left).ne_empty
      simp [hne]
    · intro _ hconfirmed
      cases hconfirmed
  | track hobserving hparent hchild hlimit =>
    exact (hinv.toCounted.track hchild hlimit).inv_observed
  | lateEvent hstate =>
    refine { hinv with confirmed := ?_ }
    intro _ hconfirmed
    cases hconfirmed
  | event hstate hlookup hprocess htotal =>
    refine { hinv with tracked_seen := ?_, total_le := htotal, events_le := ?_, confirmed := ?_ }
    · intro process hmem
      rcases Finmap.mem_insert.mp hmem with rfl | hmem
      · exact hinv.tracked_seen _ (Finmap.mem_of_lookup_eq_some hlookup)
      · exact hinv.tracked_seen _ hmem
    · exact hinv.events_le.insert hprocess
    · intro hdraining
      simp [hstate] at hdraining
  | exec hobserving hclosed hlookup => exact (hinv.toCounted.exec hclosed hlookup).inv_observed
  | exit hobserving hprocess =>
    refine { hinv with tracked_seen := ?_, events_le := hinv.events_le.erase _, confirmed := ?_ }
    · intro process hmem
      exact hinv.tracked_seen _ (Finmap.mem_erase.mp hmem).2
    · intro hdraining hconfirmed
      -- A confirmed drain has no process that could exit.
      rw [hinv.confirmed hdraining hconfirmed] at hprocess
      exact absurd hprocess Finmap.notMem_empty
  | confirm hstate hempty => exact { hinv with confirmed := fun _ _ => hempty }
  | complete hobserving hempty hgaps | incomplete hobserving hempty hgaps hconfirmed =>
    refine { hinv with gaps := by simp [hgaps], confirmed := ?_ }
    rintro ⟨⟩

theorem inv_run (hinv : p.Inv) (calls : List Call) : (p.run calls).Inv := by
  unfold run
  induction calls generalizing p with
  | nil => exact hinv
  | cons c calls ih =>
    apply ih
    unfold step
    split
    next h => exact (step_of_call h).inv hinv
    next => exact hinv

/-! ## Gaps and terminal states -/

theorem Step.gaps_subset (h : Step p c r) : p.gaps ⊆ r.2.gaps := by
  cases h with
  | gap => exact Finset.subset_union_right
  | track | exec =>
    rw [observed_eq]
  | _ => exact Finset.Subset.refl _

theorem Step.bounds_eq (h : Step p c r) : r.2.bounds = p.bounds := by
  cases h with
  | track | exec => rw [observed_eq]
  | _ => rfl

theorem requireState_of_terminal (h : p.state.Terminal) (required : ObserverProtocolState) :
    p.requireState required = .error .protocolTerminal := by
  rw [requireState, rejectIf_true h, error_bind]

theorem requireObserving_of_terminal (h : p.state.Terminal) :
    p.requireObserving = .error .protocolTerminal := by
  rw [requireObserving, if_neg, if_pos h]
  rcases h with h | h | h <;> simp [h, ObserverProtocolState.Observing]

/-- In a terminal state every call is rejected with `ProtocolTerminal`. -/
theorem call_of_terminal (h : p.state.Terminal) (c : Call) :
    p.call c = .error .protocolTerminal := by
  cases c with
  | attachRoot | recordBoundaryReady | releaseTarget | enableTraceOptions | confirmTreeDrained =>
    exact congrArg (· >>= _) (requireState_of_terminal h _)
  | recordObserverFailure =>
    rcases h with h | h | h <;> simp only [call, recordObserverFailure, h]
  | _ => exact congrArg (· >>= _) (requireObserving_of_terminal h)

/-! ## The order of the setup -/

def setupCalls : List Call :=
  [.attachRoot, .recordBoundaryReady, .enableTraceOptions .required, .releaseTarget]

/-- The calls that were accepted on the way to a state. -/
def History (calls : List Call) : ObserverProtocolState → Prop
  | .prepared => calls = []
  | .attached => calls = setupCalls.take 1
  | .boundaryReady => calls = setupCalls.take 2
  | .optionsEnabled => calls = setupCalls.take 3
  | .failedBeforeRelease => True
  | _ => setupCalls <+: calls

variable {calls : List Call}

theorem history_iff_of_observing {state : ObserverProtocolState} (h : state.Observing) :
    History calls state ↔ setupCalls <+: calls := by
  rcases h with rfl | rfl <;> rfl

theorem Step.history (h : Step p c r) (hcalls : History calls p.state) :
    History (calls ++ [c]) r.2.state := by
  have hstart : p.state.Observing → setupCalls <+: calls ++ [c] := by
    intro h
    exact ((history_iff_of_observing h).mp hcalls).trans (List.prefix_append _ _)
  have hsame : p.state.Observing → History (calls ++ [c]) p.state := by
    intro h
    exact (history_iff_of_observing h).mpr (hstart h)
  cases h with
  | setup h =>
    generalize p.state = state at h hcalls
    cases h <;> (rw [show calls = _ from hcalls]; simp [History, setupCalls])
  | fail h hterminal => trivial
  | gap h => exact hstart h
  | track h | exec h =>
    rw [observed_eq]
    exact hsame h
  | exit h => exact hsame h
  | lateEvent h | confirm h => exact hsame (Or.inr h)
  | event h => exact hsame (Or.inl h)
  | complete h | incomplete h => exact hstart h

theorem history_run (h : History calls p.state) (next : List Call) :
    History (calls ++ p.accepted next) (p.run next).state := by
  induction next generalizing p calls with
  | nil => simpa [run, accepted] using h
  | cons c next ih =>
    show History (calls ++ p.accepted (c :: next)) ((p.step c).run next).state
    unfold accepted step
    split
    next hc =>
      rw [List.append_cons]
      exact ih ((step_of_call hc).history h)
    next hc => exact ih h

/-- Only the release enters the released state. -/
theorem Step.released (h : Step p c r) (hreleased : r.2.state = .released)
    (hbefore : p.state ≠ .released) : p.state = .optionsEnabled ∧ c = .releaseTarget := by
  cases h with
  | setup h =>
    generalize p.state = state at h hbefore ⊢
    cases h <;> simp_all
  | track | exec =>
    rw [observed_eq] at hreleased
    exact absurd hreleased hbefore
  | exit | lateEvent | event | confirm => exact absurd hreleased hbefore
  | _ => cases hreleased

/-! ## The confirmed drain -/

/-- The last accepted confirmation was followed by no observation. -/
def LastConfirmed (p : ObserverProtocol) (calls : List Call) : Prop :=
  ∃ before after, calls = before ++ .confirmTreeDrained :: after ∧
    (∃ r, (p.run before).call .confirmTreeDrained = .ok r) ∧
    ∀ c ∈ after, c.isObservation = false

/-- An observation withdraws a confirmed drain. -/
theorem Step.confirmed (h : Step p c r) (hinv : p.Inv) (hdraining : r.2.state = .draining)
    (hconfirmed : r.2.treeDrainConfirmed = true) :
    c = .confirmTreeDrained ∨
      (p.state = .draining ∧ p.treeDrainConfirmed = true ∧ c.isObservation = false) := by
  cases h with
  | setup h => exact absurd hdraining h.next_ne.1
  | confirm => exact Or.inl rfl
  | track | exec =>
    rw [observed_eq] at hdraining hconfirmed
    have hstate : p.state = .draining := hdraining
    simp [hstate] at hconfirmed
  | event hstate =>
    have hreleased : p.state = .draining := hdraining
    simp [hstate] at hreleased
  | exit hobserving hprocess =>
    rw [hinv.confirmed hdraining hconfirmed] at hprocess
    exact absurd hprocess Finmap.notMem_empty
  | gap | lateEvent => cases hconfirmed
  | _ => cases hdraining

/-- While the protocol observes, no observation is rejected. -/
theorem call_observation (h : p.state.Observing) (hc : c.isObservation = true) :
    ∃ r, p.call c = .ok r := by
  have hobserving : p.requireObserving = .ok () := requireObserving_eq_ok.mpr h
  cases c with
  | discoverChild parent child kind =>
    simp only [call, discoverChild, hobserving, ok_bind]
    split_ifs <;> exact ⟨_, rfl⟩
  | recordEvent process =>
    simp only [call, recordEvent, hobserving, ok_bind]
    split_ifs with hprocess
    · exact ⟨_, rfl⟩
    · exact ⟨_, rfl⟩
    · obtain ⟨observation, hlookup⟩ := Finmap.mem_iff.mp hprocess
      rw [hlookup]
      exact ⟨_, rfl⟩
    · exact ⟨_, rfl⟩
  | recordExec former survivor superseded =>
    simp only [call, recordExec, hobserving, ok_bind]
    split_ifs with hclosed
    · obtain ⟨observation, hlookup⟩ := Finmap.mem_iff.mp hclosed.1
      rw [hlookup]
      exact ⟨_, rfl⟩
    · exact ⟨_, rfl⟩
  | recordProcessExit process =>
    simp only [call, recordProcessExit, hobserving, ok_bind]
    split_ifs <;> exact ⟨_, rfl⟩
  | recordUnexpectedStop process =>
    simp only [call, recordUnexpectedStop, hobserving, ok_bind]
    exact ⟨_, rfl⟩
  | recordObserverFailure =>
    rcases h with h | h <;> simp [call, recordObserverFailure, h]
  | _ => cases hc

theorem run_concat (calls : List Call) (c : Call) :
    p.run (calls ++ [c]) = (p.run calls).step c := by
  simp [run]

theorem lastConfirmed_run (hinv : p.Inv) (hnew : p.treeDrainConfirmed = false)
    (calls : List Call) (hdraining : (p.run calls).state = .draining)
    (hconfirmed : (p.run calls).treeDrainConfirmed = true) : p.LastConfirmed calls := by
  induction calls using List.reverseRecOn with
  | nil =>
    have hfalse : p.treeDrainConfirmed = true := hconfirmed
    simp [hnew] at hfalse
  | append_singleton calls c ih =>
    rw [run_concat] at hdraining hconfirmed
    have hextend : (p.run calls).state = .draining → (p.run calls).treeDrainConfirmed = true →
        c.isObservation = false → p.LastConfirmed (calls ++ [c]) := by
      intro hdraining hconfirmed hc
      obtain ⟨before, after, rfl, hcall, hafter⟩ := ih hdraining hconfirmed
      refine ⟨before, after ++ [c], by simp, hcall, ?_⟩
      intro c' hc'
      rcases List.mem_append.mp hc' with hc' | hc'
      · exact hafter c' hc'
      · rwa [List.mem_singleton.mp hc']
    cases hcall : (p.run calls).call c with
    | ok r =>
      rw [step_of_ok hcall] at hdraining hconfirmed
      rcases (step_of_call hcall).confirmed (inv_run hinv calls) hdraining hconfirmed with
        rfl | ⟨hdraining, hconfirmed, hc⟩
      · exact ⟨calls, [], by simp, ⟨r, hcall⟩, by simp⟩
      · exact hextend hdraining hconfirmed hc
    | error e =>
      rw [step_of_error hcall] at hdraining hconfirmed
      refine hextend hdraining hconfirmed ?_
      cases hc : c.isObservation with
      | false => rfl
      | true =>
        obtain ⟨r, hok⟩ := call_observation (Or.inr hdraining) hc
        simp [hcall] at hok

/-! ## Every run of a new protocol -/

theorem bounds_run (calls : List Call) : (p.run calls).bounds = p.bounds := by
  induction calls using List.reverseRecOn with
  | nil => rfl
  | append_singleton calls c ih =>
    rw [run_concat, ← ih]
    cases hcall : (p.run calls).call c with
    | ok r =>
      rw [step_of_ok hcall]
      exact (step_of_call hcall).bounds_eq
    | error e => rw [step_of_error hcall]

/-- What holds after the calls. -/
structure Safe (bounds : ObservationBounds) (start : ObserverProtocol) (calls : List Call) :
    Prop where
  tracked_seen : ∀ process ∈ (start.run calls).processes,
    process ∈ (start.run calls).seenProcesses
  seen_le : (start.run calls).seenProcesses.card ≤ bounds.processCount
  total_le : (start.run calls).totalEvents ≤ bounds.eventCount
  events_le : ∀ process observation,
    (start.run calls).processes.lookup process = some observation →
      observation.events ≤ bounds.eventCountPerProcess
  released : ∀ c, ((start.run calls).step c).state = .released →
    (start.run calls).state ≠ .released →
      start.accepted calls ++ [c] = setupCalls ∧ ((start.run calls).step c).gaps = ∅
  draining : (start.run calls).state.Observing →
    ((start.run calls).state = .draining ↔ (start.run calls).gaps ≠ ∅)
  gaps_subset : ∀ c, (start.run calls).gaps ⊆ ((start.run calls).step c).gaps
  complete : ∀ p, (start.run calls).finish = .ok (.publishComplete, p) →
    (start.run calls).gaps = ∅ ∧ (start.run calls).processes = ∅
  incomplete : ∀ p, (start.run calls).finish = .ok (.publishIncomplete, p) →
    start.LastConfirmed calls
  terminal : (start.run calls).state.Terminal → ∀ c,
    (start.run calls).call c = .error .protocolTerminal ∧ (start.run calls).step c = start.run calls

theorem step_cases (p : ObserverProtocol) (c : Call) :
    (∃ r, Step p c r ∧ p.step c = r.2) ∨ p.step c = p := by
  cases hcall : p.call c with
  | ok r => exact Or.inl ⟨r, step_of_call hcall, step_of_ok hcall⟩
  | error e => exact Or.inr (step_of_error hcall)

/-- The released state is entered by the ordered setup and without a gap. -/
theorem released_run (hinv : p.Inv) (hprepared : p.state = .prepared) (calls : List Call)
    (c : Call) (hreleased : ((p.run calls).step c).state = .released)
    (hbefore : (p.run calls).state ≠ .released) :
    p.accepted calls ++ [c] = setupCalls ∧ ((p.run calls).step c).gaps = ∅ := by
  rcases step_cases (p.run calls) c with ⟨r, hstep, heq⟩ | heq
  · rw [heq] at hreleased ⊢
    obtain ⟨hstate, rfl⟩ := hstep.released hreleased hbefore
    have hhistory : History ([] ++ p.accepted calls) (p.run calls).state :=
      history_run (by rw [hprepared]; rfl) calls
    rw [hstate] at hhistory
    constructor
    · rw [show p.accepted calls = setupCalls.take 3 from hhistory]
      rfl
    · apply (hstep.inv (inv_run hinv calls)).gaps.mpr
      rw [hreleased]
      decide
  · rw [heq] at hreleased
    exact absurd hreleased hbefore

/-- After any calls on a new protocol the counts keep to the bounds, the
released state was entered by the ordered setup, gaps decide the drain, and
what is published agrees with the gaps and the confirmed drain. -/
theorem safe_of_new {root : DiagnosticProcessId} {bounds : ObservationBounds}
    {start : ObserverProtocol} (h : ObserverProtocol.new root bounds = .ok start)
    (calls : List Call) : Safe bounds start calls := by
  have hstart := inv_new h
  have hinv := inv_run hstart calls
  obtain ⟨hvalid, hfields⟩ := new_eq_ok.mp h
  have hbounds : (start.run calls).bounds = bounds := by rw [bounds_run, hfields]
  exact
    { tracked_seen := hinv.tracked_seen
      seen_le := hbounds ▸ hinv.seen_le
      total_le := hbounds ▸ hinv.total_le
      events_le := hbounds ▸ hinv.events_le
      released := released_run hstart (by rw [hfields]) calls
      draining := by
        intro hobserving
        rw [ne_eq, hinv.gaps]
        rcases hobserving with h | h <;> simp [h]
      gaps_subset := by
        intro c
        rcases step_cases _ c with ⟨r, hstep, heq⟩ | heq
        · rw [heq]
          exact hstep.gaps_subset
        · rw [heq]
      complete := by
        intro p hfinish
        cases step_of_finish hfinish with
        | complete hobserving hempty hgaps => exact ⟨hgaps, hempty⟩
      incomplete := by
        intro p hfinish
        cases step_of_finish hfinish with
        | incomplete hobserving hempty hgaps hconfirmed =>
          have hdraining : (start.run calls).state = .draining := by
            rcases hobserving with h | h
            · exact absurd (hinv.gaps.mpr (by simp [h])) hgaps
            · exact h
          exact lastConfirmed_run hstart (by rw [hfields]) calls hdraining (hconfirmed hdraining)
      terminal := by
        intro hterminal c
        have hcall := call_of_terminal hterminal c
        exact ⟨hcall, step_of_error hcall⟩ }

def sampleBounds : ObservationBounds := ⟨8, 4, 1048576, 4096, 4, 128, 40, 4096⟩

def sampleRoot : DiagnosticProcessId := ⟨10, by decide⟩

def sampleChild : DiagnosticProcessId := ⟨11, by decide⟩

/-- The root is released, a process that is not tracked exits, and the tree is
drained. -/
def sampleCalls : List Call :=
  setupCalls ++ [.recordProcessExit sampleChild, .recordProcessExit sampleRoot,
    .confirmTreeDrained]

theorem safe_of_new_sample :
    ∃ start, ObserverProtocol.new sampleRoot sampleBounds = .ok start ∧
      (start.run sampleCalls).gaps = {.childLost} ∧ Safe sampleBounds start sampleCalls := by
  have hnew : ObserverProtocol.new sampleRoot sampleBounds = .ok _ :=
    new_eq_ok.mpr ⟨by decide, rfl⟩
  exact ⟨_, hnew, by decide, safe_of_new hnew sampleCalls⟩

end ObserverProtocol

end ProofboundRuntime.Diagnose
