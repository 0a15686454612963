import ProofboundRuntime.Diagnose.Adapter
import ProofboundRuntime.Diagnose.ObserverRun
import ProofboundRuntime.Linux.TraceLive

/-!
# The trace and the observer protocol in step

The trace and the protocol each follow the process tree.  While the
observation continues, the live threads of the trace are the tracked processes
of the protocol.  When it stops, the untracked processes make up for what the
protocol refused to track.

* `forwardEvent_eq_ok` is the step: a continued event changes both sides
  alike.
* `Good` is what holds of every result of a run, by `good_run`.
-/

namespace ProofboundRuntime.Diagnose

open Result
open Linux (TraceProcessId ActiveTrace ActiveTraceEvent TraceDrainObservation
  TraceObservationError EventChange ExecChange afterExec DrainChange DrainRun)

/-! ## Process identities -/

def processOf (process : TraceProcessId) : DiagnosticProcessId := ⟨process.get, process.ne_zero⟩

theorem processOf_injective : Function.Injective processOf := by
  intro p q h
  exact TraceProcessId.get_injective (DiagnosticProcessId.mk.inj h)

@[simp] theorem diagnosticProcess_eq (process : TraceProcessId) :
    diagnosticProcess process = .ok (processOf process) := by
  rw [diagnosticProcess, DiagnosticProcessId.new, dif_neg process.ne_zero]
  rfl

theorem collect_diagnosticProcess (processes : List TraceProcessId) :
    collect diagnosticProcess processes = .ok (processes.map processOf) := by
  rw [collect_eq_ok]
  induction processes with
  | nil => exact .nil
  | cons process processes ih => exact .cons (diagnosticProcess_eq process) ih

/-- The processes of the protocol are the threads. -/
def Tracks (p : ObserverProtocol) (live : Finset TraceProcessId) : Prop :=
  p.processes.keys = live.image processOf

theorem Tracks.mem {p : ObserverProtocol} {live : Finset TraceProcessId} (h : Tracks p live)
    {process : TraceProcessId} : processOf process ∈ p.processes ↔ process ∈ live := by
  rw [← Finmap.mem_keys, h]
  simp only [Finset.mem_image]
  constructor
  · rintro ⟨other, hother, heq⟩
    exact processOf_injective heq ▸ hother
  · intro h
    exact ⟨process, h, rfl⟩

/-! ## Calls of the protocol -/

section

variable {p : ObserverProtocol} {r : ObserverDirective × ObserverProtocol} {c : Call}

/-- An observation lets the protocol continue or drain. -/
theorem ObserverProtocol.Step.directive (h : ObserverProtocol.Step p c r)
    (hobserving : p.state.Observing) (hc : c.isObservation = true) :
    (r.1 = .continue ∧ p.state = .released ∧ r.2.state = .released) ∨
      (r.1 = .terminateAndDrain ∧ r.2.state = .draining) := by
  have hobserved : ∀ q : ObserverProtocol, q.state = p.state →
      (q.observed.1 = .continue ∧ p.state = .released ∧ q.observed.2.state = .released) ∨
        (q.observed.1 = .terminateAndDrain ∧ q.observed.2.state = .draining) := by
    intro q hq
    rcases hobserving with h | h
    · exact Or.inl (by simp [ObserverProtocol.observed, hq, h])
    · exact Or.inr (by simp [ObserverProtocol.observed, hq, h])
  cases h with
  | setup h =>
    generalize p.state = state at h
    cases h <;> cases hc
  | fail h => exact absurd hobserving h
  | gap => exact Or.inr ⟨rfl, rfl⟩
  | track | exec => exact hobserved _ rfl
  | lateEvent h => exact Or.inr ⟨rfl, h⟩
  | event h => exact Or.inl ⟨rfl, h, h⟩
  | exit =>
    rcases hobserving with h | h
    · exact Or.inl (by simp [h])
    · exact Or.inr (by simp [h])
  | confirm | complete | incomplete => cases hc

theorem ObserverProtocol.keys_observed (q : ObserverProtocol) :
    q.observed.2.processes.keys = q.processes.keys := by
  rw [ObserverProtocol.observed_eq]

theorem keys_insert (m : Finmap fun _ : DiagnosticProcessId => ProcessObservation)
    (process : DiagnosticProcessId) (observation : ProcessObservation) :
    (m.insert process observation).keys = insert process m.keys := by
  ext other
  simp only [Finmap.mem_keys, Finmap.mem_insert, Finset.mem_insert]

/-- What a continued call does to the tracked processes. -/
def KeysChange (keys keys' : Finset DiagnosticProcessId) : Call → Prop
  | .discoverChild _ child _ => keys' = insert child keys
  | .recordExec former survivor superseded =>
    keys' = insert survivor ((keys.erase former).filter fun process => process ∉ superseded)
  | .recordProcessExit process => keys' = keys.erase process
  | _ => keys' = keys

theorem ObserverProtocol.Step.keys (h : ObserverProtocol.Step p c r)
    (hcontinue : r.1 = .continue) : KeysChange p.processes.keys r.2.processes.keys c := by
  cases h with
  | setup h =>
    generalize p.state = state at h
    cases h <;> rfl
  | fail | gap | lateEvent | complete | incomplete => cases hcontinue
  | track =>
    rw [ObserverProtocol.keys_observed]
    exact keys_insert _ _ _
  | event hstate hlookup =>
    show (p.processes.insert _ _).keys = _
    rw [keys_insert]
    exact Finset.insert_eq_of_mem (Finmap.mem_keys.mpr (Finmap.mem_of_lookup_eq_some hlookup))
  | exec =>
    rw [ObserverProtocol.keys_observed]
    show (Finmap.insert _ _ _).keys = _
    rw [keys_insert]
    congr 1
    ext process
    simp only [Finmap.mem_keys, Maps.mem_eraseAll, Finmap.mem_erase, Finset.mem_filter,
      Finset.mem_erase]
    tauto
  | exit => exact Finmap.keys_erase _ _
  | confirm => rfl

end

/-! ## Continued events -/

structure InStep (o : ActiveObserver) : Prop where
  inv : o.protocol.Inv
  released : o.protocol.state = .released
  tracks : Tracks o.protocol o.trace.live

/-- What an observer that must drain starts from. -/
structure Drains (d : DrainingObserver) : Prop where
  inv : d.protocol.Inv
  draining : d.protocol.state = .draining
  untracked : d.untrackedProcesses ⊆ d.trace.live.image processOf

/-- A forwarded event continues with both sides changed alike, or it drains. -/
def Forwarded (live : Finset TraceProcessId)
    (result : (ObserverDirective × ObserverProtocol) × Finset DiagnosticProcessId) : Prop :=
  result.1.2.Inv ∧
    ((result.1.1 = .continue ∧ result.1.2.state = .released ∧ Tracks result.1.2 live) ∨
      (result.1.1 = .terminateAndDrain ∧ result.1.2.state = .draining ∧
        result.2 ⊆ live.image processOf))

section

variable {p : ObserverProtocol} {live live' : Finset TraceProcessId}

/-- One observation of a released protocol. -/
theorem call_released (hinv : p.Inv) (hreleased : p.state = .released) {c : Call}
    (hc : c.isObservation = true) :
    ∃ r, p.call c = .ok r ∧ r.2.Inv ∧
      ((r.1 = .continue ∧ r.2.state = .released ∧
          KeysChange p.processes.keys r.2.processes.keys c) ∨
        (r.1 = .terminateAndDrain ∧ r.2.state = .draining)) := by
  obtain ⟨r, hr⟩ := ObserverProtocol.call_observation (Or.inl hreleased) hc
  have hstep := ObserverProtocol.step_of_call hr
  refine ⟨r, hr, hstep.inv hinv, ?_⟩
  rcases hstep.directive (Or.inl hreleased) hc with ⟨hcontinue, -, hstate⟩ | hdrain
  · exact Or.inl ⟨hcontinue, hstate, hstep.keys hcontinue⟩
  · exact Or.inr hdrain

/-- A second event of a process after a call that continued. -/
theorem andThen_recordEvent {r : ObserverDirective × ObserverProtocol} (hinv : r.2.Inv)
    (h : (r.1 = .continue ∧ r.2.state = .released ∧ Tracks r.2 live') ∨
      (r.1 = .terminateAndDrain ∧ r.2.state = .draining)) (process : DiagnosticProcessId)
    {untracked : Finset DiagnosticProcessId} (huntracked : untracked ⊆ live'.image processOf) :
    ∃ r', ObserverProtocol.andThen r (fun p => p.recordEvent process) = .ok r' ∧
      Forwarded live' (r', untracked) := by
  unfold ObserverProtocol.andThen
  rcases h with ⟨hcontinue, hstate, htracks⟩ | ⟨hdrain, hstate⟩
  · rw [if_pos hcontinue]
    obtain ⟨r', hr', hinv', h⟩ := call_released hinv hstate (c := .recordEvent process) rfl
    refine ⟨r', hr', hinv', ?_⟩
    rcases h with ⟨hcontinue, hstate, hkeys⟩ | ⟨hdrain, hstate⟩
    · exact Or.inl ⟨hcontinue, hstate, Eq.trans hkeys htracks⟩
    · exact Or.inr ⟨hdrain, hstate, huntracked⟩
  · rw [if_neg (by rw [hdrain]; decide)]
    exact ⟨r, rfl, hinv, Or.inr ⟨hdrain, hstate, huntracked⟩⟩

theorem image_afterExec (live : Finset TraceProcessId) (former survivor : TraceProcessId)
    (superseded : List TraceProcessId) :
    insert (processOf survivor) (((live.image processOf).erase (processOf former)).filter
      fun process => process ∉ superseded.map processOf) =
        (afterExec live former survivor superseded).image processOf := by
  rw [afterExec, Finset.image_insert, ← Finset.image_erase processOf_injective,
    Finset.filter_image]
  simp only [List.mem_map_of_injective processOf_injective]

/-- The exec of a trace is one that the protocol accepts. -/
theorem identitiesAreClosed_of_execChange (htracks : Tracks p live)
    {former survivor : TraceProcessId} {superseded : List TraceProcessId}
    (h : ExecChange live former survivor superseded) :
    p.IdentitiesAreClosed (processOf former) (processOf survivor) (superseded.map processOf) := by
  refine ⟨htracks.mem.mpr h.former_mem, ?_, ?_, h.nodup.map processOf_injective, ?_⟩
  · rw [List.mem_map_of_injective processOf_injective]
    exact h.former_notMem
  · intro process hprocess
    obtain ⟨thread, hthread, rfl⟩ := List.mem_map.mp hprocess
    exact htracks.mem.mpr (h.superseded_mem thread hthread)
  · rw [List.mem_map_of_injective processOf_injective, processOf_injective.eq_iff,
      processOf_injective.ne_iff]
    exact h.survivor

/-- A released protocol that tracks the live threads forwards an event. -/
theorem forwardEvent_eq_ok (hinv : p.Inv) (hreleased : p.state = .released)
    (htracks : Tracks p live) {event : ActiveTraceEvent}
    (hevent : EventChange live live' (some event)) :
    ∃ result, forwardEvent p event = .ok result ∧ Forwarded live' result := by
  have hempty : (∅ : Finset DiagnosticProcessId) ⊆ live'.image processOf := Finset.empty_subset _
  have hsingle : ∀ {c : Call}, c.isObservation = true →
      (∀ keys', KeysChange p.processes.keys keys' c → keys' = live'.image processOf) →
      ∃ r, p.call c = .ok r ∧ Forwarded live' (r, ∅) := by
    intro c hc hkeys
    obtain ⟨r, hr, hinv', h⟩ := call_released hinv hreleased hc
    refine ⟨r, hr, hinv', ?_⟩
    rcases h with ⟨hcontinue, hstate, hchange⟩ | ⟨hdrain, hstate⟩
    · exact Or.inl ⟨hcontinue, hstate, hkeys _ hchange⟩
    · exact Or.inr ⟨hdrain, hstate, hempty⟩
  cases event with
  | syscallCompleted process invocation result isError selectedObject candidate =>
    obtain ⟨r, hr, hforwarded⟩ := hsingle (c := .recordEvent (processOf process)) rfl (by
      intro keys' hkeys
      rw [show keys' = _ from hkeys, htracks, hevent.2])
    refine ⟨(r, ∅), ?_, hforwarded⟩
    simp only [forwardEvent, diagnosticProcess_eq, ok_bind]
    rw [show p.recordEvent _ = _ from hr, ok_bind]
    rfl
  | processExited process termination =>
    obtain ⟨r, hr, hforwarded⟩ := hsingle (c := .recordProcessExit (processOf process)) rfl (by
      intro keys' hkeys
      rw [show keys' = _ from hkeys, htracks, hevent.2,
        Finset.image_erase processOf_injective])
    refine ⟨(r, ∅), ?_, hforwarded⟩
    simp only [forwardEvent, diagnosticProcess_eq, ok_bind]
    rw [show p.recordProcessExit _ = _ from hr, ok_bind]
    rfl
  | unexpectedStop process signal stop =>
    obtain ⟨r, hr, hforwarded⟩ := hsingle (c := .recordUnexpectedStop (processOf process)) rfl (by
      intro keys' hkeys
      rw [show keys' = _ from hkeys, htracks, show live' = live from hevent])
    refine ⟨(r, ∅), ?_, hforwarded⟩
    simp only [forwardEvent, diagnosticProcess_eq, ok_bind]
    rw [show p.recordUnexpectedStop _ = _ from hr, ok_bind]
    rfl
  | processCreated parent child kind =>
    obtain ⟨r, hr, hinv', h⟩ := call_released hinv hreleased
      (c := .discoverChild (processOf parent) (processOf child) (processCreationKind kind)) rfl
    have hlive : live'.image processOf = insert (processOf child) (live.image processOf) := by
      rw [hevent.2.2, Finset.image_insert]
    have huntracked : (if processOf child ∈ r.2.processes then ∅ else {processOf child}) ⊆
        live'.image processOf := by
      split
      · exact hempty
      · rw [hlive]
        simp
    obtain ⟨r', hr', hforwarded⟩ := andThen_recordEvent hinv' (h.imp_left (by
      intro h
      refine ⟨h.1, h.2.1, ?_⟩
      show r.2.processes.keys = _
      rw [show r.2.processes.keys = _ from h.2.2, hlive, htracks])) (processOf parent) huntracked
    refine ⟨_, ?_, hforwarded⟩
    simp only [forwardEvent, diagnosticProcess_eq, ok_bind]
    rw [show p.discoverChild _ _ _ = _ from hr, ok_bind, hr', ok_bind]
    rfl
  | imageReplaced former survivor superseded invocation selectedObject =>
    obtain ⟨r, hr, hinv', h⟩ := call_released hinv hreleased
      (c := .recordExec (processOf former) (processOf survivor) (superseded.map processOf)) rfl
    obtain ⟨r', hr', hforwarded⟩ := andThen_recordEvent hinv' (h.imp_left (by
      intro h
      refine ⟨h.1, h.2.1, ?_⟩
      show r.2.processes.keys = _
      rw [show r.2.processes.keys = _ from h.2.2, htracks, hevent.2, image_afterExec]))
      (processOf survivor) hempty
    refine ⟨_, ?_, hforwarded⟩
    simp only [forwardEvent, diagnosticProcess_eq, collect_diagnosticProcess, ok_bind]
    rw [show p.recordExec _ _ _ = _ from hr, ok_bind, hr', ok_bind]
    rfl

end

/-! ## Runs while the observation continues -/

/-- What holds of the result of one call. -/
def Good : Except ObserverAdapterError ActiveObserverStep → Prop
  | .ok (.waiting o) => InStep o
  | .ok (.continue o _) => InStep o
  | .ok (.drain d _) => Drains d
  | .ok (.complete c _) => c.publication = .publishComplete
  | .error (.protocol _) => False
  | .error (.observation _) => True

section

variable {o : ActiveObserver}

/-- A released protocol without processes finishes as complete. -/
theorem finish_of_released {p : ObserverProtocol} (hinv : p.Inv) (hreleased : p.state = .released)
    (hempty : p.processes = ∅) :
    p.finish = .ok (.publishComplete, { p with state := .complete }) := by
  have hgaps : p.gaps = ∅ := hinv.gaps.mpr (by simp [hreleased])
  have hobserving : p.requireObserving = .ok () :=
    ObserverProtocol.requireObserving_eq_ok.mpr (Or.inl hreleased)
  rw [ObserverProtocol.finish, hobserving, ok_bind, rejectIf_false (not_not.mpr hempty), ok_bind,
    rejectIf_false (by simp [hreleased]), ok_bind, if_pos hgaps]
  rfl

/-- Nothing is tracked once the trace has drained. -/
theorem Tracks.eq_empty {p : ObserverProtocol} {t : ActiveTrace} (h : Tracks p t.live)
    (hdrained : t.isDrained = true) : p.processes = ∅ := by
  rw [ActiveTrace.isDrained, Bool.and_eq_true, decide_eq_true_eq] at hdrained
  rw [Maps.eq_empty_iff]
  intro process hprocess
  rw [← Finmap.mem_keys, h, ActiveTrace.live, hdrained.1] at hprocess
  simp at hprocess

theorem good_failed (h : InStep o) (t : ActiveTrace) (error : TraceObservationError)
    (answers : ObserverAnswers) : Good (o.failed t error answers) := by
  obtain ⟨r, hr, hinv, hcases⟩ := call_released h.inv h.released
    (c := .recordObserverFailure) rfl
  have hfailure : o.protocol.recordObserverFailure =
      .ok (o.protocol.stopWithGap .observerFailed) := by
    rw [ObserverProtocol.recordObserverFailure, h.released]
  have heq : r = o.protocol.stopWithGap .observerFailed :=
    Except.ok.inj (hr.symm.trans hfailure)
  subst heq
  simp only [ActiveObserver.failed, hfailure]
  cases answers.terminated with
  | error error => trivial
  | ok => exact ⟨hinv, rfl, Finset.empty_subset _⟩

theorem good_observed (h : InStep o) {t : ActiveTrace} {event : ActiveTraceEvent}
    (hevent : EventChange o.trace.live t.live (some event)) (answers : ObserverAnswers) :
    Good (o.observed t event answers) := by
  obtain ⟨⟨r, untracked⟩, hforward, hinv, hcases⟩ :=
    forwardEvent_eq_ok h.inv h.released h.tracks hevent
  simp only [ActiveObserver.observed, hforward, Except.mapError, ok_bind]
  rcases hcases with ⟨hcontinue, hstate, htracks⟩ | ⟨hdrain, hstate, huntracked⟩
  · rw [if_neg (by rw [hcontinue]; decide), rejectIf_false (not_not.mpr hcontinue), ok_bind]
    by_cases hdrained : t.isDrained = true
    · rw [if_pos hdrained]
      cases answers.terminal with
      | error error => trivial
      | ok =>
        simp only [ok_bind, finish_of_released hinv hstate (htracks.eq_empty hdrained)]
        rfl
    · rw [if_neg hdrained]
      exact ⟨hinv, hstate, htracks⟩
  · rw [if_pos hdrain]
    cases answers.terminated with
    | error error => trivial
    | ok => exact ⟨hinv, hstate, huntracked⟩

theorem good_nextEvent (h : InStep o) (answers : ObserverAnswers) :
    Good (o.nextEvent answers) := by
  unfold ActiveObserver.nextEvent
  rcases hnext : Linux.nextEvent answers.next o.trace with ⟨error | (_ | event), t⟩
  · exact good_failed h t error answers
  · have hlive : t.live = o.trace.live := Linux.nextEvent_eq_ok hnext
    exact ⟨h.inv, h.released, by show Tracks _ t.live; rw [hlive]; exact h.tracks⟩
  · exact good_observed h (Linux.nextEvent_eq_ok hnext) answers

end

/-- Calls of `next_event` while each one lets the observation continue. -/
def ActiveObserver.run (o : ActiveObserver) :
    List ObserverAnswers → Except ObserverAdapterError ActiveObserverStep
  | [] => .ok (.waiting o)
  | answers :: rest =>
    match o.nextEvent answers with
    | .ok (.continue o' _) => o'.run rest
    | result => result

theorem good_run {o : ActiveObserver} (h : InStep o) (answers : List ObserverAnswers) :
    Good (o.run answers) := by
  induction answers generalizing o with
  | nil => exact h
  | cons first rest ih =>
    have hgood := good_nextEvent h first
    unfold ActiveObserver.run
    split
    next hnext =>
      rw [hnext] at hgood
      exact ih hgood
    next => exact hgood

/-- The setup leaves a released protocol with the root. -/
theorem start_eq_ok {root : TraceProcessId} {bounds : ObservationBounds} {options : UInt32}
    {o : ActiveObserver} (h : ActiveObserver.start root bounds options = .ok o) :
    bounds.Valid ∧ o = ⟨.released root bounds.processCount, ⟨.released, bounds, processOf root,
      Finmap.singleton (processOf root) ⟨0⟩, {processOf root}, 0, ∅, false⟩⟩ := by
  simp only [ActiveObserver.start, diagnosticProcess_eq, ok_bind, bind_eq_ok, pure_eq_ok] at h
  obtain ⟨p, hnew, attached, hattached, ready, hready, _, -, enabled, henabled, released,
    hreleased, rfl⟩ := h
  simp only [ObserverProtocol.attachRoot, ObserverProtocol.recordBoundaryReady,
    ObserverProtocol.enableTraceOptions, ObserverProtocol.releaseTarget,
    ObserverProtocol.advance, bind_eq_ok, pure_eq_ok] at hattached hready henabled hreleased
  obtain ⟨-, -, rfl⟩ := hattached
  obtain ⟨-, -, rfl⟩ := hready
  obtain ⟨-, -, -, -, rfl⟩ := henabled
  obtain ⟨-, -, rfl⟩ := hreleased
  obtain ⟨hvalid, rfl⟩ := ObserverProtocol.new_eq_ok.mp hnew
  exact ⟨hvalid, rfl⟩

theorem inStep_start {root : TraceProcessId} {bounds : ObservationBounds} {options : UInt32}
    {o : ActiveObserver} (h : ActiveObserver.start root bounds options = .ok o) : InStep o := by
  obtain ⟨hvalid, rfl⟩ := start_eq_ok h
  have hinv := ObserverProtocol.inv_new
    (ObserverProtocol.new_eq_ok.mpr ⟨hvalid, rfl⟩ : ObserverProtocol.new (processOf root) _ = _)
  refine ⟨{ hinv with gaps := by simp, confirmed := by simp }, rfl, ?_⟩
  show (Finmap.singleton _ _).keys = (Finmap.singleton _ _).keys.image processOf
  rw [Finmap.keys_singleton, Finmap.keys_singleton, Finset.image_singleton]

end ProofboundRuntime.Diagnose
