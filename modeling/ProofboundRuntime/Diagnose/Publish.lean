import ProofboundRuntime.Diagnose.Ledger
import ProofboundRuntime.Diagnose.Mapping

/-!
# When an observation can be published

The command retains the events that it can map, and a receipt recounts them.
The protocol charges more than what is retained, and the event that exceeds a
bound is retained as well, so the two counts need not agree.
`checkObservation_iff` says when they do.
-/

namespace ProofboundRuntime.Diagnose

open Result
open ProofboundRuntime.Core (Architecture)
open Linux (TraceProcessId TraceSyscallInvocation TraceSelectedObject TraceCandidateObservation
  ActiveTraceEvent TraceDrainObservation TraceObservationError EventChange DrainRun)

/-! ## Retained events -/

/-- The process under which an event is retained. -/
def retainedProcess : ActiveTraceEvent → Option TraceProcessId
  | .syscallCompleted process .. => some process
  | .imageReplaced _ survivor _ (some _) _ => some survivor
  | _ => none

def retainedProcesses (events : List ActiveTraceEvent) : List TraceProcessId :=
  events.filterMap retainedProcess

theorem retainedProcesses_append (events : List ActiveTraceEvent) (event : ActiveTraceEvent) :
    retainedProcesses (events ++ [event]) =
      retainedProcesses events ++ (retainedProcess event).toList := by
  rw [retainedProcesses, List.filterMap_append]
  cases hretained : retainedProcess event <;> simp [retainedProcesses, hretained]

def DiagnosticEvent.withSequence (event : DiagnosticEvent) (sequence : Nat) : DiagnosticEvent :=
  { event with sequence := sequence }

variable {bounds : ObservationBounds}

theorem eventValid_withSequence {architecture : Architecture} {event : DiagnosticEvent}
    {sequence : Nat} :
    EventValid bounds architecture (event.withSequence sequence) ↔
      EventValid bounds architecture event :=
  Iff.rfl

section

variable {sequence : Nat} {event : ActiveTraceEvent}

theorem DiagnosticEvent.new_eq_ok {process : UInt32} {architecture : Architecture}
    {eventClass : DiagnosticEventClass} {operands : ObservationOperands}
    {outcome : ObservationOutcome} {resolution : ObservationResolution}
    {resolvedPath : Option String} {objectBefore objectAfter : Option ObservedObjectIdentity}
    {mapped : DiagnosticEvent}
    (h : DiagnosticEvent.new sequence process architecture eventClass operands outcome resolution
      resolvedPath objectBefore objectAfter = .ok mapped) :
    mapped.sequence = sequence ∧ mapped.process = process ∧
      DiagnosticEvent.new 0 process architecture eventClass operands outcome resolution
        resolvedPath objectBefore objectAfter = .ok (mapped.withSequence 0) := by
  unfold DiagnosticEvent.new at h ⊢
  split_ifs at h ⊢
  obtain rfl := Except.ok.inj h
  exact ⟨rfl, rfl, rfl⟩

theorem mapInvocation_eq_ok {process : TraceProcessId} {invocation : TraceSyscallInvocation}
    {result : Int64} {isError : Bool} {selectedObject : Option TraceSelectedObject}
    {candidate : Option TraceCandidateObservation} {mapped : DiagnosticEvent}
    (h : mapInvocation sequence process invocation result isError selectedObject candidate =
      .ok mapped) :
    mapped.sequence = sequence ∧ mapped.process = process.get ∧
      mapInvocation 0 process invocation result isError selectedObject candidate =
        .ok (mapped.withSequence 0) := by
  simp only [mapInvocation, bind_eq_ok, mapError_eq_ok] at h ⊢
  obtain ⟨architecture, harchitecture, operands, hoperands, outcome, houtcome, h⟩ := h
  obtain ⟨hsequence, hprocess, hzero⟩ := DiagnosticEvent.new_eq_ok h
  exact ⟨hsequence, hprocess, architecture, harchitecture, operands, hoperands, outcome, houtcome,
    hzero⟩

/-- What the mapper makes of an event, but for the sequence. -/
theorem mapEvent_eq_ok {mapped : Option DiagnosticEvent}
    (h : mapEvent sequence event = .ok mapped) :
    mapped.map DiagnosticEvent.process = (retainedProcess event).map TraceProcessId.get ∧
      (∀ m ∈ mapped, m.sequence = sequence) ∧
      mapEvent 0 event = .ok (mapped.map fun m => m.withSequence 0) := by
  cases event with
  | syscallCompleted process invocation result isError selectedObject candidate =>
    simp only [mapEvent, bind_eq_ok, pure_eq_ok] at h ⊢
    obtain ⟨m, hm, rfl⟩ := h
    obtain ⟨hsequence, hprocess, hzero⟩ := mapInvocation_eq_ok hm
    refine ⟨by simp [retainedProcess, hprocess], by simpa using hsequence, _, hzero, rfl⟩
  | imageReplaced former survivor superseded invocation selectedObject =>
    cases invocation with
    | none =>
      obtain rfl := pure_eq_ok.mp h
      exact ⟨rfl, by simp, rfl⟩
    | some invocation =>
      simp only [mapEvent, bind_eq_ok, rejectIf_eq_ok, exists_const, pure_eq_ok] at h ⊢
      obtain ⟨hclass, m, hm, rfl⟩ := h
      obtain ⟨hsequence, hprocess, hzero⟩ := mapInvocation_eq_ok hm
      refine ⟨by simp [retainedProcess, hprocess], by simpa using hsequence, hclass, _, hzero, rfl⟩
  | processCreated | processExited | unexpectedStop =>
    obtain rfl := pure_eq_ok.mp h
    exact ⟨rfl, by simp, rfl⟩

theorem not_isLimit_of_resolutionGap {gap : DiagnosticGap} (h : gap ∈ resolutionGap event) :
    ¬gap.IsLimit := by
  unfold resolutionGap at h
  split at h
  · rw [Finset.mem_singleton.mp h]
    simp [DiagnosticGap.IsLimit]
  · rw [Finset.mem_singleton.mp h]
    simp [DiagnosticGap.IsLimit]
  · simp at h

end

/-- What the command has kept of some events. -/
structure Retained (r : Retention) (events : List ActiveTraceEvent) : Prop where
  processes : processesOf r.events = (retainedProcesses events).map TraceProcessId.get
  sequences : r.events.map DiagnosticEvent.sequence = List.range r.nextSequence
  valid : ∀ bounds architecture, (∀ event ∈ r.events, EventValid bounds architecture event) ↔
    ∀ event ∈ events, ∀ mapped, mapEvent 0 event = .ok (some mapped) →
      EventValid bounds architecture mapped
  gaps : ∀ gap ∈ r.resolutionGaps, ¬gap.IsLimit

theorem retained_new : Retained .new [] where
  processes := rfl
  sequences := rfl
  valid := by simp [Retention.new]
  gaps := by simp [Retention.new]

variable {event : ActiveTraceEvent}

theorem Retained.retain {r r' : Retention} {events : List ActiveTraceEvent}
    (h : Retained r events) (hretain : r.retain event = .ok r') : Retained r' (events ++ [event]) := by
  simp only [Retention.retain, bind_eq_ok] at hretain
  obtain ⟨mapped, hmapped, hretain⟩ := hretain
  obtain ⟨hprocess, hsequence, hzero⟩ := mapEvent_eq_ok hmapped
  have hgaps : ∀ gap ∈ r.resolutionGaps ∪ resolutionGap event, ¬gap.IsLimit := by
    intro gap hgap
    rcases Finset.mem_union.mp hgap with hgap | hgap
    · exact h.gaps gap hgap
    · exact not_isLimit_of_resolutionGap hgap
  cases mapped with
  | none =>
    obtain rfl := pure_eq_ok.mp hretain
    have hretained : retainedProcess event = none := by simpa using hprocess.symm
    refine ⟨?_, h.sequences, ?_, hgaps⟩
    · rw [retainedProcesses_append, hretained]
      simpa using h.processes
    · intro bounds architecture
      simp [h.valid bounds architecture, hzero, or_imp, forall_and]
  | some mapped =>
    simp only [bind_eq_ok, rejectIf_eq_ok, exists_const, pure_eq_ok] at hretain
    obtain ⟨-, rfl⟩ := hretain
    obtain ⟨process, hretained, hget⟩ :
        ∃ process, retainedProcess event = some process ∧ mapped.process = process.get := by
      cases hretained : retainedProcess event with
      | none => simp [hretained] at hprocess
      | some process => exact ⟨process, rfl, by simpa [hretained] using hprocess⟩
    refine ⟨?_, ?_, ?_, hgaps⟩
    · rw [retainedProcesses_append, hretained]
      simp [processesOf, ← h.processes, hget]
    · simp [h.sequences, hsequence mapped rfl, List.range_succ]
    · intro bounds architecture
      simp [h.valid bounds architecture, hzero, or_imp, forall_and, eventValid_withSequence]

variable {r : Retention}

theorem Retained.ordered {events : List ActiveTraceEvent} (h : Retained r events) :
    Ordered none r.events := by
  rw [Ordered, Option.toList_none, List.nil_append, h.sequences]
  exact List.isChain_iff_pairwise.mpr List.pairwise_lt_range

/-! ## The run -/

variable {p : ObserverProtocol}

theorem forwardEvent_bounds
    {result : (ObserverDirective × ObserverProtocol) × Finset DiagnosticProcessId}
    (h : forwardEvent p event = .ok result) : result.1.2.bounds = p.bounds := by
  have hcall : ∀ {p : ObserverProtocol} {c : Call} {r : ObserverDirective × ObserverProtocol},
      p.call c = .ok r → r.2.bounds = p.bounds :=
    fun hcall => (ObserverProtocol.step_of_call hcall).bounds_eq
  have hthen : ∀ {r r' : ObserverDirective × ObserverProtocol} {process : DiagnosticProcessId},
      ObserverProtocol.andThen r (fun p => p.recordEvent process) = .ok r' →
        r'.2.bounds = r.2.bounds := by
    intro r r' process h
    unfold ObserverProtocol.andThen at h
    split_ifs at h
    · exact hcall (c := .recordEvent process) h
    · rw [Except.ok.inj h]
  cases event with
  | syscallCompleted process invocation result isError selectedObject candidate =>
    simp only [forwardEvent, diagnosticProcess_eq, ok_bind, bind_eq_ok, pure_eq_ok] at h
    obtain ⟨r, hr, rfl⟩ := h
    exact hcall (c := .recordEvent (processOf process)) hr
  | processCreated parent child kind =>
    simp only [forwardEvent, diagnosticProcess_eq, ok_bind, bind_eq_ok, pure_eq_ok] at h
    obtain ⟨first, hfirst, r, hr, rfl⟩ := h
    refine (hthen hr).trans (hcall (c := .discoverChild (processOf parent) (processOf child)
      (processCreationKind kind)) hfirst)
  | imageReplaced former survivor superseded invocation selectedObject =>
    simp only [forwardEvent, diagnosticProcess_eq, collect_diagnosticProcess, ok_bind,
      bind_eq_ok, pure_eq_ok] at h
    obtain ⟨first, hfirst, r, hr, rfl⟩ := h
    refine (hthen hr).trans (hcall (c := .recordExec (processOf former) (processOf survivor)
      (superseded.map processOf)) hfirst)
  | processExited process termination =>
    simp only [forwardEvent, diagnosticProcess_eq, ok_bind, bind_eq_ok, pure_eq_ok] at h
    obtain ⟨r, hr, rfl⟩ := h
    exact hcall (c := .recordProcessExit (processOf process)) hr
  | unexpectedStop process signal stop =>
    simp only [forwardEvent, diagnosticProcess_eq, ok_bind, bind_eq_ok, pure_eq_ok] at h
    obtain ⟨r, hr, rfl⟩ := h
    exact hcall (c := .recordUnexpectedStop (processOf process)) hr

/-- A protocol after the events of a ledger, within its bounds. -/
structure Accounted (bounds : ObservationBounds) (l : Ledger) (p : ObserverProtocol) : Prop where
  inv : p.Inv
  bounds_eq : p.bounds = bounds
  settled : Settled l p

/-- What one call leaves behind, and which event it adds to the ledger. -/
def Recorded (bounds : ObservationBounds) (l : Ledger) :
    Except ObserverAdapterError ActiveObserverStep → Prop
  | .ok (.continue o event) => InStep o ∧
      Accounted bounds (l.record bounds.processCount event) o.protocol ∧
      Books (l.record bounds.processCount event) o.protocol ∧
      ∀ process ∈ retainedProcess event, process ∈ l.seen
  | .ok (.drain d (.event event)) => Drains d ∧
      Accounted bounds (l.record bounds.processCount event) d.protocol ∧
      ∀ process ∈ retainedProcess event, process ∈ l.seen
  | .ok (.drain d (.failure _)) => Drains d ∧ Accounted bounds l d.protocol
  | .ok (.complete c event) => c.publication = .publishComplete ∧
      Accounted bounds (l.record bounds.processCount event) c.protocol ∧
      c.protocol.gaps = ∅ ∧ ∀ process ∈ retainedProcess event, process ∈ l.seen
  | _ => True

section

variable {o : ActiveObserver} {l : Ledger}

/-- A retained event is one of a process that was seen. -/
theorem Books.mem_seen (h : Books l o.protocol) (hin : InStep o) {live' : Finset TraceProcessId}
    (hevent : EventChange o.trace.live live' (some event)) :
    ∀ process ∈ retainedProcess event, process ∈ l.seen := by
  intro process hprocess
  have hlive : process ∈ o.trace.live := by
    cases event with
    | syscallCompleted =>
      obtain rfl := Option.some.inj hprocess
      exact hevent.1
    | imageReplaced former survivor superseded invocation =>
      cases invocation with
      | none => cases hprocess
      | some invocation =>
        obtain rfl := Option.some.inj hprocess
        rcases hevent.1.survivor with ⟨rfl, -⟩ | ⟨-, hmem⟩
        · exact hevent.1.former_mem
        · exact hevent.1.superseded_mem _ hmem
    | _ => cases hprocess
  have hseen := hin.inv.tracked_seen _ (hin.tracks.mem.mpr hlive)
  rw [h.seen] at hseen
  exact processOf_injective.mem_finset_image.mp hseen

theorem recorded_observed (hin : InStep o) (hbooks : Books l o.protocol) {t : Linux.ActiveTrace}
    (hevent : EventChange o.trace.live t.live (some event)) (answers : ObserverAnswers) :
    Recorded o.protocol.bounds l (o.observed t event answers) := by
  have hseen := hbooks.mem_seen hin hevent
  obtain ⟨⟨r, untracked⟩, hforward, hinv, hcases⟩ :=
    forwardEvent_eq_ok hin.inv hin.released hin.tracks hevent
  obtain ⟨hsettled, hentered⟩ := hbooks.forwardEvent hin.inv hin.released hin.tracks hevent hforward
  have haccounted : Accounted o.protocol.bounds
      (l.record o.protocol.bounds.processCount event) r.2 :=
    ⟨hinv, forwardEvent_bounds hforward, hsettled⟩
  simp only [ActiveObserver.observed, hforward, Except.mapError, ok_bind]
  rcases hcases with ⟨hcontinue, hstate, htracks⟩ | ⟨hdrain, hstate, huntracked⟩
  · rw [if_neg (by rw [hcontinue]; decide), rejectIf_false (not_not.mpr hcontinue), ok_bind]
    by_cases hdrained : t.isDrained = true
    · rw [if_pos hdrained]
      cases answers.terminal with
      | error error => trivial
      | ok =>
        have hfinish := finish_of_released hinv hstate (htracks.eq_empty hdrained)
        have hgaps : r.2.gaps = ∅ :=
          hinv.gaps.mpr (by rw [show r.2.state = _ from hstate]; decide)
        simp only [ok_bind, hfinish]
        refine ⟨rfl, ⟨(ObserverProtocol.step_of_finish hfinish).inv hinv,
          haccounted.bounds_eq, ?_⟩, hgaps, hseen⟩
        exact { hsettled with }
    · rw [if_neg hdrained]
      exact ⟨⟨hinv, hstate, htracks⟩, haccounted, hentered hcontinue, hseen⟩
  · rw [if_pos hdrain]
    cases answers.terminated with
    | error error => trivial
    | ok => exact ⟨⟨hinv, hstate, huntracked⟩, haccounted, hseen⟩

theorem recorded_failed (hin : InStep o) (hbooks : Books l o.protocol) (t : Linux.ActiveTrace)
    (error : TraceObservationError) (answers : ObserverAnswers) :
    Recorded o.protocol.bounds l (o.failed t error answers) := by
  have hgood := good_failed hin t error answers
  have hgaps : o.protocol.gaps = ∅ := hin.inv.gaps.mpr (by simp [hin.released])
  have hfailure : o.protocol.recordObserverFailure =
      .ok (o.protocol.stopWithGap .observerFailed) := by
    rw [ObserverProtocol.recordObserverFailure, hin.released]
  have hinv := (ObserverProtocol.step_of_recordObserverFailure hfailure).inv hin.inv
  simp only [ActiveObserver.failed, hfailure] at hgood ⊢
  cases hterminated : answers.terminated with
  | error error => trivial
  | ok =>
    rw [hterminated] at hgood
    refine ⟨hgood, hinv, rfl, ?_⟩
    exact hbooks.settled hin.inv.total_le rfl rfl
      (by simp [ObserverProtocol.stopWithGap, hgaps])

theorem recorded_nextEvent (hin : InStep o) (hbooks : Books l o.protocol)
    (answers : ObserverAnswers) : Recorded o.protocol.bounds l (o.nextEvent answers) := by
  unfold ActiveObserver.nextEvent
  rcases hnext : Linux.nextEvent answers.next o.trace with ⟨error | (_ | event), t⟩
  · exact recorded_failed hin hbooks t error answers
  · trivial
  · exact recorded_observed hin hbooks (Linux.nextEvent_eq_ok hnext) answers

end

/-- The events that the calls returned. -/
def ActiveObserver.events (o : ActiveObserver) : List ObserverAnswers → List ActiveTraceEvent
  | [] => []
  | answers :: rest =>
    match o.nextEvent answers with
    | .ok (.continue o' event) => event :: o'.events rest
    | .ok (.drain _ (.event event)) => [event]
    | .ok (.complete _ event) => [event]
    | _ => []

/-- How the calls end when the command publishes. -/
def Outcome (polls : List Linux.DrainPoll) (terminal : Except TraceObservationError Unit)
    (bounds : ObservationBounds) (l : Ledger) (c : CompletedObserver) :
    Except ObserverAdapterError ActiveObserverStep → Prop
  | .ok (.drain d _) => Drains d ∧ Accounted bounds l d.protocol ∧ d.finish polls terminal = .ok c
  | .ok (.complete completed _) => completed = c ∧ c.publication = .publishComplete ∧
      Accounted bounds l c.protocol ∧ c.protocol.gaps = ∅
  | _ => False

theorem ledger_append (root : TraceProcessId) (processCount : Nat)
    (events : List ActiveTraceEvent) (event : ActiveTraceEvent) :
    ledger root processCount (events ++ [event]) =
      (ledger root processCount events).record processCount event := by
  rw [ledger, List.foldl_append]
  rfl

theorem Ledger.seen_subset_record (l : Ledger) (processCount : Nat) (event : ActiveTraceEvent) :
    l.seen ⊆ (l.record processCount event).seen := by
  cases event with
  | processCreated parent child kind =>
    simp only [Ledger.record]
    split_ifs
    · exact Finset.Subset.refl _
    · exact Finset.Subset.refl _
    · exact Finset.subset_insert _ _
  | _ => exact Finset.Subset.refl _

/-- Every retained process is one that the ledger has seen. -/
def RetainedSeen (root : TraceProcessId) (processCount : Nat) (events : List ActiveTraceEvent) :
    Prop :=
  ∀ process ∈ retainedProcesses events, process ∈ (ledger root processCount events).seen

variable {root : TraceProcessId}

theorem RetainedSeen.append {processCount : Nat} {events : List ActiveTraceEvent}
    (h : RetainedSeen root processCount events)
    (hevent : ∀ process ∈ retainedProcess event, process ∈ (ledger root processCount events).seen) :
    RetainedSeen root processCount (events ++ [event]) := by
  intro process hprocess
  rw [retainedProcesses_append, List.mem_append, Option.mem_toList] at hprocess
  rw [ledger_append]
  exact Ledger.seen_subset_record _ _ _ (hprocess.elim (h process) (hevent process))

variable {c : CompletedObserver}

/-- The loop keeps what it was given, and ends as the calls do. -/
theorem observe_eq_ok {polls : List Linux.DrainPoll} {terminal : Except TraceObservationError Unit}
    {answers : List ObserverAnswers} {o : ActiveObserver} {r r' : Retention}
    {before : List ActiveTraceEvent} (hin : InStep o) (hbounds : o.protocol.bounds = bounds)
    (hbooks : Books (ledger root bounds.processCount before) o.protocol)
    (hretained : Retained r before) (hseen : RetainedSeen root bounds.processCount before)
    (h : observe polls terminal o r answers = .ok (some (c, r'))) :
    Retained r' (before ++ o.events answers) ∧
      RetainedSeen root bounds.processCount (before ++ o.events answers) ∧
      Outcome polls terminal bounds
        (ledger root bounds.processCount (before ++ o.events answers)) c (o.run answers) := by
  induction answers generalizing o r before with
  | nil => cases pure_eq_ok.mp h
  | cons first rest ih =>
    have hrecorded := recorded_nextEvent hin hbooks first
    rw [hbounds] at hrecorded
    simp only [observe, bind_eq_ok, mapError_eq_ok] at h
    obtain ⟨step, hstep, h⟩ := h
    rw [hstep] at hrecorded
    simp only [ActiveObserver.events, ActiveObserver.run, hstep]
    cases step with
    | waiting => cases pure_eq_ok.mp h
    | «continue» next event =>
      obtain ⟨hnext, haccounted, hbooks', hnew⟩ := hrecorded
      simp only [bind_eq_ok, mapError_eq_ok] at h
      obtain ⟨r₁, hr₁, h⟩ := h
      rw [← ledger_append] at hbooks'
      have hrest := ih hnext haccounted.bounds_eq hbooks' (hretained.retain hr₁)
        (hseen.append hnew) h
      rwa [List.append_assoc, List.singleton_append] at hrest
    | drain d observation =>
      simp only [bind_eq_ok, mapError_eq_ok, pure_eq_ok] at h
      obtain ⟨r₁, hr₁, completed, hfinish, heq⟩ := h
      obtain ⟨rfl, rfl⟩ := Prod.mk.inj (Option.some.inj heq)
      cases observation with
      | event event =>
        obtain ⟨hdrains, haccounted, hnew⟩ := hrecorded
        rw [← ledger_append] at haccounted
        exact ⟨hretained.retain hr₁, hseen.append hnew, hdrains, haccounted, hfinish⟩
      | failure error =>
        obtain rfl := pure_eq_ok.mp hr₁
        rw [List.append_nil]
        exact ⟨hretained, hseen, hrecorded.1, hrecorded.2, hfinish⟩
    | complete completed event =>
      obtain ⟨hpublication, haccounted, hgaps, hnew⟩ := hrecorded
      simp only [bind_eq_ok, mapError_eq_ok, pure_eq_ok] at h
      obtain ⟨r₁, hr₁, heq⟩ := h
      obtain ⟨rfl, rfl⟩ := Prod.mk.inj (Option.some.inj heq)
      rw [← ledger_append] at haccounted
      exact ⟨hretained.retain hr₁, hseen.append hnew, rfl, hpublication, haccounted, hgaps⟩

/-! ## Publication -/

/-- The condition under which the counts of the receipt agree with the gaps of
the protocol, in terms of the events and their ledger. -/
structure Publishable (bounds : ObservationBounds) (architecture : Architecture) (l : Ledger)
    (events : List ActiveTraceEvent) (refusedInDrain : Prop) : Prop where
  valid : ∀ event ∈ events, ∀ mapped, mapEvent 0 event = .ok (some mapped) →
    EventValid bounds architecture mapped
  count_le : ∀ process, (retainedProcesses events).count process ≤ bounds.eventCountPerProcess
  total : bounds.eventCount < l.total → (retainedProcesses events).length = bounds.eventCount
  perProcess : (∃ process, bounds.eventCountPerProcess < l.charges process) →
    ∃ process ∈ retainedProcesses events,
      (retainedProcesses events).count process = bounds.eventCountPerProcess
  processes : l.refused = true ∨ refusedInDrain →
    (retainedProcesses events).toFinset.card = bounds.processCount

/-- A retained event is charged. -/
theorem length_le_total (root : TraceProcessId) (processCount : Nat)
    (events : List ActiveTraceEvent) :
    (retainedProcesses events).length ≤ (ledger root processCount events).total := by
  induction events using List.reverseRecOn with
  | nil => exact Nat.zero_le _
  | append_singleton events event ih =>
    rw [retainedProcesses_append, ledger_append, List.length_append]
    cases event with
    | syscallCompleted => exact Nat.succ_le_succ ih
    | imageReplaced former survivor superseded invocation =>
      cases invocation with
      | none => exact Nat.le_succ_of_le ih
      | some => exact Nat.succ_le_succ ih
    | processCreated parent child kind =>
      simp only [Ledger.record, retainedProcess, Option.toList_none, List.length_nil, add_zero]
      split_ifs
      · exact ih
      · exact ih
      · exact Nat.le_succ_of_le ih
    | processExited => exact ih
    | unexpectedStop => exact ih

/-- The limit gaps that are published, and the counts they are compared with. -/
structure LimitGaps (bounds : ObservationBounds) (l : Ledger) (refusedInDrain : Prop)
    (gaps : Finset DiagnosticGap) : Prop where
  eventLimit : .eventLimit ∈ gaps ↔ bounds.eventCount < l.total
  eventPerProcessLimit : .eventPerProcessLimit ∈ gaps ↔
    ∃ process, bounds.eventCountPerProcess < l.charges process
  processLimit : .processLimit ∈ gaps ↔ l.refused = true ∨ refusedInDrain

theorem count_get_le {processes : List TraceProcessId} {bound : Nat} :
    (∀ process, (processes.map TraceProcessId.get).count process ≤ bound) ↔
      ∀ process, processes.count process ≤ bound := by
  constructor
  · intro h process
    rw [← List.count_map_of_injective _ _ TraceProcessId.get_injective]
    exact h process.get
  · intro h process
    by_cases hmem : process ∈ processes.map TraceProcessId.get
    · obtain ⟨thread, -, rfl⟩ := List.mem_map.mp hmem
      rw [List.count_map_of_injective _ _ TraceProcessId.get_injective]
      exact h thread
    · rw [List.count_eq_zero.mpr hmem]
      exact Nat.zero_le _

/-- The events that were kept pass the checks exactly when they can be
published. -/
theorem eventsValid_iff {architecture : Architecture} {refusedInDrain : Prop}
    {events : List ActiveTraceEvent}
    {gaps : Finset DiagnosticGap} (hretained : Retained r events)
    (hseen : RetainedSeen root bounds.processCount events)
    (hcard : (ledger root bounds.processCount events).seen.card ≤ bounds.processCount)
    (hgaps : LimitGaps bounds (ledger root bounds.processCount events) refusedInDrain gaps) :
    EventsValid r.events bounds architecture gaps ↔
      Publishable bounds architecture (ledger root bounds.processCount events) events
        refusedInDrain := by
  have hlength : r.events.length = (retainedProcesses events).length := by
    have hprocesses := congrArg List.length hretained.processes
    rwa [processesOf, List.length_map, List.length_map] at hprocesses
  have htotal := length_le_total root bounds.processCount events
  have hfinset : (processesOf r.events).toFinset.card =
      (retainedProcesses events).toFinset.card := by
    have himage : ((retainedProcesses events).map TraceProcessId.get).toFinset =
        (retainedProcesses events).toFinset.image TraceProcessId.get := by
      ext process
      simp
    rw [hretained.processes, himage,
      Finset.card_image_of_injective _ TraceProcessId.get_injective]
  have hfinset_le : (retainedProcesses events).toFinset.card ≤ bounds.processCount :=
    (Finset.card_le_card fun process hprocess =>
      hseen process (List.mem_toFinset.mp hprocess)).trans hcard
  have hper : (∃ process ∈ processesOf r.events,
      (processesOf r.events).count process = bounds.eventCountPerProcess) ↔
      ∃ process ∈ retainedProcesses events,
        (retainedProcesses events).count process = bounds.eventCountPerProcess := by
    rw [hretained.processes]
    simp only [List.mem_map, exists_exists_and_eq_and,
      List.count_map_of_injective _ _ TraceProcessId.get_injective]
  constructor
  · intro h
    refine ⟨(hretained.valid bounds architecture).mp h.valid, ?_, ?_, ?_, ?_⟩
    · have hcount := h.count_le
      rwa [hretained.processes, count_get_le] at hcount
    · intro hexceeded
      rw [← hlength]
      exact h.eventLimit (hgaps.eventLimit.mpr hexceeded)
    · intro hexceeded
      exact hper.mp (h.eventPerProcessLimit (hgaps.eventPerProcessLimit.mpr hexceeded))
    · intro hrefused
      rw [← hfinset]
      exact h.processLimit (hgaps.processLimit.mpr hrefused)
  · intro h
    refine ⟨?_, (hretained.valid bounds architecture).mpr h.valid, hretained.ordered, ?_, ?_, ?_,
      ?_, ?_⟩
    · by_cases hexceeded : bounds.eventCount <
          (ledger root bounds.processCount events).total
      · rw [hlength, h.total hexceeded]
      · omega
    · rw [hretained.processes, count_get_le]
      exact h.count_le
    · rwa [hfinset]
    · intro hgap
      rw [hlength]
      exact h.total (hgaps.eventLimit.mp hgap)
    · intro hgap
      exact hper.mpr (h.perProcess (hgaps.eventPerProcessLimit.mp hgap))
    · intro hgap
      rw [hfinset]
      exact h.processes (hgaps.processLimit.mp hgap)

/-- The process limit refuses a creation while the observer drains. -/
def DrainRefuses (polls : List Linux.DrainPoll) (terminal : Except TraceObservationError Unit) :
    Except ObserverAdapterError ActiveObserverStep → Prop
  | .ok (.drain d _) => ∃ observations,
      (Linux.drain polls terminal d.trace).1 = .ok observations ∧
        RefusedInDrain (d.protocol, d.untrackedProcesses) observations
  | _ => False

/-- A published drain has the gaps that the drain left. -/
theorem publish_eq_ok {d : DrainingObserver} {observations : List TraceDrainObservation}
    (h : d.publish observations = .ok c) :
    ∃ s, forwardAll (d.protocol, d.untrackedProcesses) observations = .ok s ∧
      c.protocol.gaps = s.1.gaps ∧
      (c.publication = .publishComplete ∨ c.publication = .publishIncomplete) := by
  simp only [DrainingObserver.publish, bind_eq_ok, mapError_eq_ok, rejectIf_eq_ok,
    exists_const] at h
  obtain ⟨s, hs, -, confirmed, hconfirmed, h⟩ := h
  refine ⟨s, hs, ?_⟩
  simp only [ObserverProtocol.confirmTreeDrained, bind_eq_ok, pure_eq_ok] at hconfirmed
  obtain ⟨-, -, -, -, rfl⟩ := hconfirmed
  cases hpublication : d.publication with
  | forbidden error =>
    simp [hpublication] at h
  | eligible =>
    rw [hpublication] at h
    simp only [bind_eq_ok, mapError_eq_ok, pure_eq_ok, ObserverProtocol.finish] at h
    obtain ⟨finished, ⟨-, -, -, -, -, -, hfinished⟩, rfl⟩ := h
    split_ifs at hfinished
    · obtain rfl := pure_eq_ok.mp hfinished
      exact ⟨rfl, Or.inl rfl⟩
    · obtain rfl := pure_eq_ok.mp hfinished
      exact ⟨rfl, Or.inr rfl⟩

theorem books_start (root : TraceProcessId) (bounds : ObservationBounds) :
    Books (.start root) ⟨.released, bounds, processOf root,
      Finmap.singleton (processOf root) ⟨0⟩, {processOf root}, 0, ∅, false⟩ where
  seen := by simp [Ledger.start]
  total := rfl
  charges process observation hlookup := by
    have hmem := Finmap.mem_of_lookup_eq_some hlookup
    rw [Finmap.mem_singleton] at hmem
    rw [hmem, Finmap.lookup_singleton_eq] at hlookup
    obtain rfl := Option.some.inj hlookup
    rfl
  charges_le _ := Nat.zero_le _
  refused := rfl

variable {l : Ledger}

theorem Accounted.card_le (h : Accounted bounds l p) : l.seen.card ≤ bounds.processCount := by
  have hle := h.inv.seen_le
  rwa [h.settled.seen, Finset.card_image_of_injective _ processOf_injective, h.bounds_eq] at hle

/-- The limit gaps after a drain. -/
theorem limitGaps_of_drain (h : Accounted bounds l p) {refused : Prop} {gaps : Finset DiagnosticGap}
    (hgaps : ∀ gap : DiagnosticGap, gap.IsLimit →
      (gap ∈ gaps ↔ gap ∈ p.gaps ∨ gap = .processLimit ∧ refused)) :
    LimitGaps bounds l refused gaps where
  eventLimit := by
    rw [hgaps _ (Or.inl rfl), h.settled.eventLimit, h.bounds_eq]
    simp
  eventPerProcessLimit := by
    rw [hgaps _ (Or.inr (Or.inl rfl)), h.settled.eventPerProcessLimit, h.bounds_eq]
    simp
  processLimit := by
    rw [hgaps _ (Or.inr (Or.inr rfl)), h.settled.processLimit]
    simp

/-- What the command publishes: a completion that fits the gaps, and limit gaps
that say which bound the ledger exceeds. -/
theorem outcome_gaps {polls : List Linux.DrainPoll} {terminal : Except TraceObservationError Unit}
    {result : Except ObserverAdapterError ActiveObserverStep}
    (h : Outcome polls terminal bounds l c result) :
    l.seen.card ≤ bounds.processCount ∧
      LimitGaps bounds l (DrainRefuses polls terminal result) c.protocol.gaps ∧
      (c.publication = .publishComplete ∨
        c.publication = .publishIncomplete ∧ c.protocol.gaps ≠ ∅) := by
  cases result with
  | error error => cases h
  | ok step =>
    cases step with
    | waiting o => cases h
    | «continue» o event => cases h
    | complete completed event =>
      obtain ⟨-, hpublication, haccounted, -⟩ := h
      refine ⟨haccounted.card_le, limitGaps_of_drain haccounted ?_, Or.inl hpublication⟩
      simp [DrainRefuses]
    | drain d observation =>
      obtain ⟨hdrains, haccounted, hfinish⟩ := h
      simp only [DrainingObserver.finish, bind_eq_ok, mapError_eq_ok] at hfinish
      obtain ⟨observations, hdrain, hpublish⟩ := hfinish
      obtain ⟨s, hs, hgaps, hpublication⟩ := publish_eq_ok hpublish
      have hrun : DrainRun d.trace.live observations ∅ :=
        Linux.drain_eq_ok (Prod.ext hdrain rfl)
      obtain ⟨s', hs', hinv, hstate, -⟩ := forwardAll_eq_ok
        (s := (d.protocol, d.untrackedProcesses)) hrun hdrains.inv hdrains.draining
      obtain rfl := Except.ok.inj (hs.symm.trans hs')
      have hne : c.protocol.gaps ≠ ∅ := by
        rw [hgaps]
        intro hempty
        exact (hinv.gaps.mp hempty).1 hstate
      have hrefuses : DrainRefuses polls terminal (.ok (.drain d observation)) ↔
          RefusedInDrain (d.protocol, d.untrackedProcesses) observations := by
        simp [DrainRefuses, hdrain]
      refine ⟨haccounted.card_le, limitGaps_of_drain haccounted ?_,
        hpublication.imp_right fun h => ⟨h, hne⟩⟩
      intro gap hgap
      rw [hgaps, hrefuses]
      exact forwardAll_gaps hgap hs

/-- The gaps of the resolutions are no limit gaps. -/
theorem LimitGaps.published {refused : Prop} (h : LimitGaps bounds l refused c.protocol.gaps)
    (hgaps : ∀ gap ∈ r.resolutionGaps, ¬gap.IsLimit) :
    LimitGaps bounds l refused (publishedGaps c r) := by
  have hmem : ∀ gap : DiagnosticGap, gap.IsLimit →
      (gap ∈ publishedGaps c r ↔ gap ∈ c.protocol.gaps) := by
    intro gap hgap
    rw [publishedGaps, Finset.mem_union, or_iff_left fun h => hgaps gap h hgap]
  exact ⟨(hmem _ (Or.inl rfl)).trans h.eventLimit,
    (hmem _ (Or.inr (Or.inl rfl))).trans h.eventPerProcessLimit,
    (hmem _ (Or.inr (Or.inr rfl))).trans h.processLimit⟩

/-- The published completion fits the gaps. -/
theorem exists_publishedCompletion
    (h : c.publication = .publishComplete ∨
      c.publication = .publishIncomplete ∧ c.protocol.gaps ≠ ∅) :
    ∃ completion, publishedCompletion c r = .ok completion ∧
      (completion = .complete ↔ publishedGaps c r = ∅) := by
  unfold publishedCompletion
  by_cases hempty : publishedGaps c r = ∅
  · have hgaps : c.protocol.gaps = ∅ :=
      Finset.subset_empty.mp (hempty ▸ Finset.subset_union_left)
    have hcomplete : c.publication = .publishComplete :=
      h.resolve_right fun h => h.2 hgaps
    simp [hempty, hcomplete]
  · rcases h with hcomplete | ⟨hincomplete, -⟩
    · simp [hempty, hcomplete]
    · simp [hempty, hincomplete]

/-- For any answers to the observer, what the command publishes passes the
checks of a receipt exactly when the events can be published. -/
theorem checkObservation_iff {root : TraceProcessId} {bounds : ObservationBounds}
    {options : UInt32} {o : ActiveObserver}
    (hstart : ActiveObserver.start root bounds options = .ok o)
    {polls : List Linux.DrainPoll} {terminal : Except TraceObservationError Unit}
    {answers : List ObserverAnswers} {c : CompletedObserver} {r : Retention}
    (hobserve : observe polls terminal o .new answers = .ok (some (c, r)))
    (architecture : Architecture) :
    ∃ completion, publishedCompletion c r = .ok completion ∧
      (checkObservation bounds r.events architecture completion (publishedGaps c r) = .ok () ↔
        Publishable bounds architecture (ledger root bounds.processCount (o.events answers))
          (o.events answers) (DrainRefuses polls terminal (o.run answers))) := by
  obtain ⟨hvalid, ho⟩ := start_eq_ok hstart
  have hbounds : o.protocol.bounds = bounds := by rw [ho]
  have hbooks : Books (ledger root bounds.processCount []) o.protocol := by
    rw [ho]
    exact books_start root bounds
  obtain ⟨hretained, hseen, houtcome⟩ := observe_eq_ok (inStep_start hstart) hbounds hbooks
    retained_new (by simp [RetainedSeen, retainedProcesses]) hobserve
  rw [List.nil_append] at hretained hseen houtcome
  obtain ⟨hcard, hlimits, hpublication⟩ := outcome_gaps houtcome
  obtain ⟨completion, hcompletion, hfits⟩ := exists_publishedCompletion (r := r) hpublication
  have hgaps : (publishedGaps c r).card ≤ 64 := (Finset.card_le_univ _).trans (by decide)
  refine ⟨completion, hcompletion, ?_⟩
  rw [checkObservation_eq_ok,
    eventsValid_iff hretained hseen hcard (hlimits.published hretained.gaps)]
  exact ⟨fun h => h.2.1, fun h => ⟨hvalid, h, hgaps, hfits⟩⟩

/-! ## Two observations -/

/-- One event may be observed. -/
def oneEvent : ObservationBounds := ⟨1, 4, 1048576, 4096, 4, 128, 40, 4096⟩

/-- The root creates a socket: the entry and the exit of the call. -/
def socketAnswers : ObserverAnswers where
  next := {
    expired := false
    resume := sampleKernel 0
    polls := [
      .observed sampleProcess ⟨10, .stopped 133 0⟩
        { sampleKernel 0 with
          syscallStop := some .entry
          invocation := .ok (some ⟨0xc000003e, .socket, .socketCreate 2 0 1⟩) } false false,
      .observed sampleProcess ⟨10, .stopped 133 0⟩
        { sampleKernel 0 with syscallStop := some (.exit 3 false) } false false] }
  terminated := .ok ()
  terminal := .ok ()

def rootExitPolls : List Linux.DrainPoll :=
  [⟨sampleProcess, ⟨10, .exited 0⟩, sampleKernel 0⟩]

/-- The observer of the root with one event. -/
def oneEventObserver : ActiveObserver where
  trace := .released sampleProcess 4
  protocol := { sampleObserver.protocol with bounds := oneEvent }

def socketEvent (sequence : Nat) : DiagnosticEvent where
  sequence := sequence
  process := 10
  architecture := .x86_64
  eventClass := .socket
  operands := .socketCreate 2 0 1
  outcome := .returned 3
  resolution := .unresolved
  resolvedPath := none
  objectBefore := none
  objectAfter := none
  process_ne_zero := ObserverProtocol.sampleRoot.ne_zero
  kind_eq := rfl
  outcome_ne := by decide
  resolution_valid := ⟨⟨rfl, rfl, rfl⟩, rfl⟩

/-- A thread exceeds the bound of one process after an event of the root is retained, and
both exit in the drain: the gap is published with the event. -/
theorem checkObservation_iff_sample :
    ActiveObserver.start sampleProcess oneProcess requiredTraceOptions = .ok sampleObserver ∧
      ∃ c r, observe exitPolls (.ok ()) sampleObserver .new [socketAnswers, sampleAnswers] =
          .ok (some (c, r)) ∧
        c.publication = .publishIncomplete ∧ publishedGaps c r = {.processLimit} ∧
        r.events = [socketEvent 0] ∧
        Publishable oneProcess .x86_64
          (ledger sampleProcess 1 (sampleObserver.events [socketAnswers, sampleAnswers]))
          (sampleObserver.events [socketAnswers, sampleAnswers])
          (DrainRefuses exitPolls (.ok ())
            (sampleObserver.run [socketAnswers, sampleAnswers])) := by
  let c : CompletedObserver := ⟨{ sampleDraining.protocol with
    state := .incomplete
    processes := ∅
    totalEvents := 1
    treeDrainConfirmed := true }, .publishIncomplete⟩
  have hobserve : observe exitPolls (.ok ()) sampleObserver .new [socketAnswers, sampleAnswers] =
      .ok (some (c, ⟨1, [socketEvent 0], ∅⟩)) := by
    decide +kernel
  obtain ⟨completion, hcompletion, hiff⟩ := checkObservation_iff start_sample hobserve .x86_64
  obtain rfl : DiagnosticCompletion.incomplete = completion := Except.ok.inj hcompletion
  exact ⟨start_sample, c, _, hobserve, rfl, by decide +kernel, rfl, hiff.mp (by decide +kernel)⟩

/-- The observer whose drain confirms that one event was charged. -/
def completedSample : CompletedObserver where
  protocol := { oneEventObserver.protocol with
    state := .incomplete
    processes := ∅
    totalEvents := 1
    gaps := {.eventLimit}
    treeDrainConfirmed := true }
  publication := .publishIncomplete

/-- The second of two calls exceeds the bound of one event.  The event is
retained all the same, and the receipt rejects the two events. -/
theorem checkObservation_fails :
    ∃ c r,
      ActiveObserver.start sampleProcess oneEvent requiredTraceOptions = .ok oneEventObserver ∧
      observe rootExitPolls (.ok ()) oneEventObserver .new [socketAnswers, socketAnswers] =
        .ok (some (c, r)) ∧
      c.publication = .publishIncomplete ∧
      publishedCompletion c r = .ok .incomplete ∧
      publishedGaps c r = {.eventLimit} ∧
      checkObservation oneEvent r.events .x86_64 .incomplete (publishedGaps c r) =
        .error .eventBoundExceeded := by
  refine ⟨completedSample, ⟨2, [socketEvent 0, socketEvent 1], ∅⟩, ?_, ?_, rfl, ?_, ?_, ?_⟩ <;>
  decide +kernel

end ProofboundRuntime.Diagnose
