import ProofboundRuntime.Linux.Trace

/-!
# The live threads of a trace

What an accepted wait result does to the live threads, one clause for each
event.  Nothing else about the trace is needed to follow its process tree.
-/

namespace ProofboundRuntime.Linux

open Result

variable {t t' : ActiveTrace} {k : Kernel}

/-- What one exec requires of the live threads. -/
structure ExecChange (live : Finset TraceProcessId) (former survivor : TraceProcessId)
    (superseded : List TraceProcessId) : Prop where
  former_mem : former ∈ live
  former_notMem : former ∉ superseded
  superseded_mem : ∀ process ∈ superseded, process ∈ live
  nodup : superseded.Nodup
  survivor : (former = survivor ∧ survivor ∉ superseded) ∨
    (former ≠ survivor ∧ survivor ∈ superseded)

/-- The live threads after an exec. -/
def afterExec (live : Finset TraceProcessId) (former survivor : TraceProcessId)
    (superseded : List TraceProcessId) : Finset TraceProcessId :=
  insert survivor ((live.erase former).filter fun process => process ∉ superseded)

/-- What an event says about the live threads before and after it. -/
def EventChange (live live' : Finset TraceProcessId) : Option ActiveTraceEvent → Prop
  | none => live' = live
  | some (.syscallCompleted process ..) => process ∈ live ∧ live' = live
  | some (.processCreated parent child _) =>
    parent ∈ live ∧ child ∉ live ∧ live' = insert child live
  | some (.imageReplaced former survivor superseded ..) =>
    ExecChange live former survivor superseded ∧
      live' = afterExec live former survivor superseded
  | some (.processExited process _) => process ∈ live ∧ live' = live.erase process
  | some (.unexpectedStop ..) => live' = live

/-! ## Changes of the process tree -/

variable {process : TraceProcessId}

theorem live_insert {processes : Processes} {state : TraceeState} :
    (processes.insert process state).keys = insert process processes.keys := by
  ext other
  simp only [Finmap.mem_keys, Finmap.mem_insert, Finset.mem_insert]

theorem live_replace {state : TraceeState} (h : process ∈ t.live) :
    (t.processes.insert process state).keys = t.live := by
  rw [live_insert]
  exact Finset.insert_eq_of_mem h

variable {u : Unit}

theorem resumeBeforeDeadline_eq_ok (h : resumeBeforeDeadline k t = (.ok u, t')) : t' = t := by
  unfold resumeBeforeDeadline at h
  split_ifs at h
  · simp at h
  · simp at h
    exact h.symm
  · simp at h

theorem ensureProcessHandle_eq_ok {group : TraceProcessId}
    (h : ensureProcessHandle k group t = (.ok u, t')) : t'.processes = t.processes := by
  simp only [ensureProcessHandle, Mut.bind_eq_ok, Mut.get_eq_ok] at h
  obtain ⟨_, _, ⟨rfl, rfl⟩, h⟩ := h
  split_ifs at h
  · simp at h
    rw [h]
  · simp at h
    rw [← h]
  · simp at h

theorem registerChild_eq_ok {child : TraceProcessId} {exceeded : Bool}
    (h : registerChild k child t = (.ok exceeded, t')) : t'.live = insert child t.live := by
  simp only [registerChild, Mut.bind_eq_ok, Mut.get_eq_ok] at h
  obtain ⟨_, _, ⟨rfl, rfl⟩, h⟩ := h
  split_ifs at h
  · simp at h
  · simp only [Mut.bind_eq_ok, Mut.lift_eq_ok, Mut.modify_eq_ok, Mut.pure_eq_ok] at h
    obtain ⟨group, _, ⟨_, rfl⟩, _, t₁, hhandle, _, _, rfl, _, rfl⟩ := h
    show (t₁.processes.insert child _).keys = _
    rw [live_insert, ensureProcessHandle_eq_ok hhandle]
    rfl

theorem recordTerminalProcess_eq_ok (h : recordTerminalProcess process t = (.ok u, t')) :
    process ∈ t.live ∧ t'.live = t.live.erase process := by
  simp only [recordTerminalProcess, Mut.bind_eq_ok, Mut.get_eq_ok] at h
  obtain ⟨_, _, ⟨rfl, rfl⟩, h⟩ := h
  split_ifs at h with hprocess
  · rw [Mut.modify_eq_ok] at h
    subst h
    exact ⟨Finmap.mem_keys.mpr hprocess, Finmap.keys_erase _ _⟩
  · simp at h

theorem mem_groupMembers {processes : Processes} {group process : TraceProcessId} :
    process ∈ groupMembers processes group ↔
      ∃ state, processes.lookup process = some state ∧ state.threadGroup = group := by
  rw [groupMembers, Finset.mem_filter, Finmap.mem_keys, Finmap.mem_iff]
  constructor
  · rintro ⟨⟨state, hlookup⟩, hgroup⟩
    rw [hlookup] at hgroup
    exact ⟨state, hlookup, by simpa using hgroup⟩
  · rintro ⟨state, hlookup, hgroup⟩
    exact ⟨⟨state, hlookup⟩, by simp [hlookup, hgroup]⟩

/-- The superseded threads are those of the group but for the one that made
the exec. -/
theorem reconcileExecProcesses_eq_ok {processes processes' : Processes}
    {requested reported former : TraceProcessId} {change : ExecIdentityChange}
    (h : reconcileExecProcesses processes requested reported former =
      .ok (change, processes')) :
    ExecChange processes.keys change.former change.survivor change.superseded ∧
      processes'.keys =
        afterExec processes.keys change.former change.survivor change.superseded := by
  simp only [reconcileExecProcesses, bind_eq_ok, rejectIf_eq_ok, exists_const, okOr_eq_ok,
    not_or, not_not, Result.pure_eq_ok, Prod.mk.injEq] at h
  obtain ⟨-, survivorState, hsurvivor, execState, hformer, ⟨hgroup, -⟩, rfl, rfl⟩ := h
  have hmem : ∀ process, process ∈ (groupMembers (processes.erase former) reported).sort ↔
      process ≠ former ∧ ∃ state, processes.lookup process = some state ∧
        state.threadGroup = reported := by
    intro process
    rw [Finset.mem_sort, mem_groupMembers]
    by_cases heq : process = former
    · subst heq
      simp [Finmap.lookup_erase]
    · simp [Finmap.lookup_erase_ne heq, heq]
  constructor
  · refine ⟨?_, ?_, ?_, ?_, ?_⟩
    · exact Finmap.mem_keys.mpr (Finmap.mem_of_lookup_eq_some hformer)
    · simp [hmem]
    · intro process hprocess
      obtain ⟨-, state, hlookup, -⟩ := (hmem process).mp hprocess
      exact Finmap.mem_keys.mpr (Finmap.mem_of_lookup_eq_some hlookup)
    · exact Finset.sort_nodup _ _
    · by_cases heq : former = reported
      · exact Or.inl ⟨heq, fun hmem' => ((hmem reported).mp hmem').1 heq.symm⟩
      · exact Or.inr ⟨heq, (hmem reported).mpr ⟨Ne.symm heq, survivorState, hsurvivor, hgroup⟩⟩
  · ext process
    simp only [live_insert, afterExec, Finset.mem_insert, Finset.mem_filter, Finset.mem_erase,
      Finmap.mem_keys, Maps.mem_eraseAll, Finmap.mem_erase]
    tauto

variable {requested reported : TraceProcessId}

theorem reconcileExecIdentity_eq_ok {change : ExecIdentityChange}
    (h : reconcileExecIdentity k requested reported t = (.ok change, t')) :
    ExecChange t.live change.former change.survivor change.superseded ∧
      t'.live = afterExec t.live change.former change.survivor change.superseded := by
  simp only [reconcileExecIdentity, Mut.bind_eq_ok, Mut.get_eq_ok, Mut.lift_eq_ok] at h
  obtain ⟨former, _, ⟨_, rfl⟩, _, _, ⟨rfl, rfl⟩, ⟨change', processes⟩, _, ⟨hchange, rfl⟩, h⟩ := h
  simp only [Mut.modify_eq_ok, Mut.pure_eq_ok] at h
  obtain ⟨_, _, rfl, _, t₁, hhandle, _, _, rfl, rfl, rfl⟩ := h
  have hprocesses := ensureProcessHandle_eq_ok hhandle
  have hreconciled := reconcileExecProcesses_eq_ok hchange
  refine ⟨hreconciled.1, ?_⟩
  show t₁.processes.keys = _
  rw [hprocesses]
  exact hreconciled.2

/-! ## The active trace -/

variable {event : Option ActiveTraceEvent}

theorem handleSyscallStop_eq_ok (h : handleSyscallStop k process t = (.ok event, t')) :
    EventChange t.live t'.live event := by
  simp only [handleSyscallStop, Mut.bind_eq_ok, Mut.get_eq_ok, Mut.lift_eq_ok, okOr_eq_ok] at h
  obtain ⟨_, _, ⟨rfl, rfl⟩, state, _, ⟨hlookup, rfl⟩, h⟩ := h
  have hprocess : process ∈ t.live := Finmap.mem_keys.mpr (Finmap.mem_of_lookup_eq_some hlookup)
  split_ifs at h
  · simp at h
  · generalize k.syscallStop = stop at h
    rcases stop with _ | (_ | ⟨result, isError⟩ | _ | _)
    · simp at h
    · simp only [Mut.bind_eq_ok, Mut.lift_eq_ok, replaceState, Mut.modify_eq_ok,
        Mut.pure_eq_ok] at h
      obtain ⟨_, _, ⟨_, rfl⟩, next, _, ⟨_, rfl⟩, _, _, rfl, _, t₂, hresume, rfl, rfl⟩ := h
      rw [resumeBeforeDeadline_eq_ok hresume]
      exact live_replace hprocess
    · simp only [Mut.bind_eq_ok, Mut.lift_eq_ok, replaceState, Mut.modify_eq_ok] at h
      obtain ⟨⟨pending, next⟩, _, ⟨_, rfl⟩, _, _, rfl, h⟩ := h
      rcases pending with _ | (invocation | _)
      · simp only [Mut.bind_eq_ok, Mut.pure_eq_ok] at h
        obtain ⟨_, t₂, hresume, rfl, rfl⟩ := h
        rw [resumeBeforeDeadline_eq_ok hresume]
        exact live_replace hprocess
      · simp only [Mut.bind_eq_ok, Mut.get_eq_ok, Mut.modify_eq_ok, Mut.pure_eq_ok] at h
        obtain ⟨_, _, ⟨rfl, rfl⟩, _, _, rfl, rfl, rfl⟩ := h
        exact ⟨hprocess, live_replace hprocess⟩
      · simp only [Mut.bind_eq_ok, Mut.pure_eq_ok] at h
        obtain ⟨_, t₂, hresume, rfl, rfl⟩ := h
        rw [resumeBeforeDeadline_eq_ok hresume]
        exact live_replace hprocess
    · simp at h
    · simp at h

theorem handleExec_eq_ok (h : handleExec k requested reported t = (.ok event, t')) :
    EventChange t.live t'.live event := by
  simp only [handleExec, Mut.bind_eq_ok, Mut.get_eq_ok, Mut.modify_eq_ok, Mut.pure_eq_ok] at h
  obtain ⟨change, t₁, hchange, _, _, ⟨rfl, rfl⟩, _, _, rfl, rfl, rfl⟩ := h
  have hreconciled := reconcileExecIdentity_eq_ok hchange
  exact hreconciled

theorem handleCreation_eq_ok {kind : TraceProcessCreationKind} (hreported : reported ∈ t.live)
    (h : handleCreation k reported kind t = (.ok event, t')) :
    EventChange t.live t'.live event := by
  simp only [handleCreation, Mut.bind_eq_ok, Mut.get_eq_ok, Mut.modify_eq_ok,
    Mut.lift_eq_ok] at h
  obtain ⟨_, _, rfl, child, _, ⟨_, rfl⟩, _, _, ⟨rfl, rfl⟩, h⟩ := h
  split_ifs at h with hchild
  · simp at h
  · simp only [Mut.bind_eq_ok, Mut.modify_eq_ok, Mut.pure_eq_ok] at h
    obtain ⟨_, _, hregister, _, _, rfl, rfl, rfl⟩ := h
    have hlive := registerChild_eq_ok hregister
    exact ⟨hreported, fun hmem => hchild (Finmap.mem_keys.mp hmem), hlive⟩

theorem handleOtherStop_eq_ok {signal : Int32} {event : UInt32} {observed : Option ActiveTraceEvent}
    (h : handleOtherStop k reported signal event t = (.ok observed, t')) :
    EventChange t.live t'.live observed := by
  simp only [handleOtherStop, Mut.bind_eq_ok, Mut.get_eq_ok] at h
  obtain ⟨_, _, ⟨rfl, rfl⟩, h⟩ := h
  have hunexpected : ∀ {u : ActiveTrace}, (do
      Mut.modify fun t => { t with mustDrain := true }
      pure (some (.unexpectedStop reported signal event)) : TraceM (Option ActiveTraceEvent)) t =
        (.ok observed, u) → EventChange t.live u.live observed := by
    intro u h
    simp only [Mut.bind_eq_ok, Mut.modify_eq_ok, Mut.pure_eq_ok] at h
    obtain ⟨_, _, rfl, rfl, rfl⟩ := h
    rfl
  generalize hfound :
    (if signal = signalStop ∧ event = 0 then t.processes.lookup reported else none) = found at h
  rcases found with _ | ⟨threadGroup, _ | _, allowInitialExit, pending⟩
  · exact hunexpected h
  · exact hunexpected h
  · have hlookup : t.processes.lookup reported =
        some ⟨threadGroup, true, allowInitialExit, pending⟩ := by
      split at hfound
      · exact hfound
      · cases hfound
    simp only [replaceState, Mut.bind_eq_ok, Mut.modify_eq_ok, Mut.pure_eq_ok] at h
    obtain ⟨_, _, rfl, _, t₂, hresume, rfl, rfl⟩ := h
    rw [resumeBeforeDeadline_eq_ok hresume]
    exact live_replace (Finmap.mem_keys.mpr (Finmap.mem_of_lookup_eq_some hlookup))

theorem handleStop_eq_ok {signal : Int32} {event : UInt32} {observed : Option ActiveTraceEvent}
    (hreported : reported ∈ t.live)
    (h : handleStop k requested reported signal event t = (.ok observed, t')) :
    EventChange t.live t'.live observed := by
  unfold handleStop at h
  by_cases hexec : signal = signalTrap ∧ traceEventIsExec event = true
  · rw [if_pos hexec] at h
    exact handleExec_eq_ok h
  · rw [if_neg hexec] at h
    generalize (if signal = signalTrap then traceProcessCreationEvent event else none) = kind at h
    cases kind with
    | some kind => exact handleCreation_eq_ok hreported h
    | none =>
      by_cases hsyscall : signal = signalSyscall ∧ event = 0
      · simp only [if_pos hsyscall] at h
        exact handleSyscallStop_eq_ok h
      · simp only [if_neg hsyscall] at h
        exact handleOtherStop_eq_ok h

/-- An accepted wait result changes the live threads as its event says. -/
theorem handleWaitObservation_eq_ok {observation : TraceWaitObservation}
    (hrequested : requested ∈ t.live)
    (h : handleWaitObservation k requested observation t = (.ok event, t')) :
    EventChange t.live t'.live event := by
  simp only [handleWaitObservation, requireReported, Mut.bind_eq_ok, Mut.lift_eq_ok,
    Result.bind_eq_ok, rejectIf_eq_ok, exists_const, not_not, pure_eq_ok] at h
  obtain ⟨_, _, ⟨⟨reported, -, rfl, rfl⟩, rfl⟩, h⟩ := h
  obtain ⟨processId, status⟩ := observation
  cases status with
  | stopped signal event => exact handleStop_eq_ok hrequested h
  | exited code | signaled signal =>
    simp only [Mut.bind_eq_ok, Mut.pure_eq_ok] at h
    obtain ⟨_, _, hterminal, rfl, rfl⟩ := h
    exact recordTerminalProcess_eq_ok hterminal

theorem requireDrain_ne_ok {error : TraceObservationError} :
    requireDrain error t ≠ (.ok event, t') := by
  simp [requireDrain]

theorem pollEvents_eq_ok {polls : List Poll} (h : pollEvents polls t = (.ok event, t')) :
    EventChange t.live t'.live event := by
  induction polls generalizing t with
  | nil =>
    simp only [pollEvents, Mut.pure_eq_ok] at h
    obtain ⟨rfl, rfl⟩ := h
    rfl
  | cons poll polls ih =>
    cases poll with
    | nothing => exact ih h
    | failed | expired => exact absurd h requireDrain_ne_ok
    | observed requested observation k expiredBefore expiredAfter =>
      unfold pollEvents at h
      by_cases hunknown : requested ∉ t.processes
      · rw [if_pos hunknown] at h
        exact ih h
      rw [if_neg hunknown] at h
      have hrequested : requested ∈ t.live := Finmap.mem_keys.mpr (not_not.mp hunknown)
      cases expiredBefore with
      | true => exact absurd h requireDrain_ne_ok
      | false =>
        rcases hhandled : handleWaitObservation k requested observation t with ⟨handled, t₁⟩
        simp only [hhandled] at h
        cases expiredAfter with
        | true => exact absurd h requireDrain_ne_ok
        | false =>
          rcases handled with error | (_ | handled)
          · exact absurd h requireDrain_ne_ok
          · have hsame : t₁.live = t.live := handleWaitObservation_eq_ok hrequested hhandled
            rw [← hsame]
            exact ih h
          · obtain ⟨hevent, rfl⟩ := Prod.mk.inj h
            obtain rfl := Except.ok.inj hevent
            exact handleWaitObservation_eq_ok hrequested hhandled

/-- One call of `next_event` changes the live threads as its event says. -/
theorem nextEvent_eq_ok {answers : NextAnswers} (h : nextEvent answers t = (.ok event, t')) :
    EventChange t.live t'.live event := by
  simp only [nextEvent, Mut.bind_eq_ok, Mut.get_eq_ok] at h
  obtain ⟨_, _, ⟨rfl, rfl⟩, h⟩ := h
  split_ifs at h
  · simp at h
  · simp at h
  · exact absurd h requireDrain_ne_ok
  · simp only [resumeHeldProcess, Mut.bind_eq_ok, Mut.get_eq_ok] at h
    obtain ⟨_, t₁, ⟨_, _, ⟨rfl, rfl⟩, hresume⟩, h⟩ := h
    have hsame : t₁.live = t.live := by
      cases hheld : t.heldProcess with
      | none =>
        rw [hheld] at hresume
        rw [(Mut.pure_eq_ok.mp hresume).2]
      | some process =>
        rw [hheld] at hresume
        simp only [Mut.bind_eq_ok, Mut.modify_eq_ok] at hresume
        obtain ⟨_, _, rfl, hresume⟩ := hresume
        rw [resumeBeforeDeadline_eq_ok hresume]
        rfl
    rw [← hsame]
    exact pollEvents_eq_ok h

/-! ## The draining trace -/

/-- What an observation of the drain says about the live threads.  A child that
is created again may already be live. -/
def DrainChange (live live' : Finset TraceProcessId) : Option TraceDrainObservation → Prop
  | none => live' = live
  | some (.processCreated _ child _) => live' = insert child live
  | some (.imageReplaced former survivor superseded) =>
    ExecChange live former survivor superseded ∧
      live' = afterExec live former survivor superseded
  | some (.processExited process _) => process ∈ live ∧ live' = live.erase process

theorem signalProcess_eq_ok (h : signalProcess k process t = (.ok u, t')) : t' = t := by
  simp only [signalProcess, Mut.bind_eq_ok, Mut.get_eq_ok, Mut.lift_eq_ok] at h
  obtain ⟨_, _, ⟨rfl, rfl⟩, state, _, ⟨_, rfl⟩, h⟩ := h
  split_ifs at h
  · simp at h
    exact h.symm
  · simp at h
  · simp at h

theorem drainCreation_eq_ok {kind : TraceProcessCreationKind}
    {observation : Option TraceDrainObservation}
    (h : drainCreation k reported kind t = (.ok observation, t')) :
    DrainChange t.live t'.live observation := by
  simp only [drainCreation, Mut.bind_eq_ok, Mut.get_eq_ok, Mut.lift_eq_ok] at h
  obtain ⟨child, _, ⟨_, rfl⟩, _, _, ⟨rfl, rfl⟩, h⟩ := h
  by_cases hchild : child ∉ t.processes
  · rw [if_pos hchild] at h
    simp only [Mut.bind_eq_ok, Mut.pure_eq_ok] at h
    obtain ⟨_, t₁, hregister, _, t₂, hfirst, _, t₃, hsecond, rfl, rfl⟩ := h
    rw [signalProcess_eq_ok hsecond, signalProcess_eq_ok hfirst]
    exact registerChild_eq_ok hregister
  · rw [if_neg hchild] at h
    simp only [Mut.bind_eq_ok, Mut.pure_eq_ok] at h
    obtain ⟨_, t₂, hfirst, _, t₃, hsecond, rfl, rfl⟩ := h
    rw [signalProcess_eq_ok hsecond, signalProcess_eq_ok hfirst]
    exact (Finset.insert_eq_of_mem (Finmap.mem_keys.mpr (not_not.mp hchild))).symm

theorem drainExec_eq_ok {observation : Option TraceDrainObservation}
    (h : drainExec k requested reported t = (.ok observation, t')) :
    DrainChange t.live t'.live observation := by
  simp only [drainExec, Mut.bind_eq_ok, Mut.pure_eq_ok] at h
  obtain ⟨change, t₁, hchange, _, t₂, hsignal, rfl, rfl⟩ := h
  rw [signalProcess_eq_ok hsignal]
  exact reconcileExecIdentity_eq_ok hchange

theorem handleDrainObservation_eq_ok {observation : TraceWaitObservation}
    {observed : Option TraceDrainObservation}
    (h : handleDrainObservation k requested observation t = (.ok observed, t')) :
    DrainChange t.live t'.live observed := by
  simp only [handleDrainObservation, Mut.bind_eq_ok, Mut.lift_eq_ok] at h
  obtain ⟨reported, _, ⟨_, rfl⟩, h⟩ := h
  obtain ⟨processId, status⟩ := observation
  cases status with
  | stopped signal event =>
    by_cases hexec : signal = signalTrap ∧ traceEventIsExec event = true
    · simp only [if_pos hexec] at h
      exact drainExec_eq_ok h
    · simp only [if_neg hexec] at h
      generalize
        (if signal = signalTrap then traceProcessCreationEvent event else none) = kind at h
      cases kind with
      | some kind => exact drainCreation_eq_ok h
      | none =>
        simp only [Mut.bind_eq_ok, Mut.pure_eq_ok] at h
        obtain ⟨_, t₁, hsignal, rfl, rfl⟩ := h
        rw [signalProcess_eq_ok hsignal]
        rfl
  | exited code | signaled signal =>
    simp only [Mut.bind_eq_ok, Mut.pure_eq_ok] at h
    obtain ⟨_, _, hterminal, rfl, rfl⟩ := h
    exact recordTerminalProcess_eq_ok hterminal

/-- The observations of a drain lead from one set of live threads to
another. -/
inductive DrainRun : Finset TraceProcessId → List TraceDrainObservation →
    Finset TraceProcessId → Prop
  | nil {live : Finset TraceProcessId} : DrainRun live [] live
  | cons {live next last : Finset TraceProcessId} {observation : TraceDrainObservation}
      {observations : List TraceDrainObservation} (h : DrainChange live next (some observation))
      (hrest : DrainRun next observations last) :
      DrainRun live (observation :: observations) last

theorem drainLoop_eq_ok {polls : List DrainPoll} {observations : List TraceDrainObservation}
    (h : drainLoop polls t = (.ok observations, t')) : DrainRun t.live observations t'.live := by
  induction polls generalizing t observations with
  | nil =>
    simp only [drainLoop, Mut.pure_eq_ok] at h
    obtain ⟨rfl, rfl⟩ := h
    exact .nil
  | cons poll polls ih =>
    simp only [drainLoop, Mut.bind_eq_ok, Mut.get_eq_ok] at h
    obtain ⟨_, _, ⟨rfl, rfl⟩, h⟩ := h
    by_cases hgone : poll.requested ∉ t.processes
    · rw [if_pos hgone] at h
      exact ih h
    · rw [if_neg hgone] at h
      simp only [Mut.bind_eq_ok, Mut.pure_eq_ok] at h
      obtain ⟨observed, t₁, hobserved, rest, t₂, hrest, rfl, rfl⟩ := h
      have hchange := handleDrainObservation_eq_ok hobserved
      cases observed with
      | none =>
        rw [← show t₁.live = t.live from hchange]
        exact ih hrest
      | some observed => exact .cons hchange (ih hrest)

/-- A drain that returns its observations left no live thread. -/
theorem drain_eq_ok {polls : List DrainPoll} {terminal : Except TraceObservationError Unit}
    {observations : List TraceDrainObservation}
    (h : drain polls terminal t = (.ok observations, t')) :
    DrainRun t.live observations ∅ := by
  simp only [drain, Mut.bind_eq_ok, Mut.get_eq_ok] at h
  obtain ⟨drained, t₁, hloop, _, _, ⟨rfl, rfl⟩, h⟩ := h
  split_ifs at h with hempty hfailed
  · simp at h
  · simp at h
  · simp only [Mut.bind_eq_ok, Mut.lift_eq_ok, Mut.pure_eq_ok] at h
    obtain ⟨_, _, ⟨_, rfl⟩, rfl, rfl⟩ := h
    have hrun := drainLoop_eq_ok hloop
    rwa [show t₁.live = ∅ by rw [ActiveTrace.live, not_not.mp hempty]; rfl] at hrun

end ProofboundRuntime.Linux
