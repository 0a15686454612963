import ProofboundRuntime.Diagnose.Lockstep

/-!
# The drain of an observer

What a drain leaves behind, and when a draining observer publishes: no thread is
live at the end, so an untracked process that is left was lost to an exec.
-/

namespace ProofboundRuntime.Diagnose

open Result
open Linux (TraceProcessId ActiveTrace ActiveTraceEvent TraceDrainObservation
  TraceObservationError DrainChange DrainRun afterExec)

section

variable {s s' : ObserverProtocol × Finset DiagnosticProcessId}
  {live live' : Finset TraceProcessId}

/-- A draining protocol accepts every observation of a drain and stays
draining. -/
theorem call_draining {p : ObserverProtocol} (hinv : p.Inv) (hdraining : p.state = .draining)
    {c : Call} (hc : c.isObservation = true) :
    ∃ r, p.call c = .ok r ∧ r.2.Inv ∧ r.2.state = .draining := by
  obtain ⟨r, hr⟩ := ObserverProtocol.call_observation (Or.inr hdraining) hc
  have hstep := ObserverProtocol.step_of_call hr
  rcases hstep.directive (Or.inr hdraining) hc with ⟨-, hstate, -⟩ | ⟨-, hstate⟩
  · simp [hdraining] at hstate
  · exact ⟨r, hr, hstep.inv hinv, hstate⟩

/-- The observation creates the process. -/
def Creates : TraceDrainObservation → DiagnosticProcessId → Prop
  | .processCreated _ child _, process => processOf child = process
  | _, _ => False

/-- The observation is an exec that takes the process from the live threads. -/
def Drops : TraceDrainObservation → DiagnosticProcessId → Prop
  | .imageReplaced former survivor superseded, process =>
    (processOf former = process ∨ process ∈ superseded.map processOf) ∧
      process ≠ processOf survivor
  | _, _ => False

/-- What one observation does to the untracked processes. -/
def Untracks (untracked untracked' : Finset DiagnosticProcessId) :
    TraceDrainObservation → Prop
  | .processCreated _ child _ =>
    untracked' = untracked ∨ untracked' = insert (processOf child) untracked
  | .imageReplaced .. => untracked' = untracked
  | .processExited process _ => untracked' = untracked.erase (processOf process)

theorem forwardDrained_eq_ok (hinv : s.1.Inv) (hdraining : s.1.state = .draining)
    (observation : TraceDrainObservation) :
    ∃ s', forwardDrained s observation = .ok s' ∧ s'.1.Inv ∧ s'.1.state = .draining ∧
      Untracks s.2 s'.2 observation := by
  cases observation with
  | processCreated parent child kind =>
    obtain ⟨r, hr, hinv', hstate⟩ := call_draining hinv hdraining
      (c := .discoverChild (processOf parent) (processOf child) (processCreationKind kind)) rfl
    refine ⟨(r.2, if processOf child ∈ r.2.processes then s.2 else insert (processOf child) s.2),
      ?_, hinv', hstate, ?_⟩
    · simp only [forwardDrained, diagnosticProcess_eq, ok_bind]
      rw [show s.1.discoverChild _ _ _ = _ from hr, ok_bind]
      rfl
    · exact ite_eq_or_eq _ _ _
  | imageReplaced former survivor superseded =>
    obtain ⟨r, hr, hinv', hstate⟩ := call_draining hinv hdraining
      (c := .recordExec (processOf former) (processOf survivor) (superseded.map processOf)) rfl
    refine ⟨(r.2, s.2), ?_, hinv', hstate, rfl⟩
    simp only [forwardDrained, diagnosticProcess_eq, collect_diagnosticProcess, ok_bind]
    rw [show s.1.recordExec _ _ _ = _ from hr, ok_bind]
    rfl
  | processExited process termination =>
    simp only [forwardDrained, diagnosticProcess_eq, ok_bind]
    by_cases huntracked : processOf process ∈ s.2
    · rw [if_pos huntracked]
      exact ⟨_, rfl, hinv, hdraining, rfl⟩
    · rw [if_neg huntracked]
      obtain ⟨r, hr, hinv', hstate⟩ := call_draining hinv hdraining
        (c := .recordProcessExit (processOf process)) rfl
      rw [show s.1.recordProcessExit _ = _ from hr, ok_bind]
      exact ⟨_, rfl, hinv', hstate, (Finset.erase_eq_of_notMem huntracked).symm⟩

theorem mem_image_afterExec {former survivor : TraceProcessId}
    {superseded : List TraceProcessId} {process : DiagnosticProcessId} :
    process ∈ (afterExec live former survivor superseded).image processOf ↔
      process = processOf survivor ∨ (process ≠ processOf former ∧
        process ∈ live.image processOf ∧ process ∉ superseded.map processOf) := by
  rw [← image_afterExec, Finset.mem_insert, Finset.mem_filter, Finset.mem_erase, and_assoc]

variable {observation : TraceDrainObservation}

/-- An untracked process that is not live was dropped by an exec, or was
already missing and is not created. -/
theorem missing_iff {untracked untracked' : Finset DiagnosticProcessId}
    (hlive : DrainChange live live' (some observation))
    (huntracked : Untracks untracked untracked' observation) (process : DiagnosticProcessId) :
    process ∈ untracked' ∧ process ∉ live'.image processOf ↔
      (process ∈ untracked ∧ Drops observation process) ∨
        (process ∈ untracked ∧ process ∉ live.image processOf ∧ ¬Creates observation process) := by
  cases observation with
  | processCreated parent child kind =>
    rw [show live' = _ from hlive, Finset.image_insert, Finset.mem_insert]
    have hne : process ∈ untracked' ∧ process ≠ processOf child ↔
        process ∈ untracked ∧ process ≠ processOf child := by
      rcases huntracked with h | h <;> rw [h]
      simp only [Finset.mem_insert]
      tauto
    simp only [Drops, Creates, and_false, false_or, not_or, eq_comm (a := processOf child)]
    tauto
  | imageReplaced former survivor superseded =>
    obtain ⟨hexec, hafter⟩ := hlive
    rw [show untracked' = _ from huntracked, hafter, mem_image_afterExec]
    have hsurvivor : processOf survivor ∈ live.image processOf := by
      apply Finset.mem_image_of_mem
      rcases hexec.survivor with ⟨rfl, -⟩ | ⟨-, hmem⟩
      · exact hexec.former_mem
      · exact hexec.superseded_mem _ hmem
    simp only [Drops, Creates, not_false_eq_true, and_true, eq_comm (a := processOf former)]
    by_cases heq : process = processOf survivor
    · subst heq
      simp [hsurvivor]
    · tauto
  | processExited exited termination =>
    obtain ⟨hmem, hafter⟩ := hlive
    rw [show untracked' = _ from huntracked, hafter, Finset.image_erase processOf_injective,
      Finset.mem_erase, Finset.mem_erase]
    have hexited : processOf exited ∈ live.image processOf := Finset.mem_image_of_mem _ hmem
    simp only [Drops, Creates, and_false, false_or, not_false_eq_true, and_true]
    by_cases heq : process = processOf exited
    · subst heq
      simp [hexited]
    · tauto

/-- An exec of the drain took an untracked process from the live threads, and
no later observation creates it. -/
def LostToExec (s : ObserverProtocol × Finset DiagnosticProcessId)
    (observations : List TraceDrainObservation) (process : DiagnosticProcessId) : Prop :=
  ∃ before observation after s', observations = before ++ observation :: after ∧
    forwardAll s before = .ok s' ∧ process ∈ s'.2 ∧ Drops observation process ∧
    ∀ later ∈ after, ¬Creates later process

variable {observations : List TraceDrainObservation}

/-- Some observation has a property of the state it was forwarded to and of the
observations after it: the first one does, or one of the rest. -/
theorem exists_forwarded_cons
    {P : ObserverProtocol × Finset DiagnosticProcessId →
      TraceDrainObservation → List TraceDrainObservation → Prop}
    (h : forwardDrained s observation = .ok s') :
    (∃ before later after t, observation :: observations = before ++ later :: after ∧
        forwardAll s before = .ok t ∧ P t later after) ↔
      P s observation observations ∨
        ∃ before later after t, observations = before ++ later :: after ∧
          forwardAll s' before = .ok t ∧ P t later after := by
  constructor
  · rintro ⟨before, later, after, t, heq, hbefore, hP⟩
    cases before with
    | nil =>
      obtain ⟨rfl, rfl⟩ := List.cons.inj heq
      obtain rfl := Except.ok.inj hbefore
      exact Or.inl hP
    | cons first before =>
      obtain ⟨rfl, rfl⟩ := List.cons.inj heq
      rw [forwardAll, h, ok_bind] at hbefore
      exact Or.inr ⟨before, later, after, t, rfl, hbefore, hP⟩
  · rintro (hP | ⟨before, later, after, t, rfl, hbefore, hP⟩)
    · exact ⟨[], observation, observations, s, rfl, rfl, hP⟩
    · refine ⟨observation :: before, later, after, t, rfl, ?_, hP⟩
      rw [forwardAll, h, ok_bind, hbefore]

theorem lostToExec_cons {process : DiagnosticProcessId}
    (h : forwardDrained s observation = .ok s') :
    LostToExec s (observation :: observations) process ↔
      (process ∈ s.2 ∧ Drops observation process ∧
        ∀ later ∈ observations, ¬Creates later process) ∨
      LostToExec s' observations process :=
  exists_forwarded_cons (P := fun s observation after => process ∈ s.2 ∧
    Drops observation process ∧ ∀ later ∈ after, ¬Creates later process) h

/-- The untracked processes that a drain leaves behind are those it lost to an
exec, and those that were missing from the start. -/
theorem forwardAll_eq_ok (hrun : DrainRun live observations live') (hinv : s.1.Inv)
    (hdraining : s.1.state = .draining) :
    ∃ s', forwardAll s observations = .ok s' ∧ s'.1.Inv ∧ s'.1.state = .draining ∧
      ∀ process, process ∈ s'.2 ∧ process ∉ live'.image processOf ↔
        LostToExec s observations process ∨
          (process ∈ s.2 ∧ process ∉ live.image processOf ∧
            ∀ observation ∈ observations, ¬Creates observation process) := by
  induction hrun generalizing s with
  | nil =>
    refine ⟨s, rfl, hinv, hdraining, ?_⟩
    intro process
    simp [LostToExec]
  | cons hchange hrest ih =>
    rename_i live next last observation observations
    obtain ⟨s₁, hs₁, hinv₁, hdraining₁, huntracks⟩ :=
      forwardDrained_eq_ok hinv hdraining observation
    obtain ⟨s₂, hs₂, hinv₂, hdraining₂, hprocess⟩ := ih hinv₁ hdraining₁
    refine ⟨s₂, by rw [forwardAll, hs₁, ok_bind, hs₂], hinv₂, hdraining₂, ?_⟩
    intro process
    rw [hprocess, lostToExec_cons hs₁]
    have hmissing := missing_iff hchange huntracks process
    simp only [List.forall_mem_cons]
    tauto

end

/-- The protocol accepts the confirmation of the drain and then publishes an
incomplete result. -/
def AllowsIncomplete (p : ObserverProtocol) : Prop :=
  ∃ confirmed finished, p.confirmTreeDrained = .ok confirmed ∧
    confirmed.2.finish = .ok (.publishIncomplete, finished)

/-- No process is untracked at the end of a drain exactly when none was lost. -/
theorem untracked_eq_empty_iff {d : DrainingObserver} (h : Drains d)
    {observations : List TraceDrainObservation}
    (hrun : DrainRun d.trace.live observations ∅) :
    ∃ s, forwardAll (d.protocol, d.untrackedProcesses) observations = .ok s ∧
      (s.2 = ∅ ↔
        ∀ process, ¬LostToExec (d.protocol, d.untrackedProcesses) observations process) := by
  obtain ⟨s, hs, -, -, hprocess⟩ :=
    forwardAll_eq_ok (s := (d.protocol, d.untrackedProcesses)) hrun h.inv h.draining
  refine ⟨s, hs, ?_⟩
  have hlost : ∀ process, process ∈ s.2 ↔
      LostToExec (d.protocol, d.untrackedProcesses) observations process := by
    intro process
    have hmissing := hprocess process
    simp only [Finset.image_empty, Finset.notMem_empty, not_false_eq_true, and_true] at hmissing
    rw [hmissing, or_iff_left]
    intro ⟨huntracked, hlive, _⟩
    exact hlive (h.untracked huntracked)
  rw [Finset.eq_empty_iff_forall_notMem]
  exact forall_congr' fun process => not_congr (hlost process)

theorem publish_iff {d : DrainingObserver} (h : Drains d)
    {observations : List TraceDrainObservation}
    (hrun : DrainRun d.trace.live observations ∅) :
    ∃ s, forwardAll (d.protocol, d.untrackedProcesses) observations = .ok s ∧
      ((∃ c, d.publish observations = .ok c ∧ c.publication = .publishIncomplete) ↔
        d.publication = .eligible ∧ AllowsIncomplete s.1 ∧
          ∀ process, ¬LostToExec (d.protocol, d.untrackedProcesses) observations process) := by
  obtain ⟨s, hs, huntracked⟩ := untracked_eq_empty_iff h hrun
  refine ⟨s, hs, ?_⟩
  rw [← huntracked]
  simp only [DrainingObserver.publish, hs, mapError_eq_ok, bind_eq_ok, rejectIf_eq_ok,
    exists_const, Except.ok.injEq, exists_eq_left', AllowsIncomplete]
  cases d.publication with
  | forbidden error => simp
  | eligible =>
    simp only [bind_eq_ok, mapError_eq_ok, pure_eq_ok]
    constructor
    · rintro ⟨c, ⟨hempty, confirmed, hconfirmed, finished, hfinished, rfl⟩, hc⟩
      exact ⟨trivial, ⟨confirmed, finished.2, hconfirmed, by rw [hfinished, ← hc]⟩,
        not_not.mp hempty⟩
    · rintro ⟨-, ⟨confirmed, finished, hconfirmed, hfinished⟩, hempty⟩
      exact ⟨⟨finished, .publishIncomplete⟩,
        ⟨not_not.mpr hempty, confirmed, hconfirmed, _, hfinished, rfl⟩, rfl⟩

/-- Started from a released root, the trace and the protocol stay in step
through any sequence of answers.  Once a drain has returned its report, the
observer publishes an incomplete result exactly when this is not forbidden, the
protocol allows it, and no untracked process was lost to an exec. -/
theorem in_step_of_start {root : TraceProcessId} {bounds : ObservationBounds} {options : UInt32}
    {o : ActiveObserver} (h : ActiveObserver.start root bounds options = .ok o)
    (answers : List ObserverAnswers) :
    Good (o.run answers) ∧
      ∀ d observation, o.run answers = .ok (.drain d observation) →
        ∀ polls terminal observations t,
          Linux.drain polls terminal d.trace = (.ok observations, t) →
          ∃ s, forwardAll (d.protocol, d.untrackedProcesses) observations = .ok s ∧
            ((∃ c, d.finish polls terminal = .ok c ∧ c.publication = .publishIncomplete) ↔
              d.publication = .eligible ∧ AllowsIncomplete s.1 ∧
                ∀ process,
                  ¬LostToExec (d.protocol, d.untrackedProcesses) observations process) := by
  have hgood := good_run (inStep_start h) answers
  refine ⟨hgood, ?_⟩
  intro d observation hdrain polls terminal observations t hreport
  rw [hdrain] at hgood
  have hfinish : d.finish polls terminal = d.publish observations := by
    simp only [DrainingObserver.finish, hreport]
    rfl
  rw [hfinish]
  exact publish_iff hgood (Linux.drain_eq_ok hreport)

def sampleProcess : TraceProcessId := ⟨10, ObserverProtocol.sampleRoot.ne_zero, by decide⟩

def sampleThread : TraceProcessId := ⟨11, ObserverProtocol.sampleChild.ne_zero, by decide⟩

/-- A system that answers every call, with a thread 11 of the group 10. -/
def sampleKernel (eventProcess : UInt32) : Linux.Kernel where
  eventProcess := some eventProcess
  threadGroup := some sampleProcess
  openHandle := true
  expired := false
  resumed := true
  syscallStop := none
  invocation := .ok none
  selectedObject := none
  before := .error .unresolved
  after := .error .unresolved
  killed := fun _ => true

/-- The root clones a thread. -/
def sampleAnswers : ObserverAnswers where
  next := {
    expired := false
    resume := sampleKernel 0
    polls := [.observed sampleProcess ⟨10, .stopped 5 3⟩ (sampleKernel 11) false false] }
  terminated := .ok ()
  terminal := .ok ()

/-- One process may be seen. -/
def oneProcess : ObservationBounds := ⟨8, 4, 1048576, 4096, 1, 128, 40, 4096⟩

/-- The observer once the root is released. -/
def sampleObserver : ActiveObserver where
  trace := .released sampleProcess 1
  protocol := {
    bounds := oneProcess
    root := ObserverProtocol.sampleRoot
    state := .released
    processes := Finmap.singleton ObserverProtocol.sampleRoot ⟨0⟩
    seenProcesses := {ObserverProtocol.sampleRoot}
    totalEvents := 0
    gaps := ∅
    treeDrainConfirmed := false }

/-- The observer once the thread exceeds the process limit. -/
def sampleDraining : DrainingObserver where
  trace := {
    Linux.ActiveTrace.released sampleProcess 1 with
    processes := (Linux.ActiveTrace.released sampleProcess 1).processes.insert
      sampleThread (.awaitingStop sampleProcess)
    mustDrain := true }
  protocol := {
    sampleObserver.protocol with
    state := .draining
    gaps := {.processLimit} }
  untrackedProcesses := {ObserverProtocol.sampleChild}
  publication := .eligible

def sampleObservation : ObserverObservation :=
  .event (.processCreated sampleProcess sampleThread .clone)

theorem start_sample :
    ActiveObserver.start sampleProcess oneProcess requiredTraceOptions = .ok sampleObserver := by
  decide +kernel

theorem run_sample :
    sampleObserver.run [sampleAnswers] = .ok (.drain sampleDraining sampleObservation) := by
  decide +kernel

/-- The root replaces its image, which ends the thread, and exits. -/
def execPolls : List Linux.DrainPoll :=
  [⟨sampleProcess, ⟨10, .stopped 5 4⟩, sampleKernel 10⟩,
    ⟨sampleProcess, ⟨10, .exited 0⟩, sampleKernel 0⟩]

/-- The thread and the root exit. -/
def exitPolls : List Linux.DrainPoll :=
  [⟨sampleThread, ⟨11, .exited 0⟩, sampleKernel 0⟩,
    ⟨sampleProcess, ⟨10, .exited 0⟩, sampleKernel 0⟩]

theorem in_step_of_start_sample :
    ActiveObserver.start sampleProcess oneProcess requiredTraceOptions = .ok sampleObserver ∧
      sampleObserver.run [sampleAnswers] = .ok (.drain sampleDraining sampleObservation) ∧
      ∃ observations, (Linux.drain exitPolls (.ok ()) sampleDraining.trace).1 = .ok observations ∧
        ∃ s, forwardAll (sampleDraining.protocol, sampleDraining.untrackedProcesses)
            observations = .ok s ∧ AllowsIncomplete s.1 := by
  have hdrain : (Linux.drain exitPolls (.ok ()) sampleDraining.trace).1 = .ok
      [.processExited sampleThread (.exit 0), .processExited sampleProcess (.exit 0)] := by
    decide +kernel
  obtain ⟨s, hs, hpublish⟩ := (in_step_of_start start_sample [sampleAnswers]).2 _ _ run_sample
    exitPolls (.ok ()) _ _ (Prod.ext hdrain rfl)
  have hfinish : ∃ c, sampleDraining.finish exitPolls (.ok ()) = .ok c ∧
      c.publication = .publishIncomplete :=
    ⟨⟨{ sampleDraining.protocol with
        state := .incomplete
        processes := ∅
        treeDrainConfirmed := true }, .publishIncomplete⟩, by decide +kernel, rfl⟩
  exact ⟨start_sample, run_sample, _, hdrain, s, hs, (hpublish.mp hfinish).2.1⟩

/-- The protocol after the exec of an untracked thread and the exit of the
root. -/
def sampleDrained : ObserverProtocol where
  __ := sampleDraining.protocol
  processes := ∅
  gaps := {.observerFailed, .processLimit}

/-- The exec of the drain ends the untracked thread.  No thread is live and the
protocol would publish an incomplete result, but the observer fails. -/
theorem finish_of_lost_thread :
    ∃ observations s,
      ActiveObserver.start sampleProcess oneProcess requiredTraceOptions = .ok sampleObserver ∧
      sampleObserver.run [sampleAnswers] = .ok (.drain sampleDraining sampleObservation) ∧
      (Linux.drain execPolls (.ok ()) sampleDraining.trace).1 = .ok observations ∧
      (Linux.drain execPolls (.ok ()) sampleDraining.trace).2.live = ∅ ∧
      sampleDraining.publication = .eligible ∧
      forwardAll (sampleDraining.protocol, sampleDraining.untrackedProcesses)
        observations = .ok s ∧
      AllowsIncomplete s.1 ∧
      sampleDraining.finish execPolls (.ok ()) = .error (.protocol .processTreeChanged) := by
  refine ⟨[.imageReplaced sampleProcess sampleProcess [sampleThread],
      .processExited sampleProcess (.exit 0)],
    (sampleDrained, sampleDraining.untrackedProcesses), start_sample, run_sample, ?_, ?_, rfl, ?_,
    ⟨(.continue, { sampleDrained with treeDrainConfirmed := true }),
      { sampleDrained with
        state := .incomplete
        treeDrainConfirmed := true }, ?_, ?_⟩, ?_⟩ <;>
  decide +kernel

end ProofboundRuntime.Diagnose
