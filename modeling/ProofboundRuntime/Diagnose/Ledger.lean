import ProofboundRuntime.Diagnose.Drain

/-!
# What an observation is charged for

The ledger says what a sequence of trace events costs, in terms of the events
alone: the processes that were seen, how many events were charged in total and
to each process, and whether a process was refused.  The observer protocol
keeps these books, and its limit gaps say which bound they exceed.

* `Books` ties a ledger to a protocol that still observes.
* `Settled` reads the limit gaps of any protocol off its ledger.
* `Books.forwardEvent` is the step for one event.
-/

namespace ProofboundRuntime.Diagnose

open Result
open Linux (TraceProcessId ActiveTraceEvent TraceDrainObservation EventChange ExecChange)

structure Ledger where
  seen : Finset TraceProcessId
  total : Nat
  charges : TraceProcessId → Nat
  refused : Bool

namespace Ledger

def start (root : TraceProcessId) : Ledger := ⟨{root}, 0, fun _ => 0, false⟩

/-- One event of a process. -/
def charge (l : Ledger) (process : TraceProcessId) : Ledger where
  __ := l
  total := l.total + 1
  charges := Function.update l.charges process (l.charges process + 1)

/-- A new process starts without charges. -/
def enroll (l : Ledger) (child : TraceProcessId) : Ledger where
  __ := l
  seen := insert child l.seen
  charges := Function.update l.charges child 0

/-- The survivor of an exec takes over the charges of the thread that made
it. -/
def rename (l : Ledger) (former survivor : TraceProcessId) : Ledger where
  __ := l
  charges := Function.update l.charges survivor (l.charges former)

/-- The cost of one event.  A process identity that was seen before is not
admitted again, and a full table refuses a new one. -/
def record (processCount : Nat) (l : Ledger) : ActiveTraceEvent → Ledger
  | .syscallCompleted process .. => l.charge process
  | .processCreated parent child _ =>
    if child ∈ l.seen then l
    else if processCount ≤ l.seen.card then { l with refused := true }
    else (l.enroll child).charge parent
  | .imageReplaced former survivor .. => (l.rename former survivor).charge survivor
  | .processExited .. | .unexpectedStop .. => l

theorem charge_charges (l : Ledger) (process : TraceProcessId) :
    (l.charge process).charges =
      Function.update l.charges process (l.charges process + 1) := rfl

theorem enroll_charges (l : Ledger) (child : TraceProcessId) :
    (l.enroll child).charges = Function.update l.charges child 0 := rfl

theorem rename_charges (l : Ledger) (former survivor : TraceProcessId) :
    (l.rename former survivor).charges =
      Function.update l.charges survivor (l.charges former) := rfl

end Ledger

def ledger (root : TraceProcessId) (processCount : Nat) (events : List ActiveTraceEvent) :
    Ledger :=
  events.foldl (Ledger.record processCount) (.start root)

/-- The protocol keeps the books, and nothing exceeds a bound. -/
structure Books (l : Ledger) (p : ObserverProtocol) : Prop where
  seen : p.seenProcesses = l.seen.image processOf
  total : p.totalEvents = l.total
  charges : ∀ process observation,
    p.processes.lookup (processOf process) = some observation →
      observation.events = l.charges process
  charges_le : ∀ process, l.charges process ≤ p.bounds.eventCountPerProcess
  refused : l.refused = false

/-- The limit gaps are the bounds that the books exceed. -/
structure Settled (l : Ledger) (p : ObserverProtocol) : Prop where
  seen : p.seenProcesses = l.seen.image processOf
  eventLimit : .eventLimit ∈ p.gaps ↔ p.bounds.eventCount < l.total
  eventPerProcessLimit : .eventPerProcessLimit ∈ p.gaps ↔
    ∃ process, p.bounds.eventCountPerProcess < l.charges process
  processLimit : .processLimit ∈ p.gaps ↔ l.refused = true

/-- What holds after a call. -/
def Entered (l : Ledger) (r : ObserverDirective × ObserverProtocol) : Prop :=
  Settled l r.2 ∧ (r.1 = .continue → Books l r.2)

section

variable {l : Ledger} {p : ObserverProtocol} {r : ObserverDirective × ObserverProtocol}

theorem mem_limitGaps {perProcess total : Bool} {gap : DiagnosticGap} :
    gap ∈ ObserverProtocol.limitGaps perProcess total ↔
      (perProcess = true ∧ gap = .eventPerProcessLimit) ∨ (total = true ∧ gap = .eventLimit) := by
  cases perProcess <;> cases total <;> simp [ObserverProtocol.limitGaps]

/-- Books within the bounds have no limit gap. -/
theorem Books.settled (h : Books l p) (htotal : p.totalEvents ≤ p.bounds.eventCount)
    {q : ObserverProtocol} (hseen : q.seenProcesses = p.seenProcesses)
    (hbounds : q.bounds = p.bounds)
    (hgaps : ∀ gap ∈ q.gaps, gap ≠ .eventLimit ∧ gap ≠ .eventPerProcessLimit ∧
      gap ≠ .processLimit) : Settled l q where
  seen := hseen.trans h.seen
  eventLimit := by
    rw [hbounds]
    refine iff_of_false (fun hmem => (hgaps _ hmem).1 rfl) ?_
    rw [← h.total]
    omega
  eventPerProcessLimit := by
    rw [hbounds]
    refine iff_of_false (fun hmem => (hgaps _ hmem).2.1 rfl) ?_
    rintro ⟨process, hprocess⟩
    exact absurd (h.charges_le process) (not_le.mpr hprocess)
  processLimit := by
    refine iff_of_false (fun hmem => (hgaps _ hmem).2.2 rfl) ?_
    simp [h.refused]

/-- The counts of the table, once a process is entered with its own. -/
theorem charges_insert {processes : Finmap fun _ : DiagnosticProcessId => ProcessObservation}
    {charges : TraceProcessId → Nat} {key : TraceProcessId} {entered : ProcessObservation}
    (h : ∀ process observation, processes.lookup (processOf process) = some observation →
      observation.events = charges process)
    (process : TraceProcessId) (observation : ProcessObservation)
    (hlookup : (processes.insert (processOf key) entered).lookup (processOf process) =
      some observation) :
    observation.events = Function.update charges key entered.events process := by
  by_cases heq : process = key
  · subst heq
    rw [Finmap.lookup_insert] at hlookup
    rw [Function.update_self, Option.some.inj hlookup]
  · rw [Finmap.lookup_insert_of_ne _ (processOf_injective.ne heq)] at hlookup
    rw [Function.update_of_ne heq]
    exact h process observation hlookup

theorem Books.update_le (h : Books l p) {count : Nat}
    (hcount : count ≤ p.bounds.eventCountPerProcess) (key process : TraceProcessId) :
    Function.update l.charges key count process ≤ p.bounds.eventCountPerProcess := by
  have hupdate : Function.update l.charges key count ≤ fun _ => p.bounds.eventCountPerProcess :=
    update_le_iff.mpr ⟨hcount, fun other _ => h.charges_le other⟩
  exact hupdate process

/-- A charged event stays within the bounds, or the gaps say which one it
exceeds. -/
theorem Books.recordEvent (h : Books l p) (hinv : p.Inv) (hreleased : p.state = .released)
    {process : TraceProcessId} (htracked : processOf process ∈ p.processes)
    (hr : p.recordEvent (processOf process) = .ok r) : Entered (l.charge process) r := by
  obtain ⟨observation, hlookup⟩ := Finmap.mem_iff.mp htracked
  have hevents : observation.events = l.charges process := h.charges _ _ hlookup
  have hgaps : p.gaps = ∅ := hinv.gaps.mpr (by simp [hreleased])
  have hobserving : p.requireObserving = .ok () :=
    ObserverProtocol.requireObserving_eq_ok.mpr (Or.inl hreleased)
  have hstate : p.state ≠ .draining := by simp [hreleased]
  have hcharged : (∃ other, p.bounds.eventCountPerProcess < (l.charge process).charges other) ↔
      p.bounds.eventCountPerProcess ≤ observation.events := by
    rw [hevents]
    rw [Ledger.charge_charges]
    constructor
    · rintro ⟨other, hother⟩
      by_contra hlt
      exact absurd (h.update_le (Nat.not_le.mp hlt) process other) (not_le.mpr hother)
    · intro hle
      exact ⟨process, by rw [Function.update_self]; omega⟩
  have htotal : p.bounds.eventCount < (l.charge process).total ↔
      p.bounds.eventCount ≤ p.totalEvents := by
    rw [h.total]
    exact Nat.lt_succ_iff
  rw [ObserverProtocol.recordEvent, hobserving, ok_bind, if_neg (not_not.mpr htracked),
    if_neg hstate, ObserverProtocol.eventsOf_eq hlookup] at hr
  by_cases hexhausted : (decide (p.bounds.eventCountPerProcess ≤ observation.events) ||
      decide (p.bounds.eventCount ≤ p.totalEvents)) = true
  · rw [if_pos hexhausted] at hr
    obtain rfl := pure_eq_ok.mp hr
    refine ⟨⟨h.seen, ?_, ?_, ?_⟩, by rintro ⟨⟩⟩
    · simp [htotal, hgaps, mem_limitGaps]
    · simp [hcharged, hgaps, mem_limitGaps]
    · simp [hgaps, mem_limitGaps, Ledger.charge, h.refused]
  · rw [if_neg hexhausted, hlookup] at hr
    obtain rfl := pure_eq_ok.mp hr
    simp only [Bool.or_eq_true, decide_eq_true_eq, not_or, not_le] at hexhausted
    have hbooks : Books (l.charge process) { p with
        processes := p.processes.insert (processOf process) ⟨observation.events + 1⟩
        totalEvents := p.totalEvents + 1 } := by
      refine ⟨h.seen, by rw [h.total]; rfl, ?_, ?_, h.refused⟩
      · rw [Ledger.charge_charges, ← hevents]
        exact charges_insert h.charges
      · rw [Ledger.charge_charges, ← hevents]
        exact h.update_le hexhausted.1 process
    exact ⟨hbooks.settled hexhausted.2 rfl rfl (by simp [hgaps]), fun _ => hbooks⟩

/-- A released protocol continues after an observation that records no gap. -/
theorem observed_of_released {q : ObserverProtocol} (h : q.state = .released) :
    q.observed = (.continue, q) := by
  rw [ObserverProtocol.observed, if_neg (by simp [h])]

/-- A new process is admitted, or the gap says why not. -/
theorem Books.discoverChild (h : Books l p) (hinv : p.Inv) (hreleased : p.state = .released)
    {parent child : TraceProcessId} {kind : ProcessCreationKind}
    (htracked : processOf parent ∈ p.processes)
    (hr : p.discoverChild (processOf parent) (processOf child) kind = .ok r) :
    if child ∈ l.seen then r.1 ≠ .continue ∧ Settled l r.2
    else if p.bounds.processCount ≤ l.seen.card then
      r.1 ≠ .continue ∧ Settled { l with refused := true } r.2
    else r.1 = .continue ∧ Books (l.enroll child) r.2 := by
  have hgaps : p.gaps = ∅ := hinv.gaps.mpr (by simp [hreleased])
  have hobserving : p.requireObserving = .ok () :=
    ObserverProtocol.requireObserving_eq_ok.mpr (Or.inl hreleased)
  have hmem : processOf child ∈ p.seenProcesses ↔ child ∈ l.seen := by
    rw [h.seen]
    exact processOf_injective.mem_finset_image
  have hcard : p.seenProcesses.card = l.seen.card := by
    rw [h.seen, Finset.card_image_of_injective _ processOf_injective]
  rw [ObserverProtocol.discoverChild, hobserving, ok_bind, if_neg (not_not.mpr htracked)]
    at hr
  by_cases hseen : child ∈ l.seen
  · rw [if_pos (hmem.mpr hseen)] at hr
    rw [if_pos hseen]
    obtain rfl := pure_eq_ok.mp hr
    refine ⟨by simp [ObserverProtocol.stopWithGap], ?_⟩
    exact h.settled hinv.total_le rfl rfl (by simp [ObserverProtocol.stopWithGap, hgaps])
  · rw [if_neg (hmem.not.mpr hseen), hcard] at hr
    rw [if_neg hseen]
    by_cases hfull : p.bounds.processCount ≤ l.seen.card
    · rw [if_pos hfull] at hr ⊢
      obtain rfl := pure_eq_ok.mp hr
      refine ⟨by simp [ObserverProtocol.stopWithGap], ?_⟩
      have hsettled : Settled l p := h.settled hinv.total_le rfl rfl (by simp [hgaps])
      refine ⟨h.seen, ?_, ?_, ?_⟩
      · exact Iff.trans (by simp [ObserverProtocol.stopWithGap]) hsettled.eventLimit
      · exact Iff.trans (by simp [ObserverProtocol.stopWithGap]) hsettled.eventPerProcessLimit
      · simp [ObserverProtocol.stopWithGap]
    · rw [if_neg hfull] at hr ⊢
      rw [observed_of_released (by exact hreleased)] at hr
      obtain rfl := pure_eq_ok.mp hr
      refine ⟨rfl, ?_, h.total, ?_, ?_, h.refused⟩
      · show insert _ p.seenProcesses = (insert child l.seen).image processOf
        rw [h.seen, Finset.image_insert]
      · rw [Ledger.enroll_charges]
        exact charges_insert h.charges
      · rw [Ledger.enroll_charges]
        exact h.update_le (Nat.zero_le _) child

/-- The survivor of an exec keeps the count of the thread that made it. -/
theorem Books.recordExec (h : Books l p) (hinv : p.Inv) (hreleased : p.state = .released)
    {former survivor : TraceProcessId} {superseded : List TraceProcessId}
    (hclosed : p.IdentitiesAreClosed (processOf former) (processOf survivor)
      (superseded.map processOf))
    (hr : p.recordExec (processOf former) (processOf survivor) (superseded.map processOf) =
      .ok r) : r.1 = .continue ∧ Books (l.rename former survivor) r.2 := by
  have hobserving : p.requireObserving = .ok () :=
    ObserverProtocol.requireObserving_eq_ok.mpr (Or.inl hreleased)
  obtain ⟨observation, hlookup⟩ := Finmap.mem_iff.mp hclosed.1
  have hseen : processOf survivor ∈ p.seenProcesses := by
    rcases hclosed.2.2.2.2 with ⟨heq, -⟩ | ⟨-, hmem⟩
    · rw [← heq]
      exact hinv.tracked_seen _ hclosed.1
    · exact hinv.tracked_seen _ (hclosed.2.2.1 _ hmem)
  rw [ObserverProtocol.recordExec, hobserving, ok_bind, if_neg (not_not.mpr hclosed), hlookup,
    okOr_some, ok_bind] at hr
  obtain rfl := pure_eq_ok.mp hr
  rw [observed_of_released (by exact hreleased)]
  refine ⟨rfl, ?_, h.total, ?_, ?_, h.refused⟩
  · exact (Finset.insert_eq_of_mem hseen).trans h.seen
  · rw [Ledger.rename_charges, ← h.charges former _ hlookup]
    refine charges_insert fun other found hfound => ?_
    exact h.charges other found (Maps.lookup_of_erase (Maps.lookup_of_eraseAll hfound))
  · rw [Ledger.rename_charges]
    exact h.update_le (h.charges_le former) survivor

/-- An event leaves the protocol with the books of the event. -/
theorem Books.forwardEvent (h : Books l p) (hinv : p.Inv) (hreleased : p.state = .released)
    {live live' : Finset TraceProcessId} (htracks : Tracks p live) {event : ActiveTraceEvent}
    (hevent : EventChange live live' (some event))
    {result : (ObserverDirective × ObserverProtocol) × Finset DiagnosticProcessId}
    (hresult : forwardEvent p event = .ok result) :
    Entered (l.record p.bounds.processCount event) result.1 := by
  have hgaps : p.gaps = ∅ := hinv.gaps.mpr (by simp [hreleased])
  have hobserving : p.requireObserving = .ok () :=
    ObserverProtocol.requireObserving_eq_ok.mpr (Or.inl hreleased)
  -- the first of two calls leaves a released protocol for the second
  have hnext : ∀ {c : Call} {r : ObserverDirective × ObserverProtocol}, p.call c = .ok r →
      r.1 = .continue → c.isObservation = true → r.2.Inv ∧ r.2.state = .released ∧
        ∃ keys, KeysChange p.processes.keys keys c ∧ ∀ process ∈ keys, process ∈ r.2.processes := by
    intro c r hcall hcontinue hc
    have hstep := ObserverProtocol.step_of_call hcall
    rcases hstep.directive (Or.inl hreleased) hc with ⟨-, -, hstate⟩ | ⟨hdrain, -⟩
    · exact ⟨hstep.inv hinv, hstate, _, hstep.keys hcontinue, fun _ => Finmap.mem_keys.mp⟩
    · simp [hcontinue] at hdrain
  cases event with
  | syscallCompleted process invocation value isError selectedObject candidate =>
    simp only [Diagnose.forwardEvent, diagnosticProcess_eq, ok_bind, bind_eq_ok, pure_eq_ok]
      at hresult
    obtain ⟨r, hr, rfl⟩ := hresult
    exact h.recordEvent hinv hreleased (htracks.mem.mpr hevent.1) hr
  | processCreated parent child kind =>
    simp only [Diagnose.forwardEvent, diagnosticProcess_eq, ok_bind, bind_eq_ok, pure_eq_ok]
      at hresult
    obtain ⟨discovered, hdiscovered, r, hr, rfl⟩ := hresult
    have hparent := htracks.mem.mpr hevent.1
    have hcases := h.discoverChild hinv hreleased hparent hdiscovered
    show Entered (ite _ _ _) r
    unfold ObserverProtocol.andThen at hr
    by_cases hseen : child ∈ l.seen
    · rw [if_pos hseen] at hcases ⊢
      rw [if_neg hcases.1] at hr
      obtain rfl := Except.ok.inj hr
      exact ⟨hcases.2, fun hcontinue => absurd hcontinue hcases.1⟩
    · rw [if_neg hseen] at hcases ⊢
      by_cases hfull : p.bounds.processCount ≤ l.seen.card
      · rw [if_pos hfull] at hcases ⊢
        rw [if_neg hcases.1] at hr
        obtain rfl := Except.ok.inj hr
        exact ⟨hcases.2, fun hcontinue => absurd hcontinue hcases.1⟩
      · rw [if_neg hfull] at hcases ⊢
        rw [if_pos hcases.1] at hr
        obtain ⟨hinv', hstate, _, rfl, htracked⟩ := hnext
          (c := .discoverChild (processOf parent) (processOf child) (processCreationKind kind))
          hdiscovered hcases.1 rfl
        refine hcases.2.recordEvent hinv' hstate (htracked _ ?_) hr
        exact Finset.mem_insert_of_mem (Finmap.mem_keys.mpr hparent)
  | imageReplaced former survivor superseded invocation selectedObject =>
    simp only [Diagnose.forwardEvent, diagnosticProcess_eq, collect_diagnosticProcess, ok_bind,
      bind_eq_ok, pure_eq_ok] at hresult
    obtain ⟨replaced, hreplaced, r, hr, rfl⟩ := hresult
    have hclosed := identitiesAreClosed_of_execChange htracks hevent.1
    obtain ⟨hcontinue, hbooks⟩ := h.recordExec hinv hreleased hclosed hreplaced
    rw [ObserverProtocol.andThen, if_pos hcontinue] at hr
    obtain ⟨hinv', hstate, _, rfl, htracked⟩ := hnext
      (c := .recordExec (processOf former) (processOf survivor) (superseded.map processOf))
      hreplaced hcontinue rfl
    exact hbooks.recordEvent hinv' hstate (htracked _ (Finset.mem_insert_self _ _)) hr
  | processExited process termination =>
    simp only [Diagnose.forwardEvent, diagnosticProcess_eq, ok_bind, bind_eq_ok, pure_eq_ok]
      at hresult
    obtain ⟨r, hr, rfl⟩ := hresult
    rw [ObserverProtocol.recordProcessExit, hobserving, ok_bind,
      if_neg (not_not.mpr (htracks.mem.mpr hevent.1))] at hr
    obtain rfl := pure_eq_ok.mp hr
    rw [if_neg (by simp [hreleased])]
    have hbooks : Books l { p with processes := p.processes.erase (processOf process) } := by
      refine { h with charges := ?_ }
      intro other found hfound
      exact h.charges other found (Maps.lookup_of_erase hfound)
    exact ⟨hbooks.settled hinv.total_le rfl rfl (by simp [hgaps]), fun _ => hbooks⟩
  | unexpectedStop process signal stop =>
    simp only [Diagnose.forwardEvent, diagnosticProcess_eq, ok_bind, bind_eq_ok, pure_eq_ok,
      ObserverProtocol.recordUnexpectedStop, hobserving] at hresult
    obtain ⟨r, rfl, rfl⟩ := hresult
    refine ⟨h.settled hinv.total_le rfl rfl ?_, by rintro ⟨⟩⟩
    split <;> simp [ObserverProtocol.stopWithGap, hgaps]

end

/-! ## The drain -/

/-- The gaps that a receipt ties to a count. -/
def DiagnosticGap.IsLimit (gap : DiagnosticGap) : Prop :=
  gap = .eventLimit ∨ gap = .eventPerProcessLimit ∨ gap = .processLimit

/-- The observation is a creation that the process limit refuses: the parent is
tracked, the child is new, and the table is full. -/
def Refuses (p : ObserverProtocol) : TraceDrainObservation → Prop
  | .processCreated parent child _ => processOf parent ∈ p.processes ∧
      processOf child ∉ p.seenProcesses ∧ p.bounds.processCount ≤ p.seenProcesses.card
  | _ => False

/-- The process limit refuses a creation of the drain. -/
def RefusedInDrain (s : ObserverProtocol × Finset DiagnosticProcessId)
    (observations : List TraceDrainObservation) : Prop :=
  ∃ before observation after s', observations = before ++ observation :: after ∧
    forwardAll s before = .ok s' ∧ Refuses s'.1 observation

section

variable {s s' : ObserverProtocol × Finset DiagnosticProcessId} {p : ObserverProtocol}
  {r : ObserverDirective × ObserverProtocol} {gap : DiagnosticGap}

theorem discoverChild_gaps (hgap : gap.IsLimit) {parent child : TraceProcessId}
    {kind : Linux.TraceProcessCreationKind}
    (hr : p.discoverChild (processOf parent) (processOf child) (processCreationKind kind) =
      .ok r) :
    gap ∈ r.2.gaps ↔
      gap ∈ p.gaps ∨ (gap = .processLimit ∧ Refuses p (.processCreated parent child kind)) := by
  simp only [ObserverProtocol.discoverChild, bind_eq_ok] at hr
  obtain ⟨_, _, hr⟩ := hr
  have hne : gap ≠ .childLost ∧ gap ≠ .observerFailed := by
    rcases hgap with rfl | rfl | rfl <;> decide
  unfold Refuses
  split_ifs at hr with hparent hchild hfull
  · obtain rfl := pure_eq_ok.mp hr
    simp [ObserverProtocol.stopWithGap, hne, hparent, hchild]
  · obtain rfl := pure_eq_ok.mp hr
    simp [ObserverProtocol.stopWithGap, hparent, hchild, hfull, or_comm]
  · obtain rfl := pure_eq_ok.mp hr
    rw [ObserverProtocol.observed_eq]
    simp [hfull]
  · obtain rfl := pure_eq_ok.mp hr
    simp [ObserverProtocol.stopWithGap, hne, hparent]

theorem recordExec_gaps (hgap : gap.IsLimit) {former survivor : DiagnosticProcessId}
    {superseded : List DiagnosticProcessId}
    (hr : p.recordExec former survivor superseded = .ok r) : gap ∈ r.2.gaps ↔ gap ∈ p.gaps := by
  have hne : gap ≠ .observerFailed := by
    rcases hgap with rfl | rfl | rfl <;> decide
  simp only [ObserverProtocol.recordExec, bind_eq_ok] at hr
  obtain ⟨_, _, hr⟩ := hr
  split_ifs at hr with hclosed
  · simp only [bind_eq_ok, okOr_eq_ok, pure_eq_ok] at hr
    obtain ⟨_, _, rfl⟩ := hr
    rw [ObserverProtocol.observed_eq]
  · obtain rfl := pure_eq_ok.mp hr
    simp [ObserverProtocol.stopWithGap, hne]

theorem recordProcessExit_gaps (hgap : gap.IsLimit) {process : DiagnosticProcessId}
    (hr : p.recordProcessExit process = .ok r) : gap ∈ r.2.gaps ↔ gap ∈ p.gaps := by
  have hne : gap ≠ .childLost := by
    rcases hgap with rfl | rfl | rfl <;> decide
  simp only [ObserverProtocol.recordProcessExit, bind_eq_ok] at hr
  obtain ⟨_, _, hr⟩ := hr
  by_cases hprocess : process ∉ p.processes
  · rw [if_pos hprocess] at hr
    obtain rfl := pure_eq_ok.mp hr
    simp [ObserverProtocol.stopWithGap, hne]
  · rw [if_neg hprocess] at hr
    obtain rfl := pure_eq_ok.mp hr
    split <;> rfl

/-- A drain adds no limit gap but the process limit. -/
theorem forwardDrained_gaps (hgap : gap.IsLimit) {observation : TraceDrainObservation}
    (h : forwardDrained s observation = .ok s') :
    gap ∈ s'.1.gaps ↔ gap ∈ s.1.gaps ∨ (gap = .processLimit ∧ Refuses s.1 observation) := by
  cases observation with
  | processCreated parent child kind =>
    simp only [forwardDrained, diagnosticProcess_eq, ok_bind, bind_eq_ok, pure_eq_ok] at h
    obtain ⟨r, hr, rfl⟩ := h
    exact discoverChild_gaps hgap hr
  | imageReplaced former survivor superseded =>
    simp only [forwardDrained, diagnosticProcess_eq, collect_diagnosticProcess, ok_bind,
      bind_eq_ok, pure_eq_ok] at h
    obtain ⟨r, hr, rfl⟩ := h
    simp [recordExec_gaps hgap hr, Refuses]
  | processExited process termination =>
    simp only [forwardDrained, diagnosticProcess_eq, ok_bind] at h
    split_ifs at h with huntracked
    · obtain rfl := pure_eq_ok.mp h
      simp [Refuses]
    · simp only [bind_eq_ok, pure_eq_ok] at h
      obtain ⟨r, hr, rfl⟩ := h
      simp [recordProcessExit_gaps hgap hr, Refuses]

theorem forwardAll_gaps (hgap : gap.IsLimit) {observations : List TraceDrainObservation}
    (h : forwardAll s observations = .ok s') :
    gap ∈ s'.1.gaps ↔
      gap ∈ s.1.gaps ∨ (gap = .processLimit ∧ RefusedInDrain s observations) := by
  induction observations generalizing s with
  | nil =>
    obtain rfl := Except.ok.inj h
    simp [RefusedInDrain]
  | cons observation observations ih =>
    rw [forwardAll, bind_eq_ok] at h
    obtain ⟨s₁, hs₁, h⟩ := h
    have hcons : RefusedInDrain s (observation :: observations) ↔
        Refuses s.1 observation ∨ RefusedInDrain s₁ observations :=
      exists_forwarded_cons (P := fun s observation _ => Refuses s.1 observation) hs₁
    rw [ih h, forwardDrained_gaps hgap hs₁, hcons]
    tauto

end

end ProofboundRuntime.Diagnose
