import ProofboundRuntime.Core.Receipt
import ProofboundRuntime.Diagnose.Artifact
import ProofboundRuntime.Lib.Maps

/-!
# Diagnostic events and the checks of a receipt

`artifact.rs` of the diagnose crate: one retained event, `validate_events`, and
the checks of `DiagnosticReceipt::construct` on the bounds, the events, the gaps
and the completion.  The identities, arguments and assumptions of a receipt and
its encoding are left out.
-/

namespace ProofboundRuntime.Diagnose

open Result
open ProofboundRuntime.Core (Architecture)

inductive OperandKind where
  | path
  | processCreate
  | socketAddress
  | socketCreate
deriving DecidableEq

inductive DiagnosticEventClass where
  | bind
  | clone
  | connect
  | creat
  | execve
  | execveat
  | fork
  | newfstatat
  | open
  | openat
  | openat2
  | readlink
  | readlinkat
  | sendto
  | socket
  | statx
  | vfork
deriving DecidableEq

def DiagnosticEventClass.operandKind : DiagnosticEventClass → OperandKind
  | .bind | .connect | .sendto => .socketAddress
  | .socket => .socketCreate
  | .clone | .fork | .vfork => .processCreate
  | .creat | .execve | .execveat | .newfstatat | .open | .openat | .openat2 | .readlink
  | .readlinkat | .statx => .path

/-! ## Operands and objects -/

structure ObservedObjectIdentity where
  deviceMajor : UInt32
  deviceMinor : UInt32
  inode : UInt64
  mode : UInt32
  mountId : UInt64
  mode_le : mode ≤ 0o777777
deriving DecidableEq

def ObservedObjectIdentity.new (deviceMajor deviceMinor : UInt32) (inode : UInt64)
    (mode : UInt32) (mountId : UInt64) :
    Except DiagnosticArtifactError ObservedObjectIdentity :=
  if h : mode ≤ 0o777777 then .ok ⟨deviceMajor, deviceMinor, inode, mode, mountId, h⟩
  else .error .eventInvalid

inductive SocketAddressFamily where
  | inet
  | inet6
  | netlink
  | other
  | unix
deriving DecidableEq

structure ObservedSocketAddress where
  family : SocketAddressFamily
  bytes : List UInt8
  length_le : bytes.length ≤ 4096
deriving DecidableEq

def ObservedSocketAddress.new (family : SocketAddressFamily) (bytes : List UInt8) :
    Except DiagnosticArtifactError ObservedSocketAddress :=
  if h : bytes.length ≤ 4096 then .ok ⟨family, bytes, h⟩ else .error .socketAddressInvalid

structure PathOperands where
  bufferBytes : Option UInt64
  directoryFd : Option Int32
  flags : Option UInt64
  mask : Option UInt64
  mode : Option UInt64
  path : Option String
  resolve : Option UInt64
  symlinkHops : Option UInt64
deriving DecidableEq

inductive ObservationOperands where
  | path (operands : PathOperands)
  | processCreate (flags : Option UInt64)
  | socketAddress (address : Option ObservedSocketAddress) (descriptor : UInt32)
      (payloadBytes : Option UInt64)
  | socketCreate (domain protocol socketType : UInt32)
deriving DecidableEq

namespace ObservationOperands

def kind : ObservationOperands → OperandKind
  | .path .. => .path
  | .processCreate .. => .processCreate
  | .socketAddress .. => .socketAddress
  | .socketCreate .. => .socketCreate

def retainsRedactedTarget : ObservationOperands → Bool
  | .path operands => operands.path.isSome
  | .socketAddress address _ _ => address.isSome
  | .processCreate .. | .socketCreate .. => false

def hasCompletePathObservation : ObservationOperands → Bool
  | .path operands => operands.path.isSome && operands.symlinkHops.isSome
  | _ => false

def hasPathObservation : ObservationOperands → Bool
  | .path operands => operands.path.isSome
  | _ => false

def validateBounds (bounds : ObservationBounds) :
    ObservationOperands → Except DiagnosticArtifactError Unit
  | .path operands => do
    rejectIf (operands.path.any fun path => bounds.pathBytes < (Utf8.bytes path).length)
      .pathBoundExceeded
    rejectIf (operands.path.any fun path => bounds.traceeStringBytes < (Utf8.bytes path).length)
      .traceeStringBoundExceeded
    rejectIf (operands.symlinkHops.any fun hops => bounds.symlinkHops < hops.toNat)
      .symlinkBoundExceeded
  | .socketAddress address _ _ =>
    rejectIf (address.any fun address => bounds.socketAddressBytes < address.bytes.length)
      .socketAddressBoundExceeded
  | .processCreate .. | .socketCreate .. => .ok ()

end ObservationOperands

inductive ObservationOutcome where
  | returned (result : UInt64)
  | failed (errno : UInt32)
deriving DecidableEq

def ObservationOutcome.isReturned : ObservationOutcome → Bool
  | .returned _ => true
  | .failed _ => false

inductive ObservationResolution where
  | kernelSelected
  | stableCandidate
  | unresolved
  | redacted
deriving DecidableEq

/-- The components are separated by `/`, and none is empty, `.` or `..`. -/
def isNormalizedAbsolutePath (path : String) : Bool :=
  let bytes := Utf8.bytes path
  if bytes.head? ≠ some 0x2f ∨ (0 : UInt8) ∈ bytes ∨
      (1 < bytes.length ∧ bytes.getLast? = some 0x2f) ∨ [0x2f, 0x2f] <:+: bytes then false
  else bytes == [0x2f] || ((bytes.splitOn 0x2f).drop 1).all fun component =>
    component ≠ [] && component ≠ [0x2e] && component ≠ [0x2e, 0x2e]

/-! ## Events -/

/-- The fields that each resolution requires. -/
def ResolutionMatches (operands : ObservationOperands) (outcome : ObservationOutcome)
    (resolvedPath : Option String) (objectBefore objectAfter : Option ObservedObjectIdentity) :
    ObservationResolution → Prop
  | .kernelSelected => outcome.isReturned ∧ resolvedPath.isSome ∧ objectBefore.isNone ∧
      objectAfter.isSome ∧ operands.hasPathObservation
  | .stableCandidate => ¬outcome.isReturned ∧ resolvedPath.isSome ∧ objectBefore.isSome ∧
      objectBefore = objectAfter ∧ operands.hasCompletePathObservation
  | .unresolved => resolvedPath.isNone ∧ objectBefore.isNone ∧ objectAfter.isNone
  | .redacted => resolvedPath.isNone ∧ objectBefore.isNone ∧ objectAfter.isNone ∧
      ¬operands.retainsRedactedTarget

instance (operands : ObservationOperands) (outcome : ObservationOutcome)
    (resolvedPath : Option String) (objectBefore objectAfter : Option ObservedObjectIdentity) :
    DecidablePred (ResolutionMatches operands outcome resolvedPath objectBefore objectAfter)
  | .kernelSelected | .stableCandidate | .unresolved | .redacted =>
    inferInstanceAs (Decidable (_ ∧ _))

/-- What `DiagnosticEvent::new` requires of a resolution. -/
def ResolutionValid (operands : ObservationOperands) (outcome : ObservationOutcome)
    (resolution : ObservationResolution) (resolvedPath : Option String)
    (objectBefore objectAfter : Option ObservedObjectIdentity) : Prop :=
  ResolutionMatches operands outcome resolvedPath objectBefore objectAfter resolution ∧
    resolvedPath.all isNormalizedAbsolutePath

instance (operands : ObservationOperands) (outcome : ObservationOutcome)
    (resolution : ObservationResolution) (resolvedPath : Option String)
    (objectBefore objectAfter : Option ObservedObjectIdentity) :
    Decidable (ResolutionValid operands outcome resolution resolvedPath objectBefore
      objectAfter) :=
  inferInstanceAs (Decidable (_ ∧ _))

@[ext] structure DiagnosticEvent where
  sequence : Nat
  process : UInt32
  architecture : Architecture
  eventClass : DiagnosticEventClass
  operands : ObservationOperands
  outcome : ObservationOutcome
  resolution : ObservationResolution
  resolvedPath : Option String
  objectBefore : Option ObservedObjectIdentity
  objectAfter : Option ObservedObjectIdentity
  process_ne_zero : process ≠ 0
  kind_eq : eventClass.operandKind = operands.kind
  outcome_ne : outcome ≠ .failed 0
  resolution_valid : ResolutionValid operands outcome resolution resolvedPath objectBefore
    objectAfter

instance : DecidableEq DiagnosticEvent :=
  fun _ _ => decidable_of_iff _ DiagnosticEvent.ext_iff.symm

namespace DiagnosticEvent

def new (sequence : Nat) (process : UInt32) (architecture : Architecture)
    (eventClass : DiagnosticEventClass) (operands : ObservationOperands)
    (outcome : ObservationOutcome) (resolution : ObservationResolution)
    (resolvedPath : Option String) (objectBefore objectAfter : Option ObservedObjectIdentity) :
    Except DiagnosticArtifactError DiagnosticEvent :=
  if hprocess : process = 0 ∨ eventClass.operandKind ≠ operands.kind then .error .eventInvalid
  else if houtcome : outcome = .failed 0 then .error .outcomeInvalid
  else if hresolution : ResolutionValid operands outcome resolution resolvedPath objectBefore
      objectAfter then
    .ok ⟨sequence, process, architecture, eventClass, operands, outcome, resolution,
      resolvedPath, objectBefore, objectAfter, fun h => hprocess (Or.inl h),
      not_not.mp fun h => hprocess (Or.inr h), houtcome, hresolution⟩
  else .error .resolutionInvalid

def validateBounds (event : DiagnosticEvent) (bounds : ObservationBounds) :
    Except DiagnosticArtifactError Unit := do
  event.operands.validateBounds bounds
  rejectIf (event.resolvedPath.any fun path => bounds.pathBytes < (Utf8.bytes path).length)
    .pathBoundExceeded

end DiagnosticEvent

/-! ## The checks of a receipt -/

/-- The sequence of the previous event and the count of each process. -/
abbrev EventCounts := Option Nat × Finmap fun _ : UInt32 => Nat

/-- The body of the loop of `validate_events`. -/
def countEvent (bounds : ObservationBounds) (architecture : Architecture) (counts : EventCounts)
    (event : DiagnosticEvent) : Except DiagnosticArtifactError EventCounts := do
  rejectIf (event.architecture ≠ architecture) .eventInvalid
  rejectIf (counts.1.any fun previous => event.sequence ≤ previous) .eventOrderInvalid
  event.validateBounds bounds
  let count := (counts.2.lookup event.process).getD 0 + 1
  rejectIf (bounds.eventCountPerProcess < count) .eventBoundExceeded
  pure (some event.sequence, Maps.bump event.process counts.2)

def validateEvents (events : List DiagnosticEvent) (bounds : ObservationBounds)
    (architecture : Architecture) (gaps : Finset DiagnosticGap) :
    Except DiagnosticArtifactError Unit := do
  rejectIf (bounds.eventCount < events.length) .eventBoundExceeded
  let (_, processes) ← events.foldlM (countEvent bounds architecture) (none, ∅)
  rejectIf (bounds.processCount < processes.keys.card) .processBoundExceeded
  rejectIf ((.eventLimit ∈ gaps ∧ events.length ≠ bounds.eventCount) ∨
      (.eventPerProcessLimit ∈ gaps ∧
        ¬∃ process ∈ processes.keys, processes.lookup process = some bounds.eventCountPerProcess) ∨
      (.processLimit ∈ gaps ∧ processes.keys.card ≠ bounds.processCount))
    .completionInvalid

inductive DiagnosticCompletion where
  | complete
  | incomplete
deriving DecidableEq

/-- The checks of `DiagnosticReceipt::construct` on what an observation
determines.  The gaps are a set once they are sorted and without duplicates. -/
def checkObservation (bounds : ObservationBounds) (events : List DiagnosticEvent)
    (architecture : Architecture) (completion : DiagnosticCompletion)
    (gaps : Finset DiagnosticGap) : Except DiagnosticArtifactError Unit := do
  let bounds ← bounds.validate
  validateEvents events bounds architecture gaps
  rejectIf (64 < gaps.card ∨ ¬(completion = .complete ↔ gaps = ∅)) .completionInvalid

/-! ## What the checks accept -/

section

variable {bounds : ObservationBounds} {architecture : Architecture} {events : List DiagnosticEvent}

/-- The check of one event on its own. -/
def EventValid (bounds : ObservationBounds) (architecture : Architecture)
    (event : DiagnosticEvent) : Prop :=
  event.architecture = architecture ∧ event.validateBounds bounds = .ok ()

theorem countEvent_eq_ok {counts counts' : EventCounts} {keys : List UInt32}
    (h : Maps.Counts counts.2 keys) {event : DiagnosticEvent} :
    countEvent bounds architecture counts event = .ok counts' ↔
      EventValid bounds architecture event ∧
        (∀ previous ∈ counts.1, previous < event.sequence) ∧
        keys.count event.process < bounds.eventCountPerProcess ∧
        (some event.sequence, Maps.bump event.process counts.2) = counts' := by
  simp only [countEvent, check_bind_eq_ok, rejectIf_eq_ok, pure_eq_ok, h.getD, EventValid,
    ne_eq, not_not, not_lt, Nat.succ_le_iff]
  cases counts.1 <;> simp [and_assoc, and_left_comm]

/-- The loop of `validate_events` accepts the events in order, and leaves the
count of each process. -/
theorem foldlM_countEvent {counts counts' : EventCounts} {keys : List UInt32}
    (h : Maps.Counts counts.2 keys) :
    events.foldlM (countEvent bounds architecture) counts = .ok counts' →
      Maps.Counts counts'.2 (keys ++ events.map DiagnosticEvent.process) := by
  induction events generalizing counts keys with
  | nil =>
    intro hfold
    obtain rfl := Except.ok.inj hfold
    simpa using h
  | cons event events ih =>
    intro hfold
    rw [List.foldlM_cons, bind_eq_ok] at hfold
    obtain ⟨next, hnext, hrest⟩ := hfold
    obtain ⟨-, -, -, rfl⟩ := (countEvent_eq_ok h).mp hnext
    have hcounts := ih (h.bump event.process) hrest
    rwa [List.append_assoc] at hcounts

/-- The events are in the order of their sequences, after the previous one. -/
def Ordered (previous : Option Nat) (events : List DiagnosticEvent) : Prop :=
  (previous.toList ++ events.map DiagnosticEvent.sequence).IsChain (· < ·)

theorem ordered_cons {previous : Option Nat} {event : DiagnosticEvent} :
    Ordered previous (event :: events) ↔
      (∀ p ∈ previous, p < event.sequence) ∧ Ordered (some event.sequence) events := by
  cases previous <;> simp [Ordered]

/-- A bound on every count of a longer list, from its first element on. -/
theorem count_le_cons {keys rest : List UInt32} {key : UInt32} {bound : Nat} :
    (∀ k ∈ key :: rest, (keys ++ key :: rest).count k ≤ bound) ↔
      keys.count key < bound ∧ ∀ k ∈ rest, (keys ++ [key] ++ rest).count k ≤ bound := by
  rw [List.append_assoc, List.singleton_append]
  constructor
  · intro h
    refine ⟨?_, fun k hk => h k (List.mem_cons_of_mem _ hk)⟩
    have hkey := h key List.mem_cons_self
    rw [List.count_append, List.count_cons_self] at hkey
    omega
  · intro ⟨hkey, h⟩ k hk
    by_cases hrest : k ∈ rest
    · exact h k hrest
    · obtain rfl := (List.mem_cons.mp hk).resolve_right hrest
      rw [List.count_append, List.count_cons_self, List.count_eq_zero.mpr hrest]
      omega

theorem exists_foldlM_countEvent {counts : EventCounts} {keys : List UInt32}
    (h : Maps.Counts counts.2 keys) :
    (∃ counts', events.foldlM (countEvent bounds architecture) counts = .ok counts') ↔
      (∀ event ∈ events, EventValid bounds architecture event) ∧ Ordered counts.1 events ∧
        ∀ process ∈ events.map DiagnosticEvent.process,
          (keys ++ events.map DiagnosticEvent.process).count process ≤
            bounds.eventCountPerProcess := by
  induction events generalizing counts keys with
  | nil =>
    have hordered : Ordered counts.1 [] := by
      cases hprevious : counts.1 <;> simp [Ordered]
    simp [hordered, pure, Except.pure]
  | cons event events ih =>
    simp only [List.foldlM_cons, bind_eq_ok, countEvent_eq_ok h, List.forall_mem_cons (l := events),
      ordered_cons, List.map_cons, count_le_cons]
    constructor
    · rintro ⟨counts', next, ⟨hvalid, hprevious, hcount, rfl⟩, hrest⟩
      obtain ⟨hvalids, hordered, hcounts⟩ := (ih (h.bump event.process)).mp ⟨counts', hrest⟩
      exact ⟨⟨hvalid, hvalids⟩, ⟨hprevious, hordered⟩, hcount, hcounts⟩
    · rintro ⟨⟨hvalid, hvalids⟩, ⟨hprevious, hordered⟩, hcount, hcounts⟩
      have hbump : Maps.Counts (some event.sequence, Maps.bump event.process counts.2).2
          (keys ++ [event.process]) := h.bump event.process
      obtain ⟨counts', hrest⟩ := (ih hbump).mpr ⟨hvalids, hordered, hcounts⟩
      exact ⟨counts', _, ⟨hvalid, hprevious, hcount, rfl⟩, hrest⟩

/-- The processes that a list of events names. -/
def processesOf (events : List DiagnosticEvent) : List UInt32 :=
  events.map DiagnosticEvent.process

/-- What `validate_events` accepts. -/
structure EventsValid (events : List DiagnosticEvent) (bounds : ObservationBounds)
    (architecture : Architecture) (gaps : Finset DiagnosticGap) : Prop where
  length_le : events.length ≤ bounds.eventCount
  valid : ∀ event ∈ events, EventValid bounds architecture event
  ordered : Ordered none events
  count_le : ∀ process, (processesOf events).count process ≤ bounds.eventCountPerProcess
  card_le : (processesOf events).toFinset.card ≤ bounds.processCount
  eventLimit : .eventLimit ∈ gaps → events.length = bounds.eventCount
  eventPerProcessLimit : .eventPerProcessLimit ∈ gaps →
    ∃ process ∈ processesOf events,
      (processesOf events).count process = bounds.eventCountPerProcess
  processLimit : .processLimit ∈ gaps →
    (processesOf events).toFinset.card = bounds.processCount

theorem validateEvents_eq_ok {gaps : Finset DiagnosticGap} {u : Unit} :
    validateEvents events bounds architecture gaps = .ok u ↔
      EventsValid events bounds architecture gaps := by
  have hcount : (∀ process ∈ processesOf events,
      (processesOf events).count process ≤ bounds.eventCountPerProcess) ↔
      ∀ process, (processesOf events).count process ≤ bounds.eventCountPerProcess := by
    refine ⟨fun h process => ?_, fun h process _ => h process⟩
    by_cases hprocess : process ∈ processesOf events
    · exact h process hprocess
    · rw [List.count_eq_zero.mpr hprocess]
      exact Nat.zero_le _
  have hexists : (∃ counts, events.foldlM (countEvent bounds architecture) (none, ∅) =
      .ok counts) ↔ (∀ event ∈ events, EventValid bounds architecture event) ∧
        Ordered none events ∧
        ∀ process, (processesOf events).count process ≤ bounds.eventCountPerProcess := by
    rw [← hcount]
    exact exists_foldlM_countEvent (show Maps.Counts ((none, ∅) : EventCounts).2 [] from
      Maps.counts_empty)
  simp only [validateEvents, bind_eq_ok, rejectIf_eq_ok, exists_const, not_lt, not_or, not_and,
    not_not, ne_eq]
  constructor
  · rintro ⟨hlength, counts, hfold, hcard, htotal, hper, hprocess⟩
    have hcounts : Maps.Counts counts.2 (processesOf events) :=
      foldlM_countEvent Maps.counts_empty hfold
    obtain ⟨hvalid, hordered, hcount⟩ := hexists.mp ⟨counts, hfold⟩
    simp only [hcounts.keys_eq, List.mem_toFinset] at hcard hper hprocess
    refine ⟨hlength, hvalid, hordered, hcount, hcard, htotal, ?_, hprocess⟩
    intro hgap
    obtain ⟨process, hmem, hlookup⟩ := hper hgap
    rw [hcounts process, if_pos hmem] at hlookup
    exact ⟨process, hmem, Option.some.inj hlookup⟩
  · rintro ⟨hlength, hvalid, hordered, hcount, hcard, htotal, hper, hprocess⟩
    obtain ⟨counts, hfold⟩ := hexists.mpr ⟨hvalid, hordered, hcount⟩
    have hcounts : Maps.Counts counts.2 (processesOf events) :=
      foldlM_countEvent Maps.counts_empty hfold
    refine ⟨hlength, counts, hfold, ?_⟩
    simp only [hcounts.keys_eq, List.mem_toFinset]
    refine ⟨hcard, htotal, ?_, hprocess⟩
    intro hgap
    obtain ⟨process, hmem, heq⟩ := hper hgap
    exact ⟨process, hmem, by rw [hcounts process, if_pos hmem, heq]⟩

theorem checkObservation_eq_ok {completion : DiagnosticCompletion} {gaps : Finset DiagnosticGap}
    {u : Unit} :
    checkObservation bounds events architecture completion gaps = .ok u ↔
      bounds.Valid ∧ EventsValid events bounds architecture gaps ∧ gaps.card ≤ 64 ∧
        (completion = .complete ↔ gaps = ∅) := by
  simp only [checkObservation, bind_eq_ok, ObservationBounds.validate_eq_ok,
    validateEvents_eq_ok, rejectIf_eq_ok, exists_const, not_or, not_lt, not_not]
  constructor
  · rintro ⟨_, ⟨hvalid, rfl⟩, hevents, hcard, hcompletion⟩
    exact ⟨hvalid, hevents, hcard, hcompletion⟩
  · rintro ⟨hvalid, hevents, hcard, hcompletion⟩
    exact ⟨_, ⟨hvalid, rfl⟩, hevents, hcard, hcompletion⟩

end

end ProofboundRuntime.Diagnose
