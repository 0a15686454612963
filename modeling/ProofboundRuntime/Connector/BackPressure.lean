import ProofboundRuntime.Connector.Integrity

/-!
# Back-pressure in the proxy

The buffers of the TLS connection are bounded.  `Queues` follows their lengths
through the answers of the sockets alone, and `Fits` says that no answer
overruns them.  An exchange in which neither endpoint fails is proxied without an
error exactly when it fits: the loop reads both endpoints without looking at what
is queued.
-/

namespace ProofboundRuntime.Connector

/-! ## Bounded connections -/

/-- The limits of the outgoing buffer and of the received plaintext. -/
structure BufferLimits where
  outgoing : Nat
  received : Nat

/-- The defaults of `rustls`, which the connector does not change. -/
def BufferLimits.default : BufferLimits := ⟨64 * 1024, 16 * 1024⟩

/-- The answers of a connection that holds so many bytes: a write takes what
fits, and `read_tls` fails while the received plaintext is over its limit. -/
def Turn.bounded (limits : BufferLimits) (outgoing received : Nat) (turn : Turn) : Turn where
  __ := turn
  accepts := some (limits.outgoing - outgoing)
  readTls := if limits.received < received then .failed else turn.readTls

/-- The answers along a run. -/
def Proxy.bounded (framing : Framing) (limits : BufferLimits) (p : Proxy) : List Turn → List Turn
  | [] => []
  | turn :: turns =>
    let answers := turn.bounded limits p.session.outgoing p.session.received.length
    answers :: match iteration framing answers p with
      | (.ok none, next) => next.bounded framing limits turns
      | _ => []

/-! ## Exchanges -/

/-- No endpoint fails or closes early in this turn, and the deadline has not
passed. -/
@[mk_iff] structure Clean (sessionLimit : Nat) (turn : Turn) : Prop where
  active : turn.elapsed < sessionLimit
  childWrite : turn.childWrite ≠ .failed ∧ turn.childWrite ≠ .ok 0
  childRead : turn.childRead ≠ .failed
  writeTls : Io.failed ∉ turn.writeTls
  readTls : turn.readTls ≠ .failed ∧ turn.readTls ≠ .ok 0
  packets : turn.packets ≠ none
  emptyRead : turn.emptyRead = .nothing ∨ turn.emptyRead = .wouldBlock
  shutdown : turn.shutdown = true

/-- The length of the chunk that one read of the child returns. -/
def Turn.chunkLength (turn : Turn) : Nat :=
  match turn.childRead with
  | .ok bytes => min proxyBufferBytes bytes.length
  | _ => 0

variable {bytes : List UInt8}

theorem Turn.chunkLength_of_ok {turn : Turn} (h : turn.childRead = .ok bytes) :
    turn.chunkLength = (bytes.take proxyBufferBytes).length := by
  rw [Turn.chunkLength, h, List.length_take]

theorem Turn.chunkLength_of_wouldBlock {turn : Turn} (h : turn.childRead = .wouldBlock) :
    turn.chunkLength = 0 := by
  rw [Turn.chunkLength, h]

/-- What one `read_tls` finds. -/
def Turn.arrived (turn : Turn) : Option Packets :=
  match turn.readTls with
  | .ok _ => turn.packets
  | _ => none

/-- The bytes that the child sends until it closes. -/
def childTotal : List Turn → Nat
  | [] => 0
  | turn :: turns =>
    match turn.childRead with
    | .ok [] => 0
    | _ => turn.chunkLength + childTotal turns

/-- The plaintext that the service sends until it closes. -/
def serviceTotal : List Turn → Nat
  | [] => 0
  | turn :: turns =>
    match turn.arrived with
    | some packets =>
      packets.plaintext.length + if packets.peerHasClosed then 0 else serviceTotal turns
    | none => serviceTotal turns

/-! ## The lengths of the queues -/

structure Queues where
  /-- Sealed bytes for the service socket. -/
  outgoing : Nat
  /-- Plaintext that the connection holds. -/
  received : Nat
  /-- Plaintext that waits for the child. -/
  pending : Nat
  childOpen : Bool
  peerOpen : Bool
  closeNotifySent : Bool
deriving DecidableEq

namespace Queues

variable (framing : Framing) (q : Queues) (turn : Turn)

def flushChild : Queues :=
  match turn.childWrite with
  | .ok n => { q with pending := q.pending - n }
  | _ => q

def readChild : Queues :=
  match q.childOpen, turn.childRead with
  | true, .ok [] => { q with childOpen := false }
  | true, .ok _ => { q with outgoing := q.outgoing + framing.sealed turn.chunkLength }
  | _, _ => q

def sendCloseNotify : Queues :=
  if ¬q.childOpen ∧ ¬q.closeNotifySent then
    { q with outgoing := q.outgoing + framing.closeNotify, closeNotifySent := true }
  else q

def drained : List (Io Nat) → Nat → Nat
  | .ok n :: results, outgoing =>
    if min n outgoing = 0 then outgoing else drained results (outgoing - n)
  | _, outgoing => outgoing

theorem drained_zero {results : List (Io Nat)} : drained results 0 = 0 := by
  cases results with
  | nil => rfl
  | cons result results =>
    cases result with
    | ok n => simp only [drained, Nat.min_zero, if_pos]
    | wouldBlock => rfl
    | failed => rfl

def writeTls : Queues := { q with outgoing := drained turn.writeTls q.outgoing }

def readTls : Queues :=
  match q.peerOpen, turn.arrived with
  | true, some packets =>
    { q with
      outgoing := q.outgoing + packets.replies
      received := q.received + packets.plaintext.length
      peerOpen := !packets.peerHasClosed }
  | _, _ => q

def readPlaintext : Queues :=
  if q.pending = 0 ∧ q.received ≠ 0 then
    let count := max 1 (min turn.reads (min proxyBufferBytes q.received))
    { q with received := q.received - count, pending := count }
  else q

/-- One iteration. -/
def next : Queues :=
  ((((((q.flushChild turn).readChild framing turn).sendCloseNotify framing).writeTls
    turn).readTls turn).readPlaintext turn)

theorem flushChild_outgoing : (q.flushChild turn).outgoing = q.outgoing := by
  unfold flushChild
  split <;> rfl

theorem flushChild_childOpen : (q.flushChild turn).childOpen = q.childOpen := by
  unfold flushChild
  split <;> rfl

theorem flushChild_peerOpen : (q.flushChild turn).peerOpen = q.peerOpen := by
  unfold flushChild
  split <;> rfl

theorem readChild_peerOpen : (q.readChild framing turn).peerOpen = q.peerOpen := by
  unfold readChild
  split <;> rfl

theorem sendCloseNotify_peerOpen : (q.sendCloseNotify framing).peerOpen = q.peerOpen := by
  unfold sendCloseNotify
  split <;> rfl

/-- The peer has closed and everything was delivered. -/
def Done : Prop := q.peerOpen = false ∧ q.pending = 0

instance : Decidable q.Done := inferInstanceAs (Decidable (_ ∧ _))

/-- The chunk of the child fits the outgoing buffer as a whole, and `read_tls` is
not called on a full connection. -/
def Room (limits : BufferLimits) : Prop :=
  (q.childOpen = true → turn.chunkLength ≤ limits.outgoing - q.outgoing) ∧
    (q.peerOpen = true → q.received ≤ limits.received)

instance (limits : BufferLimits) : Decidable (q.Room turn limits) :=
  inferInstanceAs (Decidable (_ ∧ _))

end Queues

/-- Every iteration has room. -/
def Fits (framing : Framing) (limits : BufferLimits) : Queues → List Turn → Prop
  | _, [] => True
  | q, turn :: turns =>
    q.Room turn limits ∧ ((q.next framing turn).Done ∨ Fits framing limits (q.next framing turn) turns)

instance Fits.decidable (framing : Framing) (limits : BufferLimits) :
    ∀ (q : Queues) (turns : List Turn), Decidable (Fits framing limits q turns)
  | _, [] => isTrue trivial
  | q, turn :: turns =>
    let := Fits.decidable framing limits (q.next framing turn) turns
    inferInstanceAs (Decidable (q.Room turn limits ∧ ((q.next framing turn).Done ∨ _)))

/-- The queues of a new channel. -/
def Queues.start (outgoing received : Nat) : Queues := ⟨outgoing, received, 0, true, true, false⟩

/-! ## The queues of a run -/

/-- The queues are those of the proxy, and what the endpoints have yet to send,
`toService` and `toChild`, is within the limits. -/
structure Tracks (sessionLimit : Nat) (q : Queues) (toService toChild : Nat) (p : Proxy) :
    Prop where
  sessionLimit : p.session.sessionLimit = sessionLimit
  outgoing : p.session.outgoing = q.outgoing
  received : p.session.received.length = q.received
  pending : p.pendingChild.length = p.pendingOffset + q.pending
  pending_nil : q.pending = 0 → p.pendingChild = []
  childOpen : p.childOpen = q.childOpen
  peerOpen : p.peerOpen = q.peerOpen
  closeNotifySent : p.closeNotifySent = q.closeNotifySent
  service_le : q.childOpen = true →
    p.session.childToServiceBytes + toService ≤ p.session.childToServiceLimit
  child_le : p.session.serviceToChildBytes + q.pending + q.received +
    (if q.peerOpen then toChild else 0) ≤ p.session.serviceToChildLimit

section Phases

variable {sessionLimit : Nat} {limits : BufferLimits} {q : Queues} {toService toChild : Nat}
  {turn : Turn} {E : ChannelError → Proxy → Prop}

variable {p : Proxy}

theorem Tracks.pending_nil_iff (h : Tracks sessionLimit q toService toChild p) :
    p.pendingChild = [] ↔ q.pending = 0 := by
  refine ⟨fun hnil => ?_, h.pending_nil⟩
  have hpending := h.pending
  rw [hnil, List.length_nil] at hpending
  omega

theorem tracks_requireActive (hactive : turn.elapsed < sessionLimit) :
    Mut.Spec (Tracks sessionLimit q toService toChild) (requireActive turn)
      (fun _ => Tracks sessionLimit q toService toChild) E := by
  refine Mut.Spec.get_bind fun p hp => ?_
  rw [if_neg (by rw [hp.sessionLimit]; omega)]
  exact Mut.Spec.pure fun _ h => h ▸ hp

theorem Tracks.flushed (h : Tracks sessionLimit q toService toChild p) {n : Nat} :
    Tracks sessionLimit { q with pending := q.pending - n } toService toChild
      (p.flushed (min n q.pending)) := by
  have hpending := h.pending
  have hle := h.child_le
  unfold Proxy.flushed
  by_cases hdone : p.pendingOffset + min n q.pending = p.pendingChild.length
  · simp only [if_pos hdone]
    refine ⟨h.sessionLimit, h.outgoing, h.received, ?_, fun _ => rfl, h.childOpen, h.peerOpen,
      h.closeNotifySent, h.service_le, ?_⟩
    · simp only [List.length_nil]
      omega
    · simp only
      omega
  · simp only [if_neg hdone]
    refine ⟨h.sessionLimit, h.outgoing, h.received, ?_, ?_, h.childOpen, h.peerOpen,
      h.closeNotifySent, h.service_le, ?_⟩
    · simp only
      omega
    · simp only
      omega
    · simp only
      omega

theorem tracks_flushChild
    (hwrite : turn.childWrite ≠ .failed ∧ turn.childWrite ≠ .ok 0) :
    Mut.Spec (Tracks sessionLimit q toService toChild) (flushChild turn)
      (fun _ => Tracks sessionLimit (q.flushChild turn) toService toChild) E := by
  refine Mut.Spec.get_bind fun p hp => ?_
  have hlength : p.pendingChild.length - p.pendingOffset = q.pending := by
    rw [hp.pending, Nat.add_sub_cancel_left]
  unfold Queues.flushChild
  by_cases hsome : p.pendingOffset < p.pendingChild.length
  · rw [if_pos hsome]
    rcases hcases : turn.childWrite with n | - | -
    · have hn : n ≠ 0 := fun hzero => hwrite.2 (hzero ▸ hcases)
      show Mut.Spec _ (if _ then _ else _) _ _
      rw [if_neg (by omega), hlength]
      refine Mut.Spec.modify fun _ h => ?_
      subst h
      exact hp.flushed
    · exact Mut.Spec.pure fun _ h => h ▸ hp
    · exact absurd hcases hwrite.1
  · rw [if_neg hsome]
    refine Mut.Spec.pure fun _ h => ?_
    subst h
    have hnone : q.pending = 0 := by omega
    rcases turn.childWrite with n | - | -
    · have hqueues : ({ q with pending := q.pending - n } : Queues) = q := by
        rw [hnone, Nat.zero_sub, ← hnone]
      simp only [hqueues]
      exact hp
    · exact hp
    · exact hp

theorem Tracks.outgoing_eq (h : Tracks sessionLimit q toService toChild p) (outgoing : Nat) :
    Tracks sessionLimit { q with outgoing := outgoing } toService toChild
      { p with session := { p.session with outgoing := outgoing } } :=
  ⟨h.sessionLimit, rfl, h.received, h.pending, h.pending_nil, h.childOpen, h.peerOpen,
    h.closeNotifySent, h.service_le, h.child_le⟩

/-- A chunk within the limit is refused only when the writer cannot take it
whole. -/
theorem tracks_forwardChunk (framing : Framing) (limits : BufferLimits) (turn : Turn)
    (received : Nat) {chunk : List UInt8} (hopen : q.childOpen = true) :
    Mut.Spec (Tracks sessionLimit q (chunk.length + toService) toChild)
      (forwardChunk framing (turn.bounded limits q.outgoing received) chunk)
      (fun _ p => chunk.length ≤ limits.outgoing - q.outgoing ∧
        Tracks sessionLimit { q with outgoing := q.outgoing + framing.sealed chunk.length }
          toService toChild p)
      (fun error _ => error = .tls .sessionIo ∧ ¬chunk.length ≤ limits.outgoing - q.outgoing) := by
  refine Mut.Spec.of_state fun p hp => ?_
  have hle := hp.service_le hopen
  refine Mut.Spec.modify_bind (Mut.Spec.get_bind ?_)
  rintro _ rfl
  rw [if_neg (by simp only; omega)]
  refine Mut.Spec.modify_bind ?_
  by_cases hwhole : chunk.length ≤ limits.outgoing - q.outgoing
  · rw [Nat.min_eq_right hwhole, if_neg (not_not.mpr rfl)]
    refine Mut.Spec.modify fun _ h => ⟨hwhole, ?_⟩
    subst h
    refine ⟨hp.sessionLimit, ?_, hp.received, hp.pending, hp.pending_nil, hp.childOpen,
      hp.peerOpen, hp.closeNotifySent, fun _ => ?_, hp.child_le⟩
    · exact congrArg (· + _) hp.outgoing
    · show p.session.childToServiceBytes + chunk.length + toService ≤ _
      exact (Nat.add_assoc _ _ _).trans_le hle
  · rw [if_pos (by omega)]
    exact Mut.Spec.fail fun _ _ => ⟨rfl, hwhole⟩

variable {turns : List Turn}

theorem tracks_readChild (framing : Framing) {received : Nat} (hfailed : turn.childRead ≠ .failed) :
    Mut.Spec (Tracks sessionLimit q (childTotal (turn :: turns)) toChild)
      (readChild framing (turn.bounded limits q.outgoing received))
      (fun _ p => (q.childOpen = true → turn.chunkLength ≤ limits.outgoing - q.outgoing) ∧
        Tracks sessionLimit (q.readChild framing turn) (childTotal turns) toChild p)
      (fun error _ => error = .tls .sessionIo ∧
        ¬(q.childOpen = true → turn.chunkLength ≤ limits.outgoing - q.outgoing)) := by
  refine Mut.Spec.get_bind fun p hp => ?_
  have hread : (turn.bounded limits q.outgoing received).childRead = turn.childRead := rfl
  rw [hp.childOpen, hread]
  unfold Queues.readChild
  by_cases hopen : q.childOpen = true
  · rw [if_pos hopen, hopen]
    rcases hcases : turn.childRead with (- | ⟨byte, bytes⟩) | - | -
    · -- The child has closed.
      refine Mut.Spec.modify fun _ h => ?_
      subst h
      refine ⟨fun _ => ?_, hp.sessionLimit, hp.outgoing, hp.received, hp.pending, hp.pending_nil,
        rfl, hp.peerOpen, hp.closeNotifySent, nofun, hp.child_le⟩
      rw [Turn.chunkLength_of_ok hcases]
      exact Nat.zero_le _
    · have htotal : childTotal (turn :: turns) =
          ((byte :: bytes).take proxyBufferBytes).length + childTotal turns := by
        rw [childTotal, hcases, Turn.chunkLength_of_ok hcases]
      have hlength := Turn.chunkLength_of_ok hcases
      rw [htotal] at hp
      have hsome : (byte :: bytes).take proxyBufferBytes ≠ [] := List.cons_ne_nil _ _
      have hspec := tracks_forwardChunk framing limits turn received hopen p hp
      simp only [if_neg hsome, hlength, true_implies]
      simp only [hopen] at hspec
      rintro _ rfl
      exact hspec
    · refine Mut.Spec.pure fun _ h => ?_
      subst h
      have hlength := Turn.chunkLength_of_wouldBlock hcases
      have htotal : childTotal (turn :: turns) = childTotal turns := by
        rw [childTotal, hcases, hlength, Nat.zero_add]
      rw [htotal] at hp
      exact ⟨fun _ => hlength ▸ Nat.zero_le _, hp⟩
    · exact absurd hcases hfailed
  · rw [if_neg hopen]
    have hclosed : q.childOpen = false := (Bool.not_eq_true _).mp hopen
    simp only [hclosed]
    refine Mut.Spec.pure fun _ h => ?_
    subst h
    refine ⟨nofun, hp.sessionLimit, hp.outgoing, hp.received, hp.pending, hp.pending_nil,
      hp.childOpen, hp.peerOpen, hp.closeNotifySent, fun h => absurd h hopen, hp.child_le⟩

theorem tracks_sendCloseNotify (framing : Framing) :
    Mut.Spec (Tracks sessionLimit q toService toChild) (sendCloseNotify framing)
      (fun _ => Tracks sessionLimit (q.sendCloseNotify framing) toService toChild) E := by
  refine Mut.Spec.modify fun p hp => ?_
  unfold Queues.sendCloseNotify
  simp only [← hp.childOpen, ← hp.closeNotifySent]
  split
  · exact ⟨hp.sessionLimit, congrArg (· + _) hp.outgoing, hp.received, hp.pending,
      hp.pending_nil, rfl, hp.peerOpen, rfl, hp.childOpen ▸ hp.service_le, hp.child_le⟩
  · exact hp

theorem tracks_writeTls {results : List (Io Nat)} (hresults : Io.failed ∉ results) :
    Mut.Spec (Tracks sessionLimit q toService toChild) (writeTls results)
      (fun _ => Tracks sessionLimit { q with outgoing := Queues.drained results q.outgoing }
        toService toChild) E := by
  induction results generalizing q with
  | nil => exact Mut.Spec.pure fun _ h => h
  | cons result results ih =>
    obtain ⟨hresult, hrest⟩ := not_or.mp (List.mem_cons.not.mp hresults)
    refine Mut.Spec.get_bind fun p hp => ?_
    rw [hp.outgoing]
    by_cases hempty : q.outgoing = 0
    · rw [if_pos hempty]
      refine Mut.Spec.pure fun _ h => ?_
      subst h
      rwa [hempty, Queues.drained_zero, ← hempty]
    · rw [if_neg hempty]
      cases result with
      | ok n =>
        simp only [Queues.drained]
        split
        · exact Mut.Spec.pure fun _ h => h ▸ hp
        · refine Mut.Spec.modify_bind ?_
          rintro _ rfl
          have hleft : q.outgoing - min n q.outgoing = q.outgoing - n := by omega
          simp only [hp.outgoing, hleft]
          exact ih hrest _ (hp.outgoing_eq (q.outgoing - n))
      | wouldBlock => exact Mut.Spec.pure fun _ h => h ▸ hp
      | failed => exact absurd rfl hresult

theorem serviceTotal_of_arrived {packets : Packets} (h : turn.arrived = some packets) :
    serviceTotal (turn :: turns) =
      packets.plaintext.length + if packets.peerHasClosed then 0 else serviceTotal turns := by
  rw [serviceTotal, h]

theorem serviceTotal_of_none (h : turn.arrived = none) :
    serviceTotal (turn :: turns) = serviceTotal turns := by
  rw [serviceTotal, h]

theorem Tracks.processed {packets : Packets} {rest : Nat}
    (h : Tracks sessionLimit q toService
      (packets.plaintext.length + if packets.peerHasClosed then 0 else rest) p)
    (hopen : q.peerOpen = true) :
    Tracks sessionLimit
      { q with
        outgoing := q.outgoing + packets.replies
        received := q.received + packets.plaintext.length
        peerOpen := !packets.peerHasClosed }
      toService rest (p.processed packets) := by
  have hle := h.child_le
  rw [if_pos hopen] at hle
  refine ⟨h.sessionLimit, ?_, ?_, h.pending, h.pending_nil, h.childOpen, rfl, h.closeNotifySent,
    h.service_le, ?_⟩
  · exact congrArg (· + _) h.outgoing
  · show (p.session.received ++ packets.plaintext).length = _
    rw [List.length_append, h.received]
  · show p.session.serviceToChildBytes + q.pending + (q.received + packets.plaintext.length) +
      (if !packets.peerHasClosed then rest else 0) ≤ p.session.serviceToChildLimit
    cases hclosed : packets.peerHasClosed with
    | true =>
      rw [hclosed] at hle
      simp only [Bool.not_true, Bool.false_eq_true, if_false]
      simp only [if_true] at hle
      omega
    | false =>
      rw [hclosed] at hle
      simp only [Bool.not_false, if_true]
      simp only [Bool.false_eq_true, if_false] at hle
      omega

/-- The connection is read unless it is over its limit. -/
theorem tracks_readTls {outgoing received : Nat} (hsome : turn.packets ≠ none)
    (hclean : turn.readTls ≠ .failed ∧ turn.readTls ≠ .ok 0) :
    Mut.Spec (Tracks sessionLimit q toService (serviceTotal (turn :: turns)))
      (readTls (turn.bounded limits outgoing received))
      (fun _ p => (q.peerOpen = true → received ≤ limits.received) ∧
        Tracks sessionLimit (q.readTls turn) toService (serviceTotal turns) p)
      (fun error _ => error = .tls .sessionIo ∧
        ¬(q.peerOpen = true → received ≤ limits.received)) := by
  refine Mut.Spec.get_bind fun p hp => ?_
  have hread : (turn.bounded limits outgoing received).readTls =
      if limits.received < received then .failed else turn.readTls := rfl
  have hsame : (turn.bounded limits outgoing received).packets = turn.packets := rfl
  rw [hp.peerOpen, hread, hsame]
  unfold Queues.readTls
  by_cases hopen : q.peerOpen = true
  · rw [if_pos hopen, hopen]
    by_cases hfull : limits.received < received
    · rw [if_pos hfull]
      exact Mut.Spec.fail fun _ _ => ⟨rfl, fun hroom => absurd (hroom rfl) (not_le.mpr hfull)⟩
    · rw [if_neg hfull]
      rcases hcases : turn.readTls with n | - | -
      · obtain ⟨packets, hpackets⟩ := Option.ne_none_iff_exists'.mp hsome
        have harrived : turn.arrived = some packets := by rw [Turn.arrived, hcases, hpackets]
        rw [harrived, hpackets]
        rw [serviceTotal_of_arrived harrived] at hp
        obtain ⟨n, rfl⟩ := Nat.exists_eq_succ_of_ne_zero fun hzero => hclean.2 (hzero ▸ hcases)
        refine Mut.Spec.modify fun _ h => ⟨fun _ => not_lt.mp hfull, ?_⟩
        subst h
        exact hp.processed hopen
      · have harrived : turn.arrived = none := by rw [Turn.arrived, hcases]
        rw [harrived]
        rw [serviceTotal_of_none harrived] at hp
        exact Mut.Spec.pure fun _ h => ⟨fun _ => not_lt.mp hfull, h ▸ hp⟩
      · exact absurd hcases hclean.1
  · have hclosed : q.peerOpen = false := (Bool.not_eq_true _).mp hopen
    have hle := hp.child_le
    rw [if_neg hopen] at hle
    simp only [hclosed]
    refine Mut.Spec.pure fun _ h => ?_
    subst h
    refine ⟨nofun, hp.sessionLimit, hp.outgoing, hp.received, hp.pending, hp.pending_nil,
      hp.childOpen, hp.peerOpen, hp.closeNotifySent, hp.service_le, ?_⟩
    rwa [if_neg hopen]

theorem Tracks.taken (h : Tracks sessionLimit q toService toChild p) (hpending : q.pending = 0)
    {count : Nat} (hpos : 0 < count) (hcount : count ≤ q.received) :
    Tracks sessionLimit { q with received := q.received - count, pending := count } toService
      toChild { p with
        session := { p.session with received := p.session.received.drop count }
        pendingChild := p.session.received.take count } := by
  have hoffset := h.pending
  rw [h.pending_nil hpending, List.length_nil] at hoffset
  have hle := h.child_le
  refine ⟨h.sessionLimit, h.outgoing, ?_, ?_, fun hzero => ?_, h.childOpen, h.peerOpen,
    h.closeNotifySent, h.service_le, ?_⟩
  · simp only [List.length_drop, h.received]
  · simp only [List.length_take, h.received]
    omega
  · exact absurd hzero hpos.ne'
  · simp only
    omega

theorem tracks_readPlaintext
    (hempty : turn.emptyRead = .nothing ∨ turn.emptyRead = .wouldBlock) :
    Mut.Spec (Tracks sessionLimit q toService toChild) (readPlaintext turn)
      (fun _ => Tracks sessionLimit (q.readPlaintext turn) toService toChild) E := by
  refine Mut.Spec.get_bind fun p hp => ?_
  have hle := hp.child_le
  unfold Queues.readPlaintext
  by_cases hpending : q.pending = 0
  · rw [if_pos (hp.pending_nil hpending), if_neg (by omega)]
    by_cases hreceived : p.session.received = []
    · have hzero : q.received = 0 := by rw [← hp.received, hreceived, List.length_nil]
      simp only [if_pos hreceived, hzero, ne_eq, not_true, and_false, if_false]
      rcases hempty with h | h
      · rw [h]
        exact Mut.Spec.pure fun _ h => h ▸ hp
      · rw [h]
        exact Mut.Spec.pure fun _ h => h ▸ hp
    · have hlength : 0 < q.received := hp.received ▸ List.length_pos_iff.mpr hreceived
      have hremaining : ¬p.session.serviceToChildLimit - p.session.serviceToChildBytes = 0 := by
        omega
      have hcount : max 1 (min turn.reads (min (min proxyBufferBytes
          (p.session.serviceToChildLimit - p.session.serviceToChildBytes))
          p.session.received.length)) =
          max 1 (min turn.reads (min proxyBufferBytes q.received)) := by
        rw [hp.received, Nat.min_assoc, Nat.min_eq_right (Nat.le_sub_of_add_le' (by omega))]
      simp only [if_neg hreceived, if_neg hremaining, hcount]
      rw [if_pos ⟨hpending, hlength.ne'⟩]
      refine Mut.Spec.modify_bind (Mut.Spec.modify fun _ h => ?_)
      subst h
      exact hp.taken hpending (by omega) (by omega)
  · rw [if_neg fun hnil => hpending (hp.pending_nil_iff.mp hnil), if_neg fun h => hpending h.1]
    exact Mut.Spec.pure fun _ h => h ▸ hp

theorem tracks_complete (hshutdown : turn.shutdown = true) :
    Mut.Spec (Tracks sessionLimit q toService toChild) (complete turn)
      (fun observation p =>
        (observation = none ↔ ¬q.Done) ∧ Tracks sessionLimit q toService toChild p) E := by
  refine Mut.Spec.get_bind fun p hp => ?_
  have hiff : ¬p.peerOpen = true ∧ p.pendingChild = [] ↔ q.Done := by
    rw [hp.peerOpen, hp.pending_nil_iff, Bool.not_eq_true]
    rfl
  by_cases hdone : q.Done
  · rw [if_pos (hiff.mpr hdone), if_pos hshutdown]
    refine Mut.Spec.pure fun _ h => ⟨?_, h ▸ hp⟩
    exact ⟨nofun, fun hnot => absurd hdone hnot⟩
  · rw [if_neg (hiff.not.mpr hdone)]
    exact Mut.Spec.pure fun _ h => ⟨iff_of_true rfl hdone, h ▸ hp⟩

theorem tracks_iteration (framing : Framing) (limits : BufferLimits)
    (hclean : Clean sessionLimit turn) :
    Mut.Spec (Tracks sessionLimit q (childTotal (turn :: turns)) (serviceTotal (turn :: turns)))
      (iteration framing (turn.bounded limits q.outgoing q.received))
      (fun observation p => q.Room turn limits ∧
        (observation = none ↔ ¬(q.next framing turn).Done) ∧
        Tracks sessionLimit (q.next framing turn) (childTotal turns) (serviceTotal turns) p)
      (fun error _ => error = .tls .sessionIo ∧ ¬q.Room turn limits) := by
  show Mut.Spec _ (do
    requireActive turn
    flushChild turn
    readChild framing (turn.bounded limits q.outgoing q.received)
    sendCloseNotify framing
    writeTls turn.writeTls
    readTls (turn.bounded limits q.outgoing q.received)
    readPlaintext turn
    complete turn) _ _
  refine Mut.Spec.bind (tracks_requireActive hclean.active) fun _ => ?_
  refine Mut.Spec.bind (tracks_flushChild hclean.childWrite) fun _ => ?_
  -- Only the read of the child and the read of the connection can fail.
  rw [← q.flushChild_outgoing turn]
  refine Mut.Spec.bind ((tracks_readChild framing hclean.childRead).mono (fun _ _ h => h)
    fun _ _ h => ⟨h.1, fun hroom => h.2 ?_⟩) fun _ => ?_
  · rw [q.flushChild_outgoing turn, q.flushChild_childOpen turn]
    exact hroom.1
  refine Mut.Spec.of_and fun hwriter => ?_
  rw [q.flushChild_outgoing turn, q.flushChild_childOpen turn] at hwriter
  refine Mut.Spec.bind (tracks_sendCloseNotify framing) fun _ => ?_
  refine Mut.Spec.bind (tracks_writeTls hclean.writeTls) fun _ => ?_
  have hpeer : (((q.flushChild turn).readChild framing turn).sendCloseNotify framing).peerOpen =
      q.peerOpen := by
    rw [Queues.sendCloseNotify_peerOpen, Queues.readChild_peerOpen, Queues.flushChild_peerOpen]
  refine Mut.Spec.bind ((tracks_readTls hclean.packets hclean.readTls).mono (fun _ _ h => h)
    fun _ _ h => ⟨h.1, fun hroom => h.2 ?_⟩) fun _ => ?_
  · rw [hpeer]
    exact hroom.2
  refine Mut.Spec.of_and fun hreader => ?_
  rw [hpeer] at hreader
  refine Mut.Spec.bind (tracks_readPlaintext hclean.emptyRead) fun _ => ?_
  exact (tracks_complete hclean.shutdown).mono (fun _ _ h => ⟨⟨hwriter, hreader⟩, h⟩)
    fun _ _ h => h

end Phases

/-! ## Exchanges that fit -/

/-- A run of clean turns fits and does not fail, or fails for want of room. -/
theorem run_bounded (framing : Framing) (limits : BufferLimits) {sessionLimit : Nat}
    {turns : List Turn} (hclean : ∀ turn ∈ turns, Clean sessionLimit turn) {q : Queues} {p : Proxy}
    (h : Tracks sessionLimit q (childTotal turns) (serviceTotal turns) p) :
    (Fits framing limits q turns ∧
        ∀ error last, p.run framing (p.bounded framing limits turns) ≠ .failed error last) ∨
      (¬Fits framing limits q turns ∧
        ∃ last, p.run framing (p.bounded framing limits turns) =
          .failed (.tls .sessionIo) last) := by
  induction turns generalizing q p with
  | nil => exact Or.inl ⟨trivial, fun _ _ h => Outcome.noConfusion h⟩
  | cons turn turns ih =>
    obtain ⟨hturn, hturns⟩ := List.forall_mem_cons.mp hclean
    have hspec := tracks_iteration framing limits hturn p h
    have hanswers : turn.bounded limits p.session.outgoing p.session.received.length =
        turn.bounded limits q.outgoing q.received := by
      rw [h.outgoing, h.received]
    rw [Proxy.bounded, hanswers, Fits]
    simp only [Proxy.run]
    rcases hiteration : iteration framing (turn.bounded limits q.outgoing q.received) p with
      ⟨error | observation, next⟩
    · rw [hiteration] at hspec
      obtain ⟨rfl, hroom⟩ := hspec
      exact Or.inr ⟨fun hfits => hroom hfits.1, next, rfl⟩
    · rw [hiteration] at hspec
      obtain ⟨hroom, hnone, hnext⟩ := hspec
      cases observation with
      | none =>
        have hdone := hnone.mp rfl
        rw [and_iff_right hroom, or_iff_right hdone]
        exact ih hturns hnext
      | some observation =>
        have hdone : (q.next framing turn).Done :=
          not_not.mp fun hnot => Option.some_ne_none _ (hnone.mpr hnot)
        exact Or.inl ⟨⟨hroom, Or.inl hdone⟩, fun _ _ h => Outcome.noConfusion h⟩

theorem tracks_start {sessionLimit childToServiceLimit serviceToChildLimit : Nat}
    (authenticatedNs outgoing : Nat) {received : List UInt8} {toService toChild : Nat}
    (hservice : toService ≤ childToServiceLimit)
    (hchild : received.length + toChild ≤ serviceToChildLimit) :
    Tracks sessionLimit (.start outgoing received.length) toService toChild
      (Proxy.start (.new sessionLimit childToServiceLimit serviceToChildLimit authenticatedNs
        outgoing received)) where
  sessionLimit := rfl
  outgoing := rfl
  received := rfl
  pending := rfl
  pending_nil := fun _ => rfl
  childOpen := rfl
  peerOpen := rfl
  closeNotifySent := rfl
  service_le := fun _ => (Nat.zero_add _).trans_le hservice
  child_le := by
    show 0 + 0 + received.length + toChild ≤ serviceToChildLimit
    omega

/-- An exchange within the limits, with endpoints that neither fail nor close
early, is proxied without an error before the deadline exactly when it fits the
buffers of the connection. -/
theorem proxyAuthenticatedChannel_ne_failed_iff (framing : Framing) (limits : BufferLimits)
    (sessionLimit childToServiceLimit serviceToChildLimit authenticatedNs outgoing : Nat)
    (received : List UInt8) (turns : List Turn)
    (hclean : ∀ turn ∈ turns, Clean sessionLimit turn)
    (hservice : childTotal turns ≤ childToServiceLimit)
    (hchild : received.length + serviceTotal turns ≤ serviceToChildLimit) :
    let session := AuthenticatedTlsSession.new sessionLimit childToServiceLimit
      serviceToChildLimit authenticatedNs outgoing received
    (∀ error last, proxyAuthenticatedChannel framing session true true
        ((Proxy.start session).bounded framing limits turns) ≠ .failed error last) ↔
      Fits framing limits (.start outgoing received.length) turns := by
  intro session
  have hcases := run_bounded framing limits hclean
    (tracks_start authenticatedNs outgoing hservice hchild)
  rcases hcases with ⟨hfits, hne⟩ | ⟨hfits, last, hfailed⟩
  · exact iff_of_true hne hfits
  · exact iff_of_false (fun hne => hne _ last hfailed) hfits

/-- The records of TLS 1.3 carry 16 KiB of plaintext each, with a header, a
content type and a tag. -/
def tls13 : Framing := ⟨fun n => n + 22 * ((n + 16383) / 16384), 24⟩

theorem clean_childTurn (bytes : List UInt8) : Clean 1 (childTurn bytes) := by
  simp [clean_iff, childTurn]

/-- Both ways, with plaintext received before the session: either side blocks, the
child takes less than it is offered, and it closes before the service does. -/
def sampleTurns : List Turn :=
  [{ childTurn [7, 8] with writeTls := [.wouldBlock], reads := 4 },
   { childTurn [9] with
      childWrite := .ok 1
      writeTls := [.ok 10, .wouldBlock]
      readTls := .ok 50
      packets := some ⟨[1, 2, 3], 4, false⟩ },
   { childTurn [] with childRead := .wouldBlock, writeTls := [.ok 100, .ok 100], reads := 4 },
   { childTurn [] with childWrite := .ok 1, reads := 4 },
   { childTurn [] with
      childWrite := .ok 1
      writeTls := [.ok 100]
      readTls := .ok 24
      packets := some ⟨[], 0, true⟩
      reads := 4 },
   { childTurn [] with childWrite := .ok 3 }]

/-- The exchange fits. -/
theorem proxyAuthenticatedChannel_ne_failed_sample :
    let session := AuthenticatedTlsSession.new 1 3 5 0 90 [5, 6]
    ∀ error last, proxyAuthenticatedChannel tls13 session true true
      ((Proxy.start session).bounded tls13 .default sampleTurns) ≠ .failed error last :=
  (proxyAuthenticatedChannel_ne_failed_iff tls13 .default 1 3 5 0 90 [5, 6] sampleTurns
    (by simp [sampleTurns, clean_iff, childTurn]) (by decide) (by decide)).mpr (by decide)

/-- A chunk of the child waits in the outgoing buffer. -/
theorem next_childTurn (framing : Framing) (outgoing : Nat) (hsome : bytes ≠ []) :
    (Queues.start outgoing 0).next framing (childTurn bytes) =
      .start (outgoing + framing.sealed (childTurn bytes).chunkLength) 0 := by
  obtain ⟨byte, bytes, rfl⟩ := List.exists_cons_of_ne_nil hsome
  rfl

/-- Three full chunks and their records leave no room for a fourth. -/
theorem not_fits_childTurn (hbytes : bytes.length = 16384) :
    ¬Fits tls13 .default (.start 0 0)
      [childTurn bytes, childTurn bytes, childTurn bytes, childTurn bytes] := by
  have hsome : bytes ≠ [] := List.ne_nil_of_length_eq_add_one hbytes
  have hlength : (childTurn bytes).chunkLength = 16384 := by
    rw [Turn.chunkLength_of_ok rfl, List.length_take, hbytes]
    rfl
  simp only [Fits, next_childTurn _ _ hsome, hlength, Queues.Room]
  decide

theorem childTotal_childTurn (hbytes : bytes.length = 16384) :
    childTotal [childTurn bytes, childTurn bytes, childTurn bytes, childTurn bytes] = 65536 := by
  have hlength : (childTurn bytes).chunkLength = 16384 := by
    rw [Turn.chunkLength_of_ok rfl, List.length_take, hbytes]
    rfl
  obtain ⟨byte, bytes, rfl⟩ := List.exists_cons_of_length_eq_add_one hbytes
  show (childTurn _).chunkLength + ((childTurn _).chunkLength + ((childTurn _).chunkLength +
    ((childTurn _).chunkLength + 0))) = 65536
  rw [hlength]

/-- The service socket blocks while the child sends 64 KiB, which its limit
permits. -/
theorem stalled_childTurn (hbytes : bytes.length = 16384) :
    let turns := [childTurn bytes, childTurn bytes, childTurn bytes, childTurn bytes]
    let session := AuthenticatedTlsSession.new 1 65536 0 0 0 []
    (∀ turn ∈ turns, Clean 1 turn) ∧ childTotal turns ≤ 65536 ∧ serviceTotal turns = 0 ∧
      ∃ last, proxyAuthenticatedChannel tls13 session true true
        ((Proxy.start session).bounded tls13 .default turns) = .failed (.tls .sessionIo) last := by
  intro turns session
  have hclean : ∀ turn ∈ turns, Clean 1 turn := by
    simp only [turns, List.mem_cons, List.not_mem_nil, or_false, or_self, forall_eq]
    exact clean_childTurn bytes
  have htotal : childTotal turns ≤ 65536 := (childTotal_childTurn hbytes).le
  have hservice : ([] : List UInt8).length + serviceTotal turns ≤ 0 := Nat.le_refl 0
  refine ⟨hclean, htotal, rfl, ?_⟩
  rcases run_bounded tls13 .default hclean (tracks_start 0 0 htotal hservice) with
    ⟨hfits, -⟩ | ⟨-, hfailed⟩
  · exact absurd hfits (not_fits_childTurn hbytes)
  · exact hfailed

theorem proxyAuthenticatedChannel_stalled :
    let turn := childTurn (List.replicate 16384 0)
    let turns := [turn, turn, turn, turn]
    let session := AuthenticatedTlsSession.new 1 65536 0 0 0 []
    (∀ turn ∈ turns, Clean 1 turn) ∧ childTotal turns ≤ 65536 ∧ serviceTotal turns = 0 ∧
      ∃ last, proxyAuthenticatedChannel tls13 session true true
        ((Proxy.start session).bounded tls13 .default turns) = .failed (.tls .sessionIo) last :=
  stalled_childTurn List.length_replicate

end ProofboundRuntime.Connector
