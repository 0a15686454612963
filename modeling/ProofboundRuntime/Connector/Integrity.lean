import ProofboundRuntime.Connector.Proxy

/-!
# Byte integrity of the proxy

Between two iterations every byte of the child is with TLS, and every byte of
the service is with the child, pending, or still in the connection.  `Intact` is
this invariant; each phase of an iteration keeps it or fails with `Broken`,
which keeps the order of the bytes and the limits.
-/

namespace ProofboundRuntime.Connector

/-- Nothing is lost or repeated, and the counts are those of the bytes. -/
structure Intact (p : Proxy) : Prop where
  toTls : p.traffic.toTls = p.traffic.fromChild
  fromService : p.traffic.fromService =
    p.traffic.toChild ++ p.pendingChild.drop p.pendingOffset ++ p.session.received
  childToService : p.session.childToServiceBytes = p.traffic.toTls.length
  serviceToChild : p.session.serviceToChildBytes = p.traffic.toChild.length
  childToService_le : p.session.childToServiceBytes ≤ p.session.childToServiceLimit
  serviceToChild_le : p.session.serviceToChildBytes +
    (p.pendingChild.length - p.pendingOffset) ≤ p.session.serviceToChildLimit
  pending : p.pendingChild = [] ∧ p.pendingOffset = 0 ∨ p.pendingOffset < p.pendingChild.length
  peerOpen : p.peerOpen = !p.traffic.peerClosed

/-- What a failure leaves.  The last chunk of the child may have been read and
not handed to TLS, or only in part, when its limit or the TLS writer refused
it. -/
structure Broken (error : ChannelError) (p : Proxy) : Prop where
  lastChunk : ∃ sent chunk taken, p.traffic.fromChild = sent ++ chunk ∧
    p.traffic.toTls = sent ++ chunk.take taken ∧ p.session.childToServiceBytes = sent.length ∧
    chunk.length ≤ proxyBufferBytes ∧
    (chunk ≠ [] → error = .tls .childToServiceLimit ∨ error = .tls .sessionIo)
  toChild : p.traffic.toChild <+: p.traffic.fromService
  serviceToChild : p.session.serviceToChildBytes = p.traffic.toChild.length
  childToService_le : p.session.childToServiceBytes ≤ p.session.childToServiceLimit
  serviceToChild_le : p.session.serviceToChildBytes ≤ p.session.serviceToChildLimit

/-- What a close leaves: the peer has closed and everything was delivered. -/
structure Delivered (observation : TrafficObservation) (p : Proxy) : Prop where
  peerClosed : p.traffic.peerClosed = true
  toTls : p.traffic.toTls = p.traffic.fromChild
  toChild : p.traffic.toChild = p.traffic.fromService
  childToService : observation.childToServiceBytes = p.traffic.toTls.length
  serviceToChild : observation.serviceToChildBytes = p.traffic.toChild.length
  childToService_le : observation.childToServiceBytes ≤ p.session.childToServiceLimit
  serviceToChild_le : observation.serviceToChildBytes ≤ p.session.serviceToChildLimit

variable {p : Proxy}

theorem Intact.toChild_prefix (h : Intact p) : p.traffic.toChild <+: p.traffic.fromService := by
  rw [h.fromService, List.append_assoc]
  exact List.prefix_append _ _

theorem Intact.serviceToChild_le_limit (h : Intact p) :
    p.session.serviceToChildBytes ≤ p.session.serviceToChildLimit :=
  (Nat.le_add_right _ _).trans h.serviceToChild_le

variable {error : ChannelError}

theorem Intact.broken (h : Intact p) : Broken error p where
  lastChunk := by
    refine ⟨p.traffic.toTls, [], 0, ?_, ?_, h.childToService, Nat.zero_le _, fun hne => ?_⟩
    · rw [List.append_nil, h.toTls]
    · rw [List.take_nil, List.append_nil]
    · exact absurd rfl hne
  toChild := h.toChild_prefix
  serviceToChild := h.serviceToChild
  childToService_le := h.childToService_le
  serviceToChild_le := h.serviceToChild_le_limit

/-! ## The phases -/

/-- The phase keeps the invariant or fails. -/
def Keeps (phase : ProxyM Unit) : Prop :=
  Mut.Spec Intact phase (fun _ => Intact) Broken

theorem keeps_pure : Keeps (pure ()) := Mut.Spec.pure fun _ h => h

theorem keeps_requireActive (turn : Turn) : Keeps (requireActive turn) := by
  refine Mut.Spec.get_bind fun p hp => ?_
  split
  · exact Mut.Spec.fail fun _ h => h ▸ hp.broken
  · exact Mut.Spec.pure fun _ h => h ▸ hp

theorem Intact.flushed (h : Intact p) {count : Nat}
    (hcount : count ≤ p.pendingChild.length - p.pendingOffset) : Intact (p.flushed count) := by
  have hsplit : p.pendingChild.drop p.pendingOffset =
      (p.pendingChild.drop p.pendingOffset).take count ++
        p.pendingChild.drop (p.pendingOffset + count) := by
    rw [← List.drop_drop, List.take_append_drop]
  have hlength : ((p.pendingChild.drop p.pendingOffset).take count).length = count := by
    rw [List.length_take, List.length_drop]
    omega
  have htotal := h.serviceToChild_le
  have hfrom : p.traffic.fromService = p.traffic.toChild ++
      (p.pendingChild.drop p.pendingOffset).take count ++
        p.pendingChild.drop (p.pendingOffset + count) ++ p.session.received := by
    rw [h.fromService]
    conv_lhs => rw [hsplit]
    simp only [List.append_assoc]
  have hbytes : p.session.serviceToChildBytes + count =
      (p.traffic.toChild ++ (p.pendingChild.drop p.pendingOffset).take count).length := by
    rw [List.length_append, hlength, h.serviceToChild]
  unfold Proxy.flushed
  by_cases hdone : p.pendingOffset + count = p.pendingChild.length
  · simp only [if_pos hdone]
    refine ⟨h.toTls, ?_, h.childToService, hbytes, h.childToService_le, ?_, Or.inl ⟨rfl, rfl⟩,
      h.peerOpen⟩
    · rw [hfrom, hdone, List.drop_length, List.drop_nil]
    · simp only [List.length_nil]
      omega
  · simp only [if_neg hdone]
    refine ⟨h.toTls, hfrom, h.childToService, hbytes, h.childToService_le, ?_, ?_, h.peerOpen⟩
    · simp only
      omega
    · rcases h.pending with ⟨hempty, hoffset⟩ | hlt
      · simp only [hempty, List.length_nil] at hcount hdone
        omega
      · simp only
        omega

theorem keeps_flushChild (turn : Turn) : Keeps (flushChild turn) := by
  refine Mut.Spec.get_bind fun p hp => ?_
  split
  · cases turn.childWrite with
    | ok n =>
      show Mut.Spec _ (if _ then _ else _) _ _
      split
      · exact Mut.Spec.fail fun _ h => h ▸ hp.broken
      · refine Mut.Spec.modify fun _ h => ?_
        subst h
        exact hp.flushed (Nat.min_le_right _ _)
    | wouldBlock => exact Mut.Spec.pure fun _ h => h ▸ hp
    | failed => exact Mut.Spec.fail fun _ h => h ▸ hp.broken
  · exact Mut.Spec.pure fun _ h => h ▸ hp

variable {chunk : List UInt8}

/-- A chunk was read, and its first bytes were handed to TLS. -/
theorem Intact.broken_of_chunk (h : Intact p) (hsize : chunk.length ≤ proxyBufferBytes)
    (herror : error = .tls .childToServiceLimit ∨ error = .tls .sessionIo) (outgoing count : Nat) :
    Broken error { p with
      session := { p.session with outgoing := outgoing }
      traffic := { p.traffic with
        fromChild := p.traffic.fromChild ++ chunk
        toTls := p.traffic.toTls ++ chunk.take count } } where
  lastChunk := ⟨p.traffic.toTls, chunk, count, by rw [h.toTls], rfl, h.childToService, hsize,
    fun _ => herror⟩
  toChild := h.toChild_prefix
  serviceToChild := h.serviceToChild
  childToService_le := h.childToService_le
  serviceToChild_le := h.serviceToChild_le_limit

theorem Intact.broken_of_read (h : Intact p) (hsize : chunk.length ≤ proxyBufferBytes)
    (herror : error = .tls .childToServiceLimit ∨ error = .tls .sessionIo) :
    Broken error
      { p with traffic := { p.traffic with fromChild := p.traffic.fromChild ++ chunk } } := by
  have hbroken := h.broken_of_chunk hsize herror p.session.outgoing 0
  rwa [List.take_zero, List.append_nil] at hbroken

/-- A chunk that the limit admits was handed to TLS as a whole. -/
theorem Intact.forwarded (h : Intact p) (chunk : List UInt8) (outgoing : Nat)
    (hlimit : p.session.childToServiceBytes + chunk.length ≤ p.session.childToServiceLimit) :
    Intact { p with
      session := { p.session with
        outgoing := outgoing
        childToServiceBytes := p.session.childToServiceBytes + chunk.length }
      traffic := { p.traffic with
        fromChild := p.traffic.fromChild ++ chunk
        toTls := p.traffic.toTls ++ chunk } } where
  toTls := by rw [h.toTls]
  fromService := h.fromService
  childToService := by rw [List.length_append, h.childToService]
  serviceToChild := h.serviceToChild
  childToService_le := hlimit
  serviceToChild_le := h.serviceToChild_le
  pending := h.pending
  peerOpen := h.peerOpen

theorem keeps_forwardChunk (framing : Framing) (turn : Turn)
    (hsize : chunk.length ≤ proxyBufferBytes) : Keeps (forwardChunk framing turn chunk) := by
  refine Mut.Spec.bind (R := fun _ q => ∃ p, Intact p ∧ q =
    { p with traffic := { p.traffic with fromChild := p.traffic.fromChild ++ chunk } })
    (Mut.Spec.modify fun p hp => ⟨p, hp, rfl⟩) fun _ => Mut.Spec.get_bind ?_
  rintro _ ⟨p, hp, rfl⟩
  split
  · exact Mut.Spec.fail fun _ h => h ▸ hp.broken_of_read hsize (Or.inl rfl)
  · rename_i hlimit
    cases turn.accepts with
    | none => exact Mut.Spec.fail fun _ h => h ▸ hp.broken_of_read hsize (Or.inr rfl)
    | some n =>
      refine Mut.Spec.modify_bind ?_
      split
      · exact Mut.Spec.fail fun _ h => h ▸ hp.broken_of_chunk hsize (Or.inr rfl) _ _
      · rename_i hwhole
        refine Mut.Spec.modify fun _ h => ?_
        have hforwarded := hp.forwarded chunk
          (p.session.outgoing + framing.sealed chunk.length) (not_lt.mp hlimit)
        subst h
        rwa [not_not.mp hwhole, Proxy.handed, List.take_length]

theorem keeps_readChild (framing : Framing) (turn : Turn) : Keeps (readChild framing turn) := by
  refine Mut.Spec.get_bind fun p hp => ?_
  split
  · cases turn.childRead with
    | ok bytes =>
      show Mut.Spec _ (if _ then _ else _) _ _
      split
      · refine Mut.Spec.modify fun _ h => ?_
        subst h
        exact ⟨hp.toTls, hp.fromService, hp.childToService, hp.serviceToChild,
          hp.childToService_le, hp.serviceToChild_le, hp.pending, hp.peerOpen⟩
      · rintro _ rfl
        exact keeps_forwardChunk framing turn (List.length_take_le _ _) _ hp
    | wouldBlock => exact Mut.Spec.pure fun _ h => h ▸ hp
    | failed => exact Mut.Spec.fail fun _ h => h ▸ hp.broken
  · exact Mut.Spec.pure fun _ h => h ▸ hp

/-- The outgoing queue is not part of the invariant. -/
theorem Intact.outgoing (h : Intact p) (outgoing : Nat) :
    Intact { p with session := { p.session with outgoing := outgoing } } :=
  ⟨h.toTls, h.fromService, h.childToService, h.serviceToChild, h.childToService_le,
    h.serviceToChild_le, h.pending, h.peerOpen⟩

theorem keeps_sendCloseNotify (framing : Framing) : Keeps (sendCloseNotify framing) := by
  refine Mut.Spec.modify fun p hp => ?_
  split
  · have h := hp.outgoing (p.session.outgoing + framing.closeNotify)
    exact ⟨h.toTls, h.fromService, h.childToService, h.serviceToChild, h.childToService_le,
      h.serviceToChild_le, h.pending, h.peerOpen⟩
  · exact hp

theorem keeps_writeTls (results : List (Io Nat)) : Keeps (writeTls results) := by
  induction results with
  | nil => exact keeps_pure
  | cons result results ih =>
    refine Mut.Spec.get_bind fun p hp => ?_
    split
    · exact Mut.Spec.pure fun _ h => h ▸ hp
    · cases result with
      | ok n =>
        show Mut.Spec _ (if _ then _ else _) _ _
        split
        · exact Mut.Spec.pure fun _ h => h ▸ hp
        · refine Mut.Spec.modify_bind ?_
          rintro _ rfl
          exact ih _ (hp.outgoing _)
      | wouldBlock => exact Mut.Spec.pure fun _ h => h ▸ hp
      | failed => exact Mut.Spec.fail fun _ h => h ▸ hp.broken

theorem Intact.processed (h : Intact p) (packets : Packets) :
    Intact (p.processed packets) where
  toTls := h.toTls
  fromService := by
    show p.traffic.fromService ++ packets.plaintext = _ ++ (p.session.received ++ packets.plaintext)
    rw [h.fromService, List.append_assoc _ p.session.received]
    rfl
  childToService := h.childToService
  serviceToChild := h.serviceToChild
  childToService_le := h.childToService_le
  serviceToChild_le := h.serviceToChild_le
  pending := h.pending
  peerOpen := rfl

theorem keeps_readTls (turn : Turn) : Keeps (readTls turn) := by
  refine Mut.Spec.get_bind fun p hp => ?_
  split
  · split
    · exact Mut.Spec.fail fun _ h => h ▸ hp.broken
    · cases turn.packets with
      | none => exact Mut.Spec.fail fun _ h => h ▸ hp.broken
      | some packets =>
        refine Mut.Spec.modify fun _ h => ?_
        subst h
        exact hp.processed packets
    · exact Mut.Spec.pure fun _ h => h ▸ hp
    · exact Mut.Spec.fail fun _ h => h ▸ hp.broken
  · exact Mut.Spec.pure fun _ h => h ▸ hp

/-- The plaintext that was taken is pending, and it is within the limit. -/
theorem Intact.taken (h : Intact p) (hempty : p.pendingChild = []) {count : Nat} (hpos : 0 < count)
    (hcount : count ≤ p.session.received.length)
    (hlimit : count ≤ p.session.serviceToChildLimit - p.session.serviceToChildBytes) :
    Intact { p with
      session := { p.session with received := p.session.received.drop count }
      pendingChild := p.session.received.take count } := by
  have hoffset : p.pendingOffset = 0 := by
    rcases h.pending with ⟨-, hoffset⟩ | hlt
    · exact hoffset
    · rw [hempty] at hlt
      exact absurd hlt (Nat.not_lt_zero _)
  have hlength : (p.session.received.take count).length = count :=
    List.length_take_of_le hcount
  have hle := h.serviceToChild_le_limit
  refine ⟨h.toTls, ?_, h.childToService, h.serviceToChild, h.childToService_le, ?_, Or.inr ?_,
    h.peerOpen⟩
  · simp only [hoffset, List.drop_zero, List.append_assoc, List.take_append_drop]
    rw [h.fromService, hempty, List.drop_nil, List.append_nil]
  · simp only [hlength, hoffset]
    omega
  · simp only [hlength, hoffset]
    exact hpos

/-- Nothing is pending only when no plaintext is left. -/
theorem readPlaintext_spec (turn : Turn) :
    Mut.Spec Intact (readPlaintext turn)
      (fun _ q => Intact q ∧ (q.pendingChild = [] → q.session.received = [])) Broken := by
  refine Mut.Spec.get_bind fun p hp => ?_
  by_cases hempty : p.pendingChild = []
  · rw [if_pos hempty, if_neg (not_lt.mpr hp.serviceToChild_le_limit)]
    by_cases hreceived : p.session.received = []
    · simp only [if_pos hreceived]
      cases turn.emptyRead with
      | nothing | wouldBlock => exact Mut.Spec.pure fun _ h => h ▸ ⟨hp, fun _ => hreceived⟩
      | unexpectedEof | failed => exact Mut.Spec.fail fun _ h => h ▸ hp.broken
    · simp only [if_neg hreceived]
      refine Mut.Spec.modify_bind ?_
      have hlength := List.length_pos_iff.mpr hreceived
      split
      · refine Mut.Spec.fail fun _ h => ?_
        subst h
        have hb : Broken (.tls .serviceToChildLimit) p := hp.broken
        exact ⟨hb.lastChunk, hb.toChild, hb.serviceToChild, hb.childToService_le,
          hb.serviceToChild_le⟩
      · rename_i hremaining
        refine Mut.Spec.modify fun _ h => ?_
        subst h
        refine ⟨hp.taken hempty (by omega) (by omega) (by omega), fun hnone => ?_⟩
        -- At least one byte was taken, so something is pending.
        rcases List.take_eq_nil_iff.mp hnone with hcount | hnil
        · omega
        · exact absurd hnil hreceived
  · rw [if_neg hempty]
    exact Mut.Spec.pure fun _ h => h ▸ ⟨hp, fun hnone => absurd hnone hempty⟩

theorem complete_spec (turn : Turn) :
    Mut.Spec (fun p => Intact p ∧ (p.pendingChild = [] → p.session.received = []))
      (complete turn)
      (fun observation p => match observation with
        | none => Intact p
        | some observation => Delivered observation p)
      Broken := by
  refine Mut.Spec.get_bind fun p hp => ?_
  obtain ⟨hp, hdrained⟩ := hp
  split
  · rename_i hdone
    obtain ⟨hclosed, hempty⟩ := hdone
    split
    · refine Mut.Spec.pure fun _ h => ?_
      subst h
      refine ⟨?_, hp.toTls, ?_, hp.childToService, hp.serviceToChild, hp.childToService_le,
        hp.serviceToChild_le_limit⟩
      · simpa [hp.peerOpen] using hclosed
      · rw [hp.fromService, hempty, hdrained hempty, List.drop_nil, List.append_nil,
          List.append_nil]
    · exact Mut.Spec.fail fun _ h => h ▸ hp.broken
  · exact Mut.Spec.pure fun _ h => h ▸ hp

/-! ## The loop -/

theorem iteration_spec (framing : Framing) (turn : Turn) :
    Mut.Spec Intact (iteration framing turn)
      (fun observation p => match observation with
        | none => Intact p
        | some observation => Delivered observation p)
      Broken :=
  Mut.Spec.bind (keeps_requireActive turn) fun _ =>
  Mut.Spec.bind (keeps_flushChild turn) fun _ =>
  Mut.Spec.bind (keeps_readChild framing turn) fun _ =>
  Mut.Spec.bind (keeps_sendCloseNotify framing) fun _ =>
  Mut.Spec.bind (keeps_writeTls turn.writeTls) fun _ =>
  Mut.Spec.bind (keeps_readTls turn) fun _ =>
  Mut.Spec.bind (readPlaintext_spec turn) fun _ => complete_spec turn

/-- What holds of the traffic when the loop stops, or is at the start of an
iteration. -/
def Outcome.Integrity : Outcome → Prop
  | .running p => Intact p
  | .closed observation p => Delivered observation p
  | .failed error p => Broken error p

theorem Intact.run (framing : Framing) (turns : List Turn) (h : Intact p) :
    (p.run framing turns).Integrity := by
  induction turns generalizing p with
  | nil => exact h
  | cons turn turns ih =>
    have hspec := iteration_spec framing turn p h
    rw [Proxy.run]
    rcases hiteration : iteration framing turn p with ⟨_ | (_ | observation), next⟩
    · rwa [hiteration] at hspec
    · rw [hiteration] at hspec
      exact ih hspec
    · rwa [hiteration] at hspec

theorem intact_start (session : AuthenticatedTlsSession)
    (hcounts : session.childToServiceBytes = 0 ∧ session.serviceToChildBytes = 0) :
    Intact (Proxy.start session) where
  toTls := rfl
  fromService := rfl
  childToService := hcounts.1
  serviceToChild := hcounts.2
  childToService_le := by simp only [Proxy.start, hcounts.1, Nat.zero_le]
  serviceToChild_le := by
    simp only [Proxy.start, hcounts.2, List.length_nil]
    exact Nat.zero_le _
  pending := Or.inl ⟨rfl, rfl⟩
  peerOpen := rfl

/-- The integrity of a channel, whatever its sockets answer. -/
theorem proxyAuthenticatedChannel_integrity (framing : Framing)
    (sessionLimit childToServiceLimit serviceToChildLimit authenticatedNs outgoing : Nat)
    (received : List UInt8) (channel service : Bool) (turns : List Turn) :
    (proxyAuthenticatedChannel framing
      (.new sessionLimit childToServiceLimit serviceToChildLimit authenticatedNs outgoing received)
      channel service turns).Integrity := by
  have hstart : Intact (Proxy.start (.new sessionLimit childToServiceLimit serviceToChildLimit
      authenticatedNs outgoing received)) := intact_start _ ⟨rfl, rfl⟩
  unfold proxyAuthenticatedChannel
  split
  · exact hstart.run framing turns
  · exact hstart.broken

/-- A turn in which the child has written some bytes and nothing else
happens. -/
def childTurn (bytes : List UInt8) : Turn where
  elapsed := 0
  childWrite := .wouldBlock
  childRead := .ok bytes
  accepts := some 65536
  writeTls := []
  readTls := .wouldBlock
  packets := some ⟨[], 0, false⟩
  reads := 0
  emptyRead := .wouldBlock
  shutdown := true
  closed := 0

/-- Two bytes are read from the child where one is permitted, and none of them is
handed to TLS. -/
theorem proxyAuthenticatedChannel_over_limit :
    ∃ p, proxyAuthenticatedChannel ⟨fun n => n + 22, 24⟩ (.new 1 1 0 0 0 []) true true
        [childTurn [1, 2]] = .failed (.tls .childToServiceLimit) p ∧
      p.traffic.fromChild = [1, 2] ∧ p.traffic.toTls = [] := by
  refine ⟨_, rfl, rfl, rfl⟩

end ProofboundRuntime.Connector
