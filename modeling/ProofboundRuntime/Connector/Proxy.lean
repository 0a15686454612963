import ProofboundRuntime.Lib.Mut

/-!
# The proxy of an authenticated channel

`proxy_authenticated_channel` of the connector.  One iteration of its loop is a
method on the locals of the function, the session and a record of the bytes that
have crossed, which the code does not read.  What the two sockets and the TLS
connection answer in one iteration is a `Turn`.

The TLS connection is two queues: the bytes it has sealed for the service socket
and the plaintext it has received.  The counts of the session are `u64` in the
source; they stay below their limits, so no addition overflows.
-/

namespace ProofboundRuntime.Connector

/-- The `TlsError`s of an open session. -/
inductive TlsError where
  | authentication
  | sessionDeadline
  | childToServiceLimit
  | serviceToChildLimit
  | sessionIo
  | prematureClose
deriving DecidableEq

inductive ChannelError where
  | configuration
  | childRead
  | childWrite
  | tls (error : TlsError)
deriving DecidableEq

/-- `PROXY_BUFFER_BYTES`. -/
def proxyBufferBytes : Nat := 16 * 1024

/-- The result of a nonblocking operation. -/
inductive Io (α : Type) where
  | ok (value : α)
  | wouldBlock
  | failed
deriving DecidableEq

/-- What `process_new_packets` finds: plaintext, bytes to send in reply, and
whether the peer has closed. -/
structure Packets where
  plaintext : List UInt8
  replies : Nat
  peerHasClosed : Bool
deriving DecidableEq

/-- What the TLS reader answers when it has no plaintext. -/
inductive EmptyRead where
  | nothing
  | wouldBlock
  | unexpectedEof
  | failed
deriving DecidableEq

/-- The answers of one iteration. -/
structure Turn where
  /-- The age of the session in nanoseconds. -/
  elapsed : Nat
  /-- How much the child takes of what is offered. -/
  childWrite : Io Nat
  /-- What the child has written. -/
  childRead : Io (List UInt8)
  /-- How much the TLS writer accepts at most, or that it fails. -/
  accepts : Option Nat
  /-- The calls of `write_tls`. -/
  writeTls : List (Io Nat)
  /-- The bytes that `read_tls` takes from the service socket. -/
  readTls : Io Nat
  /-- `process_new_packets`. -/
  packets : Option Packets
  /-- How much the TLS reader returns at most when plaintext is there. -/
  reads : Nat
  emptyRead : EmptyRead
  /-- The child channel can be shut down. -/
  shutdown : Bool
  /-- The age of the session when the channel is closed. -/
  closed : Nat

/-- The part of `AuthenticatedTlsSession` that the proxy uses. -/
structure AuthenticatedTlsSession where
  sessionLimit : Nat
  childToServiceLimit : Nat
  serviceToChildLimit : Nat
  childToServiceBytes : Nat
  serviceToChildBytes : Nat
  authenticatedNs : Nat
  /-- The bytes that wait for the service socket. -/
  outgoing : Nat
  /-- The plaintext that was received and not read. -/
  received : List UInt8
deriving DecidableEq

/-- The bytes that have crossed. -/
structure Traffic where
  fromChild : List UInt8
  toTls : List UInt8
  fromService : List UInt8
  toChild : List UInt8
  peerClosed : Bool
deriving DecidableEq

structure Proxy where
  session : AuthenticatedTlsSession
  childOpen : Bool
  peerOpen : Bool
  closeNotifySent : Bool
  pendingChild : List UInt8
  pendingOffset : Nat
  traffic : Traffic
deriving DecidableEq

structure TrafficObservation where
  childToServiceBytes : Nat
  serviceToChildBytes : Nat
  activeNs : Nat
  closedNs : Nat
deriving DecidableEq

/-- How the TLS connection seals what it is given: the bytes that a write of
some plaintext and a close notification add to the outgoing queue. -/
structure Framing where
  sealed : Nat → Nat
  closeNotify : Nat

abbrev ProxyM := Mut Proxy ChannelError

/-- A session as `authenticate_service` leaves it. -/
def AuthenticatedTlsSession.new (sessionLimit childToServiceLimit serviceToChildLimit
    authenticatedNs outgoing : Nat) (received : List UInt8) : AuthenticatedTlsSession :=
  ⟨sessionLimit, childToServiceLimit, serviceToChildLimit, 0, 0, authenticatedNs, outgoing,
    received⟩

/-- The locals before the loop. -/
def Proxy.start (session : AuthenticatedTlsSession) : Proxy where
  session := session
  childOpen := true
  peerOpen := true
  closeNotifySent := false
  pendingChild := []
  pendingOffset := 0
  traffic := ⟨[], [], session.received, [], false⟩

/-! ## One iteration -/

def requireActive (turn : Turn) : ProxyM Unit := do
  let p ← Mut.get
  if p.session.sessionLimit ≤ turn.elapsed then Mut.fail (.tls .sessionDeadline) else pure ()

/-- The first bytes of what is pending have been written to the child. -/
def Proxy.flushed (p : Proxy) (count : Nat) : Proxy where
  __ := p
  session := { p.session with serviceToChildBytes := p.session.serviceToChildBytes + count }
  pendingChild := if p.pendingOffset + count = p.pendingChild.length then [] else p.pendingChild
  pendingOffset :=
    if p.pendingOffset + count = p.pendingChild.length then 0 else p.pendingOffset + count
  traffic := { p.traffic with
    toChild := p.traffic.toChild ++ (p.pendingChild.drop p.pendingOffset).take count }

def flushChild (turn : Turn) : ProxyM Unit := do
  let p ← Mut.get
  if p.pendingOffset < p.pendingChild.length then
    match turn.childWrite with
    | .ok n =>
      let count := min n (p.pendingChild.length - p.pendingOffset)
      if count = 0 then Mut.fail .childWrite else Mut.modify fun p => p.flushed count
    | .wouldBlock => pure ()
    | .failed => Mut.fail .childWrite
  else pure ()

/-- The TLS writer has taken the first bytes of a chunk. -/
def Proxy.handed (framing : Framing) (p : Proxy) (chunk : List UInt8) (count : Nat) : Proxy where
  __ := p
  session := { p.session with outgoing := p.session.outgoing + framing.sealed count }
  traffic := { p.traffic with toTls := p.traffic.toTls ++ chunk.take count }

/-- A chunk of the child is handed to TLS as a whole, or the proxy fails. -/
def forwardChunk (framing : Framing) (turn : Turn) (chunk : List UInt8) : ProxyM Unit := do
  Mut.modify fun p =>
    { p with traffic := { p.traffic with fromChild := p.traffic.fromChild ++ chunk } }
  let p ← Mut.get
  if p.session.childToServiceLimit < p.session.childToServiceBytes + chunk.length then
    Mut.fail (.tls .childToServiceLimit)
  else
    match turn.accepts with
    | none => Mut.fail (.tls .sessionIo)
    | some n => do
      let accepted := min n chunk.length
      Mut.modify fun p => p.handed framing chunk accepted
      if accepted ≠ chunk.length then Mut.fail (.tls .sessionIo)
      else Mut.modify fun p => { p with session := { p.session with
        childToServiceBytes := p.session.childToServiceBytes + chunk.length } }

def readChild (framing : Framing) (turn : Turn) : ProxyM Unit := do
  let p ← Mut.get
  if p.childOpen then
    match turn.childRead with
    | .ok bytes =>
      let chunk := bytes.take proxyBufferBytes
      if chunk = [] then Mut.modify fun p => { p with childOpen := false }
      else forwardChunk framing turn chunk
    | .wouldBlock => pure ()
    | .failed => Mut.fail .childRead
  else pure ()

def sendCloseNotify (framing : Framing) : ProxyM Unit :=
  Mut.modify fun p =>
    if ¬p.childOpen ∧ ¬p.closeNotifySent then
      { p with
        session := { p.session with outgoing := p.session.outgoing + framing.closeNotify }
        closeNotifySent := true }
    else p

/-- The inner loop, which ends when nothing is queued or the socket takes
nothing more. -/
def writeTls : List (Io Nat) → ProxyM Unit
  | [] => pure ()
  | result :: results => do
    let p ← Mut.get
    if p.session.outgoing = 0 then pure ()
    else
      match result with
      | .ok n =>
        if min n p.session.outgoing = 0 then pure ()
        else do
          Mut.modify fun p => { p with session := { p.session with
            outgoing := p.session.outgoing - min n p.session.outgoing } }
          writeTls results
      | .wouldBlock => pure ()
      | .failed => Mut.fail (.tls .sessionIo)

/-- The packets have been processed. -/
def Proxy.processed (p : Proxy) (packets : Packets) : Proxy where
  __ := p
  session := { p.session with
    outgoing := p.session.outgoing + packets.replies
    received := p.session.received ++ packets.plaintext }
  peerOpen := !packets.peerHasClosed
  traffic := { p.traffic with
    fromService := p.traffic.fromService ++ packets.plaintext
    peerClosed := packets.peerHasClosed }

def readTls (turn : Turn) : ProxyM Unit := do
  let p ← Mut.get
  if p.peerOpen then
    match turn.readTls with
    | .ok 0 => Mut.fail (.tls .prematureClose)
    | .ok _ =>
      match turn.packets with
      | none => Mut.fail (.tls .authentication)
      | some packets => Mut.modify fun p => p.processed packets
    | .wouldBlock => pure ()
    | .failed => Mut.fail (.tls .sessionIo)
  else pure ()

/-- The reader returns plaintext while there is some, whatever it would answer
otherwise. -/
def readPlaintext (turn : Turn) : ProxyM Unit := do
  let p ← Mut.get
  if p.pendingChild = [] then
    if p.session.serviceToChildLimit < p.session.serviceToChildBytes then
      Mut.fail (.tls .serviceToChildLimit)
    else
      let remaining := p.session.serviceToChildLimit - p.session.serviceToChildBytes
      let permitted := if remaining = 0 then 1 else min proxyBufferBytes remaining
      if p.session.received = [] then
        match turn.emptyRead with
        | .nothing => pure ()
        | .wouldBlock => pure ()
        | .unexpectedEof => Mut.fail (.tls .prematureClose)
        | .failed => Mut.fail (.tls .sessionIo)
      else do
        let count := max 1 (min turn.reads (min permitted p.session.received.length))
        Mut.modify fun p =>
          { p with session := { p.session with received := p.session.received.drop count } }
        if remaining = 0 then Mut.fail (.tls .serviceToChildLimit)
        else Mut.modify fun q => { q with pendingChild := p.session.received.take count }
  else pure ()

def complete (turn : Turn) : ProxyM (Option TrafficObservation) := do
  let p ← Mut.get
  if ¬p.peerOpen ∧ p.pendingChild = [] then
    if turn.shutdown then
      pure (some
        { childToServiceBytes := p.session.childToServiceBytes
          serviceToChildBytes := p.session.serviceToChildBytes
          activeNs := p.session.authenticatedNs
          closedNs := min (p.session.authenticatedNs + turn.closed) (2 ^ 64 - 1) })
    else Mut.fail .childWrite
  else pure none

/-- The body of the loop.  It returns an observation when the channel is
closed. -/
def iteration (framing : Framing) (turn : Turn) : ProxyM (Option TrafficObservation) := do
  requireActive turn
  flushChild turn
  readChild framing turn
  sendCloseNotify framing
  writeTls turn.writeTls
  readTls turn
  readPlaintext turn
  complete turn

/-! ## The loop -/

inductive Outcome where
  | running (p : Proxy)
  | closed (observation : TrafficObservation) (p : Proxy)
  | failed (error : ChannelError) (p : Proxy)
deriving DecidableEq

/-- The loop over the answers of each iteration. -/
def Proxy.run (framing : Framing) (p : Proxy) : List Turn → Outcome
  | [] => .running p
  | turn :: turns =>
    match iteration framing turn p with
    | (.ok none, next) => next.run framing turns
    | (.ok (some observation), next) => .closed observation next
    | (.error error, next) => .failed error next

/-- The two booleans say that the sockets could be made nonblocking. -/
def proxyAuthenticatedChannel (framing : Framing) (session : AuthenticatedTlsSession)
    (channel service : Bool) (turns : List Turn) : Outcome :=
  if channel ∧ service then (Proxy.start session).run framing turns
  else .failed .configuration (Proxy.start session)

end ProofboundRuntime.Connector
