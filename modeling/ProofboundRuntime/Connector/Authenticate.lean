import ProofboundRuntime.Connector.Resolution
import ProofboundRuntime.Lib.Sha256

/-!
# Endpoint selection and authentication

`authenticate_service` of the connector: one TCP connection to the first endpoint of a
resolution that accepts it, and the TLS handshake on it.

The clock is a sequence of readings, and a method keeps count of those it has made.
The result of each connection attempt and what the TLS library makes of the
connection are parameters: `Network`.
-/

namespace ProofboundRuntime.Connector.Authenticate

open Result
open ProofboundRuntime.Core (ServiceName Sha256Digest)
open Connector.Dns (DnsAnswer IpAddr)

/-! ## Types -/

inductive EndpointAttemptResult where
  | refused
  | timedOut
  | failed
  | connected
deriving DecidableEq

abbrev SocketAddr := IpAddr × Nat

structure EndpointAttempt where
  ordinal : Nat
  endpoint : SocketAddr
  result : EndpointAttemptResult
  startedNs : Nat
  finishedNs : Nat
deriving DecidableEq

/-- The `TlsError`s of `authenticate_service`. -/
inductive TlsError where
  | endpointUnavailable
  | endpointAttemptLimit
  | endpointAttemptDeadline
  | setupDeadline
  | answerExpired
  | trustRootSetInvalid
  | serviceNameInvalid
  | serviceNameMismatch
  | configuration
  | authentication
  | resumption
  | version
  | handshakeLimit
  | certificateChainMissing
  | sessionDeadline
deriving DecidableEq

structure AuthenticateError where
  kind : TlsError
  attempts : List EndpointAttempt
deriving DecidableEq

/-- The kinds of `io::Error` that are told apart. -/
inductive ErrorKind where
  | connectionRefused
  | timedOut
  | wouldBlock
  | outOfMemory
  | other
deriving DecidableEq

inductive MinimumTlsVersion where
  | tls12
  | tls13
deriving DecidableEq

inductive TlsVersion where
  | tls12
  | tls13
deriving DecidableEq

/-- `rustls::ProtocolVersion`. -/
inductive ProtocolVersion where
  | tls12
  | tls13
  | other
deriving DecidableEq

inductive GeneralName where
  | dnsName (name : String)
  | other
deriving DecidableEq

/-- A certificate of the peer; its alternative names, if it has the extension and all
of it parses. -/
structure PeerCertificate where
  bytes : List UInt8
  alternativeNames : Except Unit (Option (List GeneralName))

/-- What `authenticate_service` reads of the authority. -/
structure Authority where
  service : ServiceName
  port : Nat
  attemptDeadlineMs : Nat
  minimumVersion : MinimumTlsVersion
  setupTimeMs : Nat
  sessionTimeMs : Nat
  childToServiceBytes : Nat
  serviceToChildBytes : Nat
  endpointAttempts : UInt16
  tlsHandshakeBytes : Nat

/-- What the TLS library makes of the connection. -/
structure Handshake where
  serverName : Bool
  connection : Bool
  /-- `complete_io`, as long as the connection is handshaking. -/
  rounds : List (Except ErrorKind Unit)
  resumed : Bool
  protocolVersion : Option ProtocolVersion
  peerCertificates : Option (List PeerCertificate)
  readBytes : Nat
  writtenBytes : Nat

structure Network where
  clock : Nat → Nat
  connect : (index : Nat) → SocketAddr → (timeoutNs : Nat) → Except ErrorKind Unit
  /-- `build_config`. -/
  config : Except TlsError Unit
  handshake : Handshake
  /-- The end of the handshake and of the session are `Instant`s. -/
  handshakeDeadline : Bool
  sessionDeadline : Bool
  digest : List UInt8 → Sha256Digest

/-! ## Time -/

/-- A method that reads the clock: its state is the number of readings. -/
abbrev Clocked := Mut Nat AuthenticateError

/-- `elapsed_ns`. -/
def elapsedNs (clock : Nat → Nat) : Clocked Nat := fun reading => (.ok (clock reading), reading + 1)

/-- `remaining_until`. -/
def remainingUntil (clock : Nat → Nat) (deadlineNs : Nat) : Clocked (Option Nat) := do
  let now ← elapsedNs clock
  pure (if now < deadlineNs then some (deadlineNs - now) else none)

/-- `connection_timeout`. -/
def connectionTimeout (clock : Nat → Nat) (answer : DnsAnswer)
    (setupDeadlineNs attemptDeadlineNs : Nat) : Clocked (Option Nat) := do
  match ← remainingUntil clock attemptDeadlineNs with
  | none => pure none
  | some attempt =>
    match ← remainingUntil clock setupDeadlineNs with
    | none => pure none
    | some setup =>
      match ← remainingUntil clock answer.effectiveExpiresNs with
      | none => pure none
      | some expiry => pure ((some (min (min attempt setup) expiry)).filter (· ≠ 0))

/-- The error of a deadline that has passed. -/
def deadlineKind (clock : Nat → Nat) (answer : DnsAnswer) (setupDeadlineNs : Nat) :
    Clocked TlsError := do
  if answer.effectiveExpiresNs ≤ (← elapsedNs clock) then pure .answerExpired
  else if setupDeadlineNs ≤ (← elapsedNs clock) then pure .setupDeadline
  else pure .endpointAttemptDeadline

/-- `terminal_absolute_deadline_kind`. -/
def terminalAbsoluteDeadlineKind (observedNs answerExpiryNs setupDeadlineNs : Nat) :
    Option TlsError :=
  if answerExpiryNs ≤ observedNs then some .answerExpired
  else if setupDeadlineNs ≤ observedNs then some .setupDeadline
  else none

/-! ## Endpoints -/

/-- `classify_connect_error`. -/
def classifyConnectError : ErrorKind → EndpointAttemptResult
  | .connectionRefused => .refused
  | .timedOut => .timedOut
  | .wouldBlock => .timedOut
  | _ => .failed

/-- `terminal_connect_failure`. -/
def terminalConnectFailure (lastFailure : TlsError) (attemptCount attemptLimit answerCount : Nat) :
    TlsError :=
  if lastFailure = .endpointAttemptDeadline then .endpointAttemptDeadline
  else if attemptLimit ≤ attemptCount ∧ attemptCount < answerCount then .endpointAttemptLimit
  else .endpointUnavailable

/-- How the loop goes on after an attempt. -/
inductive Outcome where
  | connected (attempt : EndpointAttempt) (attemptDeadlineNs : Nat)
  | failed (attempt : EndpointAttempt) (lastFailure : TlsError)

/-- A round of the loop, once the connection attempt is over. -/
def closeAttempt (net : Network) (answer : DnsAnswer) (setupDeadlineNs attemptDeadlineNs : Nat)
    (attempts : List EndpointAttempt) (attempt : EndpointAttemptResult → Nat → EndpointAttempt) :
    Except ErrorKind Unit → Clocked Outcome
  | .ok () => do
    let finishedNs ← elapsedNs net.clock
    match terminalAbsoluteDeadlineKind finishedNs answer.effectiveExpiresNs setupDeadlineNs with
    | some kind => Mut.fail ⟨kind, attempts ++ [attempt .timedOut finishedNs]⟩
    | none =>
      if attemptDeadlineNs ≤ finishedNs then
        pure (.failed (attempt .timedOut finishedNs) .endpointAttemptDeadline)
      else pure (.connected (attempt .connected finishedNs) attemptDeadlineNs)
  | .error error => do
    let finishedNs ← elapsedNs net.clock
    let terminal :=
      terminalAbsoluteDeadlineKind finishedNs answer.effectiveExpiresNs setupDeadlineNs
    let result :=
      if terminal.isSome ∨ attemptDeadlineNs ≤ finishedNs then .timedOut
      else classifyConnectError error
    match terminal with
    | some kind => Mut.fail ⟨kind, attempts ++ [attempt result finishedNs]⟩
    | none =>
      let lastFailure :=
        if attemptDeadlineNs ≤ finishedNs ∨ result = .timedOut then .endpointAttemptDeadline
        else .endpointUnavailable
      pure (.failed (attempt result finishedNs) lastFailure)

/-- A round of the loop of `authenticate_service`. -/
def attemptEndpoint (net : Network) (authority : Authority) (setupDeadlineNs index : Nat)
    (answer : DnsAnswer) (attempts : List EndpointAttempt) : Clocked Outcome := do
  let startedNs ← elapsedNs net.clock
  let attemptDeadlineNs := startedNs + min (authority.attemptDeadlineMs * 1000000) (2 ^ 64 - 1)
  Mut.lift (rejectIf (2 ^ 64 ≤ attemptDeadlineNs) ⟨.setupDeadline, attempts⟩)
  match ← connectionTimeout net.clock answer setupDeadlineNs attemptDeadlineNs with
  | none => do
    let kind ← deadlineKind net.clock answer setupDeadlineNs
    Mut.fail ⟨kind, attempts⟩
  | some timeout =>
    let endpoint := (answer.address, authority.port)
    closeAttempt net answer setupDeadlineNs attemptDeadlineNs attempts
      (fun result finishedNs =>
        ⟨min (index + 1) (2 ^ 32 - 1), endpoint, result, startedNs, finishedNs⟩)
      (net.connect index endpoint timeout)

/-- The loop's result: the attempts, the last failure, and the answer with the deadline
of its attempt. -/
structure Selection where
  attempts : List EndpointAttempt
  lastFailure : TlsError
  connected : Option (DnsAnswer × Nat)

/-- The loop of `authenticate_service`, over its round. -/
def attemptEndpoints (round : Nat → DnsAnswer → List EndpointAttempt → Clocked Outcome) :
    List DnsAnswer → (index : Nat) → List EndpointAttempt → (lastFailure : TlsError) →
      Clocked Selection
  | [], _, attempts, lastFailure => pure ⟨attempts, lastFailure, none⟩
  | answer :: answers, index, attempts, lastFailure => do
    match ← round index answer attempts with
    | .connected attempt attemptDeadlineNs =>
      pure ⟨attempts ++ [attempt], lastFailure, some (answer, attemptDeadlineNs)⟩
    | .failed attempt lastFailure =>
      attemptEndpoints round answers (index + 1) (attempts ++ [attempt]) lastFailure

/-! ## The handshake -/

/-- The handshake loop; each round is one `complete_io`. -/
def completeHandshake (net : Network) (answer : DnsAnswer) (setupDeadlineNs : Nat)
    (attempts : List EndpointAttempt) : List (Except ErrorKind Unit) → Clocked Unit
  | [] => pure ()
  | .error error :: _ => do
    let kind ← match error with
      | .outOfMemory => pure .handshakeLimit
      | .timedOut => deadlineKind net.clock answer setupDeadlineNs
      | .wouldBlock => deadlineKind net.clock answer setupDeadlineNs
      | _ => pure .authentication
    Mut.fail ⟨kind, attempts⟩
  | .ok () :: rounds => do
    let now ← elapsedNs net.clock
    Mut.lift (rejectIf (setupDeadlineNs ≤ now) ⟨.setupDeadline, attempts⟩)
    let now ← elapsedNs net.clock
    Mut.lift (rejectIf (answer.effectiveExpiresNs ≤ now) ⟨.answerExpired, attempts⟩)
    completeHandshake net answer setupDeadlineNs attempts rounds

/-- `negotiated_version`. -/
def negotiatedVersion : Option ProtocolVersion → MinimumTlsVersion → Except TlsError TlsVersion
  | some .tls13, _ => .ok .tls13
  | some .tls12, .tls12 => .ok .tls12
  | _, _ => .error .version

/-- `has_exact_dns_san`. -/
def hasExactDnsSan (names : List GeneralName) (service : ServiceName) : Bool :=
  names.any fun
    | .dnsName name =>
      (Utf8.bytes name).map Dns.asciiLower == (Utf8.bytes service.asStr).map Dns.asciiLower
    | .other => false

/-- `require_exact_dns_san`. -/
def requireExactDnsSan (certificate : PeerCertificate) (service : ServiceName) :
    Except TlsError Unit := do
  let names ← certificate.alternativeNames.mapError fun _ => .authentication
  let names ← okOr names .serviceNameMismatch
  rejectIf (¬hasExactDnsSan names service) .serviceNameMismatch

structure Peer where
  version : TlsVersion
  certificates : List PeerCertificate
  handshakeBytes : Nat

/-- The checks of the connection after the handshake. -/
def checkPeer (authority : Authority) (handshake : Handshake) : Except TlsError Peer := do
  rejectIf handshake.resumed .resumption
  let version ← negotiatedVersion handshake.protocolVersion authority.minimumVersion
  let certificates ← okOr handshake.peerCertificates .certificateChainMissing
  let leaf ← okOr certificates.head? .certificateChainMissing
  requireExactDnsSan leaf authority.service
  let handshakeBytes := handshake.readBytes + handshake.writtenBytes
  rejectIf (2 ^ 64 ≤ handshakeBytes) .handshakeLimit
  rejectIf (handshakeBytes = 0 ∨ authority.tlsHandshakeBytes < handshakeBytes) .handshakeLimit
  pure ⟨version, certificates, handshakeBytes⟩

/-- `certificate_chain_identity`. -/
def certificateChainIdentity (digest : List UInt8 → Sha256Digest)
    (certificates : List PeerCertificate) : Sha256Digest :=
  digest (Utf8.bytes "proofbound-runtime-tls-certificate-chain/1\x00" ++
    certificates.flatMap fun certificate =>
      BigEndian.toBytes 8 certificate.bytes.length ++ certificate.bytes)

structure TlsObservation where
  implementationIdentity : Sha256Digest
  version : TlsVersion
  certificateChainIdentity : Sha256Digest
  handshakeBytes : Nat
  authenticatedNs : Nat
deriving DecidableEq

/-- `AuthenticatedTlsSession`, without the stream. -/
structure AuthenticatedTlsSession where
  selectedAnswer : DnsAnswer
  attempts : List EndpointAttempt
  observation : TlsObservation
  sessionLimitMs : Nat
  childToServiceLimit : Nat
  serviceToChildLimit : Nat
deriving DecidableEq

/-- `TLS_IMPLEMENTATION`. -/
def tlsImplementation : List UInt8 :=
  Utf8.bytes "rustls/0.23.45/ring+x509-cert/0.2.5/exact-san"

/-- `authenticate_service` on the connection that was made. -/
def authenticateConnection (net : Network) (authority : Authority) (setupDeadlineNs : Nat)
    (attempts : List EndpointAttempt) (answer : DnsAnswer) (attemptDeadlineNs : Nat) :
    Clocked AuthenticatedTlsSession := do
  match ← connectionTimeout net.clock answer setupDeadlineNs attemptDeadlineNs with
  | none => do
    let kind ← deadlineKind net.clock answer setupDeadlineNs
    Mut.fail ⟨kind, attempts⟩
  | some _ =>
    Mut.lift (rejectIf (¬net.handshake.serverName) ⟨.serviceNameInvalid, attempts⟩)
    Mut.lift (rejectIf (¬net.handshake.connection) ⟨.configuration, attempts⟩)
    Mut.lift (rejectIf (¬net.handshakeDeadline) ⟨.setupDeadline, attempts⟩)
    completeHandshake net answer setupDeadlineNs attempts net.handshake.rounds
    let peer ← Mut.lift ((checkPeer authority net.handshake).mapError (⟨·, attempts⟩))
    let authenticatedNs ← elapsedNs net.clock
    match terminalAbsoluteDeadlineKind authenticatedNs answer.effectiveExpiresNs
        setupDeadlineNs with
    | some kind => Mut.fail ⟨kind, attempts⟩
    | none =>
      Mut.lift (rejectIf (¬net.sessionDeadline) ⟨.sessionDeadline, attempts⟩)
      pure {
        selectedAnswer := answer
        attempts := attempts
        observation := {
          implementationIdentity := net.digest tlsImplementation
          version := peer.version
          certificateChainIdentity := certificateChainIdentity net.digest peer.certificates
          handshakeBytes := peer.handshakeBytes
          authenticatedNs := authenticatedNs }
        sessionLimitMs := authority.sessionTimeMs
        childToServiceLimit := authority.childToServiceBytes
        serviceToChildLimit := authority.serviceToChildBytes }

/-- `authenticate_service` up to the deadline of the setup. -/
def authenticateUntil (net : Network) (authority : Authority) (answers : List DnsAnswer)
    (setupDeadlineNs : Nat) : Clocked AuthenticatedTlsSession := do
  let selection ← attemptEndpoints (attemptEndpoint net authority setupDeadlineNs)
    (answers.take authority.endpointAttempts.toNat) 0 [] .endpointUnavailable
  match selection.connected with
  | none =>
    let kind := terminalConnectFailure selection.lastFailure selection.attempts.length
      authority.endpointAttempts.toNat answers.length
    Mut.fail ⟨kind, selection.attempts⟩
  | some (answer, attemptDeadlineNs) =>
    authenticateConnection net authority setupDeadlineNs selection.attempts answer
      attemptDeadlineNs

/-- The setup deadline on the clock of the resolution. -/
def Authority.setupDeadlineNs (authority : Authority) : Nat := authority.setupTimeMs * 1000000

/-- `authenticate_service`. -/
def authenticateService (net : Network) (authority : Authority) (answers : List DnsAnswer) :
    Clocked AuthenticatedTlsSession := do
  Mut.lift (net.config.mapError (⟨·, []⟩))
  Mut.lift (rejectIf (2 ^ 64 ≤ authority.setupDeadlineNs) ⟨.setupDeadline, []⟩)
  authenticateUntil net authority answers authority.setupDeadlineNs

/-! ## What the attempts are -/

/-- The attempt at an endpoint of the list. -/
structure Attempted (authority : Authority) (index : Nat) (answer : DnsAnswer)
    (attempt : EndpointAttempt) : Prop where
  ordinal : attempt.ordinal = index + 1
  endpoint : attempt.endpoint = (answer.address, authority.port)
  times : attempt.startedNs ≤ attempt.finishedNs

/-- The attempts are at the first answers, and only the last may be connected. -/
structure Recorded (authority : Authority) (answers : List DnsAnswer)
    (attempts : List EndpointAttempt) : Prop where
  count : attempts.length ≤ min authority.endpointAttempts.toNat answers.length
  attempted : ∀ index attempt, attempts[index]? = some attempt →
    ∃ answer, answers[index]? = some answer ∧ Attempted authority index answer attempt
  last : ∀ index attempt, attempts[index]? = some attempt → attempt.result = .connected →
    index + 1 = attempts.length

section Recorded

variable {authority : Authority} {answers : List DnsAnswer} {attempts : List EndpointAttempt}
  {answer : DnsAnswer} {attempt : EndpointAttempt}

theorem recorded_nil : Recorded authority answers [] :=
  ⟨Nat.zero_le _, by simp, by simp⟩

theorem Recorded.append (h : Recorded authority answers attempts)
    (hopen : ∀ attempt ∈ attempts, attempt.result ≠ .connected)
    (hnext : (answers.take authority.endpointAttempts.toNat)[attempts.length]? = some answer)
    (hattempt : Attempted authority attempts.length answer attempt) :
    Recorded authority answers (attempts ++ [attempt]) := by
  have hlt := (List.getElem?_eq_some_iff.mp hnext).1
  rw [List.length_take] at hlt
  rw [List.getElem?_take_of_lt (by omega)] at hnext
  refine ⟨by rw [List.length_append, List.length_singleton]; omega, ?_, ?_⟩
  · intro index other hother
    rcases Nat.lt_or_ge index attempts.length with hindex | hindex
    · rw [List.getElem?_append_left hindex] at hother
      exact h.attempted index other hother
    · obtain rfl : index = attempts.length := by
        have hlength := (List.getElem?_eq_some_iff.mp hother).1
        rw [List.length_append, List.length_singleton] at hlength
        omega
      rw [List.getElem?_concat_length] at hother
      cases hother
      exact ⟨answer, hnext, hattempt⟩
  · intro index other hother hconnected
    rcases Nat.lt_or_ge index attempts.length with hindex | hindex
    · rw [List.getElem?_append_left hindex] at hother
      exact absurd hconnected (hopen other (List.mem_of_getElem? hother))
    · have hlength := (List.getElem?_eq_some_iff.mp hother).1
      rw [List.length_append, List.length_singleton] at hlength ⊢
      omega

end Recorded

/-! ## Each attempt -/

section Attempts

open Mut

variable {net : Network} {authority : Authority} {answer : DnsAnswer}
  {setupDeadlineNs attemptDeadlineNs t : Nat} {E : AuthenticateError → Nat → Prop}
  (hclock : Monotone net.clock)

include hclock

/-- A reading is not before what was read, and not after what will be. -/
theorem elapsedNs_spec : Spec (fun reading => t ≤ net.clock reading) (elapsedNs net.clock)
    (fun now reading => t ≤ now ∧ now ≤ net.clock reading) E :=
  fun reading h => ⟨h, hclock (Nat.le_succ reading)⟩

theorem remainingUntil_spec (deadlineNs : Nat) :
    Spec (fun reading => t ≤ net.clock reading) (remainingUntil net.clock deadlineNs)
      (fun _ reading => t ≤ net.clock reading) E :=
  (elapsedNs_spec hclock).bind fun _ => Spec.pure fun _ h => h.1.trans h.2

omit hclock in
theorem connectionTimeout_spec {P : Nat → Prop}
    (hremaining : ∀ deadlineNs, Spec P (remainingUntil net.clock deadlineNs) (fun _ => P) E) :
    Spec P (connectionTimeout net.clock answer setupDeadlineNs attemptDeadlineNs) (fun _ => P)
      E := by
  refine (hremaining attemptDeadlineNs).bind fun attempt => ?_
  cases attempt with
  | none => exact Spec.pure fun _ h => h
  | some attempt =>
    refine (hremaining setupDeadlineNs).bind fun setup => ?_
    cases setup with
    | none => exact Spec.pure fun _ h => h
    | some setup =>
      refine (hremaining answer.effectiveExpiresNs).bind fun expiry => ?_
      cases expiry with
      | none | some expiry => exact Spec.pure fun _ h => h

omit hclock in
theorem deadlineKind_spec {P : Nat → Prop} :
    Spec P (deadlineKind net.clock answer setupDeadlineNs) (fun _ _ => True) E := by
  have helapsed {P : Nat → Prop} : Spec P (elapsedNs net.clock) (fun _ _ => True) E :=
    fun _ _ => trivial
  refine helapsed.bind fun now => ?_
  split
  · exact Spec.pure fun _ _ => trivial
  · refine helapsed.bind fun now => ?_
    split
    · exact Spec.pure fun _ _ => trivial
    · exact Spec.pure fun _ _ => trivial

/-- What an attempt adds where the loop goes on or ends with a connection. -/
def Outcome.Sound (authority : Authority) (index : Nat) (answer : DnsAnswer) : Outcome → Prop
  | .connected attempt _ => Attempted authority index answer attempt ∧ attempt.result = .connected
  | .failed attempt _ => Attempted authority index answer attempt ∧ attempt.result ≠ .connected

/-- What an attempt adds where it is the end. -/
def EndsWith (authority : Authority) (index : Nat) (answer : DnsAnswer)
    (attempts attempts' : List EndpointAttempt) : Prop :=
  attempts' = attempts ∨ ∃ attempt, Attempted authority index answer attempt ∧
    attempt.result ≠ .connected ∧ attempts' = attempts ++ [attempt]

omit hclock in
theorem classifyConnectError_ne_connected (error : ErrorKind) :
    classifyConnectError error ≠ .connected := by
  cases error <;> decide

variable {index : Nat} {attempts : List EndpointAttempt}

theorem closeAttempt_spec {attempt : EndpointAttemptResult → Nat → EndpointAttempt}
    (hattempt : ∀ result finishedNs, t ≤ finishedNs →
      Attempted authority index answer (attempt result finishedNs) ∧
        (attempt result finishedNs).result = result) (result : Except ErrorKind Unit) :
    Spec (fun reading => t ≤ net.clock reading)
      (closeAttempt net answer setupDeadlineNs attemptDeadlineNs attempts attempt result)
      (fun outcome _ => outcome.Sound authority index answer)
      (fun e _ => EndsWith authority index answer attempts e.attempts) := by
  -- a failed attempt ends the loop or goes on, with the same record
  have hfail (result : EndpointAttemptResult) (hresult : result ≠ .connected) (finishedNs : Nat)
      (kind : TlsError) (hfinished : t ≤ finishedNs) :
      EndsWith authority index answer attempts
        (AuthenticateError.mk kind (attempts ++ [attempt result finishedNs])).attempts := by
    obtain ⟨hattempted, heq⟩ := hattempt result finishedNs hfinished
    exact .inr ⟨_, hattempted, by rwa [heq], rfl⟩
  have hgoOn (result : EndpointAttemptResult) (hresult : result ≠ .connected) (finishedNs : Nat)
      (kind : TlsError) (hfinished : t ≤ finishedNs) :
      (Outcome.failed (attempt result finishedNs) kind).Sound authority index answer := by
    obtain ⟨hattempted, heq⟩ := hattempt result finishedNs hfinished
    exact ⟨hattempted, by rwa [heq]⟩
  cases result with
  | ok value =>
    refine (elapsedNs_spec hclock).bind fun finishedNs => ?_
    split
    · exact Spec.fail fun _ h => hfail _ (by simp) finishedNs _ h.1
    · split
      · exact Spec.pure fun _ h => hgoOn _ (by simp) finishedNs _ h.1
      · exact Spec.pure fun _ h => hattempt .connected finishedNs h.1
  | error error =>
    refine (elapsedNs_spec hclock).bind fun finishedNs => ?_
    have hresult : ∀ late : Prop, [Decidable late] →
        (if late then EndpointAttemptResult.timedOut else classifyConnectError error) ≠
          .connected := by
      intro late _
      split
      · simp
      · exact classifyConnectError_ne_connected error
    dsimp only
    split
    · exact Spec.fail fun _ h => hfail _ (hresult _) finishedNs _ h.1
    · exact Spec.pure fun _ h => hgoOn _ (hresult _) finishedNs _ h.1

omit hclock in
theorem Spec.of_prop {A : Prop} {α : Type} {x : Clocked α} {Q : α → Nat → Prop}
    (h : A → Spec (fun _ => True) x Q E) : Spec (fun _ => A) x Q E :=
  fun reading hA => h hA reading trivial

theorem attemptEndpoint_spec (hindex : index < 2 ^ 16) :
    Spec (fun _ => True) (attemptEndpoint net authority setupDeadlineNs index answer attempts)
      (fun outcome _ => outcome.Sound authority index answer)
      (fun e _ => EndsWith authority index answer attempts e.attempts) := by
  have hstart : Spec (fun _ => True) (elapsedNs net.clock)
      (fun now reading => now ≤ net.clock reading)
      (fun e _ => EndsWith authority index answer attempts e.attempts) :=
    fun reading _ => hclock (Nat.le_succ reading)
  unfold attemptEndpoint
  refine hstart.bind fun startedNs => ?_
  refine Spec.rejectIf_bind (fun _ => ?_) fun _ _ _ => .inl rfl
  refine (connectionTimeout_spec (remainingUntil_spec hclock)).bind fun timeout => ?_
  cases timeout with
  | none => exact deadlineKind_spec.bind fun kind => Spec.fail fun _ _ => .inl rfl
  | some timeout =>
    refine closeAttempt_spec hclock (fun result finishedNs hfinished => ⟨?_, rfl⟩) _
    exact ⟨by simp only; omega, rfl, hfinished⟩

/-- The answer of the last attempt, which is connected. -/
def Selected (answers : List DnsAnswer) (attempts : List EndpointAttempt) (answer : DnsAnswer) :
    Prop :=
  ∃ earlier attempt, attempts = earlier ++ [attempt] ∧ attempt.result = .connected ∧
    answers[earlier.length]? = some answer

omit hclock in
/-- The loop, on the answers after those of the attempts so far. -/
theorem attemptEndpoints_spec {round : Nat → DnsAnswer → List EndpointAttempt → Clocked Outcome}
    (hround : ∀ index answer attempts, index < 2 ^ 16 → Spec (fun _ => True)
      (round index answer attempts) (fun outcome _ => outcome.Sound authority index answer)
      (fun e _ => EndsWith authority index answer attempts e.attempts))
    {answers rest : List DnsAnswer} {lastFailure : TlsError}
    (hrest : rest = (answers.take authority.endpointAttempts.toNat).drop attempts.length)
    (hrecorded : Recorded authority answers attempts)
    (hopen : ∀ attempt ∈ attempts, attempt.result ≠ .connected) :
    Spec (fun _ => True) (attemptEndpoints round rest attempts.length attempts lastFailure)
      (fun selection _ => Recorded authority answers selection.attempts ∧
        ∀ chosen ∈ selection.connected, Selected answers selection.attempts chosen.1)
      (fun e _ => Recorded authority answers e.attempts) := by
  induction rest generalizing attempts lastFailure with
  | nil => exact Spec.pure fun _ _ => ⟨hrecorded, by simp⟩
  | cons answer rest ih =>
    have hnext :
        (answers.take authority.endpointAttempts.toNat)[attempts.length]? = some answer := by
      rw [← Nat.add_zero attempts.length, ← List.getElem?_drop, ← hrest]
      rfl
    have hlength := (List.getElem?_eq_some_iff.mp hnext).1
    rw [List.length_take] at hlength
    have hindex : attempts.length < 2 ^ 16 := by
      have hbound := authority.endpointAttempts.toNat_lt
      omega
    have happend {attempt : EndpointAttempt}
        (h : Attempted authority attempts.length answer attempt) :=
      hrecorded.append hopen hnext h
    have hattempt : Spec (fun _ => True) (round attempts.length answer attempts)
        (fun outcome _ => outcome.Sound authority attempts.length answer)
        (fun e _ => Recorded authority answers e.attempts) := by
      refine (hround _ _ _ hindex).mono (fun _ _ h => h) ?_
      intro e _ h
      rcases h with heq | ⟨attempt, hattempt, -, heq⟩
      · rwa [heq]
      · rw [heq]
        exact happend hattempt
    refine hattempt.bind fun outcome => ?_
    cases outcome with
    | connected attempt attemptDeadlineNs =>
      refine Spec.pure fun _ h => ⟨happend h.1, ?_⟩
      rintro _ ⟨⟩
      rw [List.getElem?_take_of_lt (by omega)] at hnext
      exact ⟨attempts, attempt, rfl, h.2, hnext⟩
    | failed attempt lastFailure =>
      refine Spec.of_prop fun h => ?_
      have hlength : (attempts ++ [attempt]).length = attempts.length + 1 := by simp
      have hdrop : rest = (answers.take authority.endpointAttempts.toNat).drop
          (attempts ++ [attempt]).length := by
        rw [hlength, ← List.tail_drop, ← hrest, List.tail_cons]
      have hopen' : ∀ other ∈ attempts ++ [attempt], other.result ≠ .connected := by
        intro other hother
        rcases List.mem_append.mp hother with hother | hother
        · exact hopen other hother
        · rw [List.mem_singleton.mp hother]
          exact h.2
      have hrun := @ih (attempts ++ [attempt]) lastFailure hdrop (happend h.1) hopen'
      rwa [hlength] at hrun

end Attempts

/-! ## The session -/

section Session

open Mut

variable {net : Network} {authority : Authority} {answer : DnsAnswer}
  {setupDeadlineNs : Nat} {attempts : List EndpointAttempt}

/-- The method fails with the attempts so far. -/
abbrev Keeps {α : Type} (attempts : List EndpointAttempt) (x : Clocked α) : Prop :=
  Spec (fun _ => True) x (fun _ _ => True) (fun e _ => e.attempts = attempts)

theorem keeps_elapsedNs (clock : Nat → Nat) : Keeps attempts (elapsedNs clock) :=
  fun _ _ => trivial

theorem keeps_completeHandshake (rounds : List (Except ErrorKind Unit)) :
    Keeps attempts (completeHandshake net answer setupDeadlineNs attempts rounds) := by
  induction rounds with
  | nil => exact Spec.pure fun _ _ => trivial
  | cons round rounds ih =>
    cases round with
    | error error =>
      have hfail (kind : TlsError) :
          Spec (fun _ => True) (Mut.fail ⟨kind, attempts⟩ : Clocked Unit) (fun _ _ => True)
            (fun e _ => e.attempts = attempts) :=
        Spec.fail fun _ _ => rfl
      cases error with
      | timedOut | wouldBlock => exact deadlineKind_spec.bind hfail
      | _ => exact hfail _
    | ok value =>
      refine (keeps_elapsedNs net.clock).bind fun now => ?_
      refine Spec.rejectIf_bind (fun _ => ?_) fun _ _ _ => rfl
      refine (keeps_elapsedNs net.clock).bind fun now => ?_
      exact Spec.rejectIf_bind (fun _ => ih) fun _ _ _ => rfl

theorem checkPeer_eq_ok {handshake : Handshake} {peer : Peer}
    (h : checkPeer authority handshake = .ok peer) :
    1 ≤ peer.handshakeBytes ∧ peer.handshakeBytes ≤ authority.tlsHandshakeBytes := by
  simp only [checkPeer, Result.bind_eq_ok, rejectIf_eq_ok, Result.pure_eq_ok] at h
  obtain ⟨_, -, _, -, _, -, _, -, _, -, _, -, _, hbytes, rfl⟩ := h
  show 1 ≤ handshake.readBytes + handshake.writtenBytes ∧
    handshake.readBytes + handshake.writtenBytes ≤ authority.tlsHandshakeBytes
  omega

/-- An authenticated session on an answer. -/
structure Authenticated (authority : Authority) (setupDeadlineNs : Nat) (answer : DnsAnswer)
    (attempts : List EndpointAttempt) (session : AuthenticatedTlsSession) : Prop where
  selected : session.selectedAnswer = answer
  recorded : session.attempts = attempts
  unexpired : session.observation.authenticatedNs < answer.effectiveExpiresNs
  inTime : session.observation.authenticatedNs < setupDeadlineNs
  bytes : 1 ≤ session.observation.handshakeBytes ∧
    session.observation.handshakeBytes ≤ authority.tlsHandshakeBytes

theorem terminalAbsoluteDeadlineKind_eq_none {observedNs answerExpiryNs : Nat}
    (h : terminalAbsoluteDeadlineKind observedNs answerExpiryNs setupDeadlineNs = none) :
    observedNs < answerExpiryNs ∧ observedNs < setupDeadlineNs := by
  unfold terminalAbsoluteDeadlineKind at h
  split at h
  · cases h
  · split at h
    · cases h
    · omega

theorem authenticateConnection_spec (attemptDeadlineNs : Nat) :
    Spec (fun _ => True)
      (authenticateConnection net authority setupDeadlineNs attempts answer attemptDeadlineNs)
      (fun session _ => Authenticated authority setupDeadlineNs answer attempts session)
      (fun e _ => e.attempts = attempts) := by
  unfold authenticateConnection
  have hremaining (deadlineNs : Nat) : Keeps attempts (remainingUntil net.clock deadlineNs) :=
    (keeps_elapsedNs net.clock).bind fun _ => Spec.pure fun _ _ => trivial
  refine (connectionTimeout_spec hremaining).bind fun remaining => ?_
  cases remaining with
  | none => exact deadlineKind_spec.bind fun kind => Spec.fail fun _ _ => rfl
  | some remaining =>
    refine Spec.rejectIf_bind (fun _ => ?_) fun _ _ _ => rfl
    refine Spec.rejectIf_bind (fun _ => ?_) fun _ _ _ => rfl
    refine Spec.rejectIf_bind (fun _ => ?_) fun _ _ _ => rfl
    refine (keeps_completeHandshake _).bind fun _ => ?_
    refine Spec.lift_bind (fun peer hpeer => ?_) ?_
    · refine (keeps_elapsedNs net.clock).bind fun authenticatedNs => ?_
      split
      · exact Spec.fail fun _ _ => rfl
      next htime =>
        obtain ⟨hunexpired, hinTime⟩ := terminalAbsoluteDeadlineKind_eq_none htime
        refine Spec.rejectIf_bind (fun _ => ?_) fun _ _ _ => rfl
        refine Spec.pure fun _ _ => ⟨rfl, rfl, hunexpired, hinTime, ?_⟩
        exact checkPeer_eq_ok (mapError_eq_ok.mp hpeer)
    · intro e he _ _
      obtain ⟨kind, -, rfl⟩ := mapError_eq_error.mp he
      rfl

/-- What `authenticate_service` returns. -/
def AuthenticateSound (authority : Authority) (answers : List DnsAnswer) (setupDeadlineNs : Nat) :
    Except AuthenticateError AuthenticatedTlsSession → Prop
  | .error e => Recorded authority answers e.attempts
  | .ok session => Recorded authority answers session.attempts ∧
      ∃ answer, Selected answers session.attempts answer ∧
        Authenticated authority setupDeadlineNs answer session.attempts session

theorem authenticateUntil_spec (hclock : Monotone net.clock) (answers : List DnsAnswer) :
    Spec (fun _ => True) (authenticateUntil net authority answers setupDeadlineNs)
      (fun session _ => AuthenticateSound authority answers setupDeadlineNs (.ok session))
      (fun e _ => AuthenticateSound authority answers setupDeadlineNs (.error e)) := by
  unfold authenticateUntil
  have hloop : Spec (fun _ => True)
      (attemptEndpoints (attemptEndpoint net authority setupDeadlineNs)
        (answers.take authority.endpointAttempts.toNat) 0 [] .endpointUnavailable)
      (fun selection _ => Recorded authority answers selection.attempts ∧
        ∀ chosen ∈ selection.connected, Selected answers selection.attempts chosen.1)
      (fun e _ => Recorded authority answers e.attempts) :=
    attemptEndpoints_spec (fun _ _ _ hindex => attemptEndpoint_spec hclock hindex) rfl
      recorded_nil (by simp)
  refine hloop.bind fun selection => ?_
  cases hconnected : selection.connected with
  | none => exact Spec.fail fun _ h => h.1
  | some chosen =>
    refine Spec.of_prop fun h => ?_
    refine (authenticateConnection_spec chosen.2).mono (fun session _ hsession => ?_)
      fun e _ he => ?_
    · have hrecorded := hsession.recorded
      rw [← hrecorded] at hsession h
      exact ⟨h.1, chosen.1, h.2 chosen rfl, hsession⟩
    · show Recorded authority answers e.attempts
      rw [he]
      exact h.1

/-- The attempts are recorded in order, whatever the network does, and a session is
that of the last one. -/
theorem authenticateService_sound (net : Network) (hclock : Monotone net.clock)
    (authority : Authority) (answers : List DnsAnswer) (readings : Nat) :
    AuthenticateSound authority answers authority.setupDeadlineNs
      (authenticateService net authority answers readings).1 := by
  have hspec : Spec (fun _ => True) (authenticateService net authority answers)
      (fun session _ => AuthenticateSound authority answers authority.setupDeadlineNs (.ok session))
      (fun e _ => AuthenticateSound authority answers authority.setupDeadlineNs (.error e)) := by
    unfold authenticateService
    refine Spec.lift_bind (fun _ _ => ?_) ?_
    · refine Spec.rejectIf_bind (fun _ => ?_) fun _ _ _ => recorded_nil
      exact authenticateUntil_spec hclock answers
    · intro e he _ _
      obtain ⟨kind, -, rfl⟩ := mapError_eq_error.mp he
      exact recorded_nil
  have hresult := hspec readings trivial
  rcases h : authenticateService net authority answers readings with ⟨e | session, after⟩
  · rwa [h] at hresult
  · rwa [h] at hresult

end Session

theorem sampleService_accepted : ServiceName.accepts "a.example" = true := by decide +kernel

def sampleService : ServiceName := ⟨"a.example", sampleService_accepted⟩

/-- The answer `192.0.2.x`. -/
def sampleAnswer (x : UInt8) : DnsAnswer where
  name := sampleService
  address := .v4 #v[192, 0, 2, x]
  messageIdentity := Vector.replicate 32 0
  ttlSeconds := 60
  recordExpiresNs := 60000000000
  effectiveExpiresNs := 60000000000

def sampleAuthority : Authority where
  service := sampleService
  port := 443
  attemptDeadlineMs := 1000
  minimumVersion := .tls12
  setupTimeMs := 10000
  sessionTimeMs := 60000
  childToServiceBytes := 4096
  serviceToChildBytes := 4096
  endpointAttempts := 3
  tlsHandshakeBytes := 8192

/-- The first endpoint refuses, the second accepts; a reading is 1 ms after the one
before. -/
def sampleNetwork : Network where
  clock reading := reading * 1000000
  connect index _ _ := if index = 0 then .error .connectionRefused else .ok ()
  config := .ok ()
  handshake :=
    { serverName := true
      connection := true
      rounds := [.ok (), .ok ()]
      resumed := false
      protocolVersion := some .tls13
      peerCertificates := some [⟨[0x30, 0], .ok (some [.other, .dnsName "A.example"])⟩]
      readBytes := 3000
      writtenBytes := 900 }
  handshakeDeadline := true
  sessionDeadline := true
  digest := Sha256.hash

theorem authenticateService_sound_sample :
    (∃ session, (authenticateService sampleNetwork sampleAuthority
        [sampleAnswer 1, sampleAnswer 2, sampleAnswer 3] 0).1 = .ok session ∧
      session.attempts.map EndpointAttempt.result = [.refused, .connected]) ∧
    AuthenticateSound sampleAuthority [sampleAnswer 1, sampleAnswer 2, sampleAnswer 3]
      sampleAuthority.setupDeadlineNs (authenticateService sampleNetwork sampleAuthority
        [sampleAnswer 1, sampleAnswer 2, sampleAnswer 3] 0).1 := by
  have hclock : Monotone sampleNetwork.clock := fun _ _ h => Nat.mul_le_mul_right 1000000 h
  refine ⟨?_, authenticateService_sound sampleNetwork hclock sampleAuthority _ 0⟩
  have hresult : ((authenticateService sampleNetwork sampleAuthority
      [sampleAnswer 1, sampleAnswer 2, sampleAnswer 3] 0).1.toOption.map fun session =>
        session.attempts.map EndpointAttempt.result) = some [.refused, .connected] := by
    decide +kernel
  cases h : (authenticateService sampleNetwork sampleAuthority
      [sampleAnswer 1, sampleAnswer 2, sampleAnswer 3] 0).1 with
  | error e =>
    rw [h] at hresult
    cases hresult
  | ok session =>
    rw [h] at hresult
    exact ⟨session, rfl, Option.some.inj hresult⟩

end ProofboundRuntime.Connector.Authenticate
