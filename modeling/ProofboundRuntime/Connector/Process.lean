import ProofboundRuntime.Lib.Sha256
import ProofboundRuntime.Connector.Resolution
import ProofboundRuntime.Connector.Report

/-!
# The connector process

`run_connector_process` of `connector_process.rs`: the inherited files are read, the
service is resolved and authenticated and the traffic is carried, with a report to the
supervisor on the way.  The state of the process is the reports it has sent.  The parts
of the program it calls and the system around it are parameters: `Engine`.

Whatever these do, the process sends reports that its supervisor accepts
(`allValid_runConnectorProcess`): the tables of error codes stay in the ranges of
`validFailureCode`, and the port of a plan is not zero.
-/

namespace ProofboundRuntime.Connector.Process

open Result
open ProofboundRuntime.Core (ExecutionId Sha256Digest)
open Connector.Dns (IpAddr DnsError DnsResolution)

/-! ## Error codes -/

inductive TlsError where
  | endpointUnavailable
  | endpointAttemptLimit
  | endpointAttemptDeadline
  | setupDeadline
  | answerExpired
  | trustRootSetInvalid
  | serviceNameInvalid
  | serviceNameMismatch
  | configuration
  | authentication
  | resumption
  | version
  | handshakeLimit
  | certificateChainMissing
  | sessionDeadline
  | childToServiceLimit
  | serviceToChildLimit
  | sessionIo
  | prematureClose
deriving DecidableEq

inductive ChannelError where
  | unsupportedOperatingSystem
  | configuration
  | childRead
  | childWrite
  | tls (error : TlsError)
deriving DecidableEq

def dnsErrorCode : DnsError → UInt8
  | .randomUnavailable => 1
  | .resolverUnavailable => 2
  | .requestFailed => 3
  | .responseFailed => 4
  | .responseTooLarge => 5
  | .messageLimit => 6
  | .deadline => 7
  | .malformedResponse => 8
  | .resolverFailure => 9
  | .invalidCnameChain => 10
  | .invalidAnswerSet => 11
  | .expiredAnswer => 12

def tlsErrorCode : TlsError → UInt8
  | .endpointUnavailable => 1
  | .endpointAttemptLimit => 2
  | .endpointAttemptDeadline => 3
  | .setupDeadline => 4
  | .answerExpired => 5
  | .trustRootSetInvalid => 6
  | .serviceNameInvalid => 7
  | .serviceNameMismatch => 8
  | .configuration => 9
  | .authentication => 10
  | .resumption => 11
  | .version => 12
  | .handshakeLimit => 13
  | .certificateChainMissing => 14
  | .sessionDeadline => 15
  | .childToServiceLimit => 16
  | .serviceToChildLimit => 17
  | .sessionIo => 18
  | .prematureClose => 19

/-- `channel_error_code`; the addition saturates. -/
def channelErrorCode : ChannelError → UInt8
  | .unsupportedOperatingSystem => 1
  | .configuration => 2
  | .childRead => 3
  | .childWrite => 4
  | .tls error => UInt8.ofNat (min 255 (32 + (tlsErrorCode error).toNat))

/-! ## The process -/

structure ConnectorBootstrap where
  planDescriptor : UInt32
  trustRootDescriptor : UInt32
  channelDescriptor : UInt32
  controlDescriptor : UInt32
  executionId : ExecutionId
  policyDigest : Sha256Digest
  processGeneration : ConnectorProcessGeneration
  channelId : ServiceChannelId
  planDigest : Sha256Digest
  trustRootDigest : Sha256Digest
  connectorDigest : Sha256Digest
  runtimeClosureDigest : Sha256Digest
  resolverConfigurationDigest : Sha256Digest
deriving DecidableEq

/-- What the process reads of an `AuthenticatedTlsSession`. -/
structure Session where
  selectedAddress : IpAddr
  version : TlsVersion
  implementationIdentity : Sha256Digest
  certificateChainIdentity : Sha256Digest
  handshakeBytes : UInt64
  authenticatedNs : UInt64
deriving DecidableEq

/-- What the process reads of the traffic of an ended session. -/
structure Traffic where
  childToServiceBytes : UInt64
  serviceToChildBytes : UInt64
  activeNs : UInt64
  closedNs : UInt64
deriving DecidableEq

/-- The rest of the program and the system around the process.  A plan is whatever
`parse_service_execution_plan` returns. -/
structure Engine (Plan : Type) where
  sha256 : List UInt8 → Sha256Digest
  /-- `take_inherited_descriptor` succeeds. -/
  takeInheritedDescriptor : UInt32 → Bool
  /-- The contents of the inherited file, if it can be read. -/
  readToEnd : UInt32 → Option (List UInt8)
  parseServiceExecutionPlan : List UInt8 → Option Plan
  port : Plan → TcpPort
  resolveService : Plan → Except DnsError DnsResolution
  authenticateService : DnsResolution → List UInt8 → Except TlsError Session
  proxyAuthenticatedChannel : Session → Except ChannelError Traffic
  /-- `send_packet` succeeds, after so many packets. -/
  sendPacket : Nat → List UInt8 → Bool

/-- `MAX_PLAN_BYTES`. -/
def maxPlanBytes : Nat := 1048576

/-- `MAX_TRUST_ROOT_BYTES`. -/
def maxTrustRootBytes : Nat := 16777216

/-- A method of the process; the state is the reports it has encoded and sent. -/
abbrev Reporting := Mut (List ConnectorReport) ConnectorProcessError

variable {Plan : Type} (engine : Engine Plan)

def send (report : ConnectorReport) : Reporting Unit := do
  let sent ← Mut.get
  Mut.modify fun sent => sent ++ [report]
  Mut.lift (rejectIf (engine.sendPacket sent.length report.encode = false) .protocol)

/-- `send_failure`. -/
def sendFailure (stage : ConnectorFailureStage) (code : UInt8) : Reporting Unit :=
  send engine (.failure ⟨stage, code⟩)

def takeInherited (descriptor : UInt32) : Except ConnectorProcessError Unit := do
  rejectIf (2 ^ 31 ≤ descriptor.toNat) .bootstrapInvalid
  rejectIf (engine.takeInheritedDescriptor descriptor = false) .bootstrapInvalid

def readInheritedFile (descriptor : UInt32) (maximum : Nat) :
    Except ConnectorProcessError (List UInt8) := do
  let contents ← okOr (engine.readToEnd descriptor) .artifactIdentity
  let bytes := contents.take (maximum + 1)
  rejectIf (maximum < bytes.length) .artifactTooLarge
  pure bytes

/-- `append_text`. -/
def appendText (value : String) : List UInt8 :=
  BigEndian.toBytes 8 (Utf8.bytes value).length ++ Utf8.bytes value

def digestDnsObservation (resolution : DnsResolution) (port : TcpPort) : Sha256Digest :=
  engine.sha256 (Utf8.bytes "proofbound-runtime-dns-observation/1\x00" ++
    (resolution.messages.flatMap fun message =>
      message.identity.toList ++ BigEndian.toBytes 8 message.size ++
        BigEndian.toBytes 8 message.observedNs) ++
    (resolution.cnameChain.flatMap fun link =>
      appendText link.owner.asStr ++ appendText link.target.asStr ++
        link.messageIdentity.toList ++ BigEndian.toBytes 4 link.ttlSeconds ++
        BigEndian.toBytes 8 link.expiresNs) ++
    (resolution.answers.flatMap fun answer =>
      appendText answer.name.asStr ++ encodeEndpoint ⟨answer.address, port.get⟩ ++
        answer.messageIdentity.toList ++ BigEndian.toBytes 4 answer.ttlSeconds ++
        BigEndian.toBytes 8 answer.recordExpiresNs ++
        BigEndian.toBytes 8 answer.effectiveExpiresNs))

def setupBindingDigest (bootstrap : ConnectorBootstrap) : Sha256Digest :=
  engine.sha256 (Utf8.bytes "proofbound-runtime-connector-setup/1\x00" ++
    bootstrap.executionId.bytes.toList ++ bootstrap.policyDigest.toList ++
    toBeBytes bootstrap.processGeneration.get ++ bootstrap.channelId.bytes.toList ++
    bootstrap.planDigest.toList ++ bootstrap.trustRootDigest.toList ++
    bootstrap.connectorDigest.toList ++ bootstrap.runtimeClosureDigest.toList ++
    bootstrap.resolverConfigurationDigest.toList)

def readyObservation (bootstrap : ConnectorBootstrap) (dnsObservationDigest : Sha256Digest)
    (port : TcpPort) (session : Session) : ConnectorReady where
  executionId := bootstrap.executionId
  policyDigest := bootstrap.policyDigest
  processGeneration := bootstrap.processGeneration
  channelId := bootstrap.channelId
  setupBindingDigest := setupBindingDigest engine bootstrap
  dnsObservationDigest := dnsObservationDigest
  selectedEndpoint := ⟨session.selectedAddress, port.get⟩
  tlsVersion := session.version
  tlsImplementationDigest := session.implementationIdentity
  certificateChainDigest := session.certificateChainIdentity
  handshakeBytes := session.handshakeBytes
  authenticatedNs := session.authenticatedNs

/-- A failure is reported before it is returned. -/
def orReport {ε α : Type} (result : Except ε α) (stage : ConnectorFailureStage)
    (code : ε → UInt8) (error : ε → ConnectorProcessError) : Reporting α :=
  match result with
  | .ok value => pure value
  | .error e => do
    sendFailure engine stage (code e)
    Mut.fail (error e)

def runConnectorProcess (bootstrap : ConnectorBootstrap) : Reporting Unit := do
  Mut.lift (takeInherited engine bootstrap.controlDescriptor)
  let inherited := do
    takeInherited engine bootstrap.planDescriptor
    takeInherited engine bootstrap.trustRootDescriptor
    takeInherited engine bootstrap.channelDescriptor
  orReport engine inherited .bootstrap (fun _ => 1) id
  let planBytes ← orReport engine (readInheritedFile engine bootstrap.planDescriptor maxPlanBytes)
    .bootstrap (fun _ => 2) id
  let trustRootBytes ←
    orReport engine (readInheritedFile engine bootstrap.trustRootDescriptor maxTrustRootBytes)
      .bootstrap (fun _ => 3) id
  let identified := rejectIf (engine.sha256 planBytes ≠ bootstrap.planDigest ∨
    engine.sha256 trustRootBytes ≠ bootstrap.trustRootDigest) .artifactIdentityDrift
  orReport engine identified .bootstrap (fun _ => 4) id
  let plan ← orReport engine (okOr (engine.parseServiceExecutionPlan planBytes) .planInvalid)
    .bootstrap (fun _ => 5) id
  let resolution ← orReport engine (engine.resolveService plan) .resolution dnsErrorCode
    fun _ => .engine
  let dnsObservationDigest := digestDnsObservation engine resolution (engine.port plan)
  let session ← orReport engine (engine.authenticateService resolution trustRootBytes)
    .authentication tlsErrorCode fun _ => .engine
  let ready := readyObservation engine bootstrap dnsObservationDigest (engine.port plan) session
  send engine (.ready ready)
  let traffic ← orReport engine (engine.proxyAuthenticatedChannel session) .channel
    channelErrorCode fun _ => .engine
  send engine (.terminal ⟨traffic.childToServiceBytes, traffic.serviceToChildBytes,
    traffic.activeNs, traffic.closedNs⟩)

/-! ## The reports of the process -/

theorem validFailureCode_dnsErrorCode (error : DnsError) :
    validFailureCode .resolution (dnsErrorCode error) = true := by
  cases error <;> rfl

theorem validFailureCode_tlsErrorCode (error : TlsError) :
    validFailureCode .authentication (tlsErrorCode error) = true := by
  cases error <;> rfl

theorem validFailureCode_channelErrorCode (error : ChannelError) :
    validFailureCode .channel (channelErrorCode error) = true := by
  cases error with
  | tls error => cases error <;> rfl
  | _ => rfl

/-- The invariant of the process. -/
def AllValid (sent : List ConnectorReport) : Prop := ∀ report ∈ sent, report.Valid

variable {engine}

open Mut in
theorem allValid_send {report : ConnectorReport} (h : report.Valid) :
    Spec AllValid (send engine report) (fun _ => AllValid) (fun _ => AllValid) := by
  refine Spec.get_bind fun sent hsent => Spec.modify_bind ?_
  have hnext : AllValid (sent ++ [report]) := by
    intro other hother
    rcases List.mem_append.mp hother with hold | hnew
    · exact hsent other hold
    · rwa [List.mem_singleton.mp hnew]
  exact Spec.lift (fun _ _ => by rintro _ rfl; exact hnext) fun _ _ => by rintro _ rfl; exact hnext

open Mut in
theorem allValid_orReport {ε α : Type} {result : Except ε α} {stage : ConnectorFailureStage}
    {code : ε → UInt8} {error : ε → ConnectorProcessError}
    (h : ∀ e, validFailureCode stage (code e) = true) :
    Spec AllValid (orReport engine result stage code error) (fun _ => AllValid)
      (fun _ => AllValid) := by
  cases result with
  | ok value => exact Spec.pure fun _ hsent => hsent
  | error e => exact Spec.bind (allValid_send (h e)) fun _ => Spec.fail fun _ hsent => hsent

theorem valid_readyObservation {bootstrap : ConnectorBootstrap} {digest : Sha256Digest}
    {port : TcpPort} {session : Session} :
    (ConnectorReport.ready (readyObservation engine bootstrap digest port session)).Valid :=
  port.ne_zero

variable (engine) in
/-- The process sends valid reports only, whether it succeeds or fails. -/
theorem allValid_runConnectorProcess (bootstrap : ConnectorBootstrap) :
    Mut.Spec AllValid (runConnectorProcess engine bootstrap) (fun _ => AllValid)
      (fun _ => AllValid) := by
  refine Mut.Spec.lift_bind (fun _ _ => ?_) fun _ _ _ hsent => hsent
  refine (allValid_orReport fun _ => rfl).bind fun _ => ?_
  refine (allValid_orReport fun _ => rfl).bind fun planBytes => ?_
  refine (allValid_orReport fun _ => rfl).bind fun trustRootBytes => ?_
  refine (allValid_orReport fun _ => rfl).bind fun _ => ?_
  refine (allValid_orReport fun _ => rfl).bind fun plan => ?_
  refine (allValid_orReport validFailureCode_dnsErrorCode).bind fun resolution => ?_
  refine (allValid_orReport validFailureCode_tlsErrorCode).bind fun session => ?_
  refine (allValid_send valid_readyObservation).bind fun _ => ?_
  refine (allValid_orReport validFailureCode_channelErrorCode).bind fun traffic => ?_
  exact allValid_send trivial

theorem valid_of_mem_runConnectorProcess {bootstrap : ConnectorBootstrap}
    {report : ConnectorReport} (h : report ∈ (runConnectorProcess engine bootstrap []).2) :
    report.Valid := by
  have hspec := allValid_runConnectorProcess engine bootstrap [] (by simp [AllValid])
  rcases hrun : runConnectorProcess engine bootstrap [] with ⟨_ | _, sent⟩
  · rw [hrun] at hspec h
    exact hspec report h
  · rw [hrun] at hspec h
    exact hspec report h

/-- Every report of the process is read back by its supervisor, and a packet that the
supervisor accepts is the encoding of what it reads. -/
theorem reports_roundTrip :
    (∀ (Plan : Type) (engine : Engine Plan) (bootstrap : ConnectorBootstrap),
      ∀ report ∈ (runConnectorProcess engine bootstrap []).2,
        decodeReport report.encode = .ok report) ∧
    (∀ error, validFailureCode .resolution (dnsErrorCode error) = true) ∧
    (∀ error, validFailureCode .authentication (tlsErrorCode error) = true) ∧
    (∀ error, validFailureCode .channel (channelErrorCode error) = true) ∧
    (∀ bytes report, decodeReport bytes = .ok report → report.encode = bytes) ∧
    (∀ bytes bytes' report, decodeReport bytes = .ok report → decodeReport bytes' = .ok report →
      bytes = bytes') := by
  refine ⟨?_, validFailureCode_dnsErrorCode, validFailureCode_tlsErrorCode,
    validFailureCode_channelErrorCode, ?_, ?_⟩
  · intro Plan engine bootstrap report hsent
    exact decodeReport_eq_ok.mpr ⟨valid_of_mem_runConnectorProcess hsent, rfl⟩
  · intro bytes report h
    exact (decodeReport_eq_ok.mp h).2.symm
  · intro bytes bytes' report h h'
    rw [(decodeReport_eq_ok.mp h).2, (decodeReport_eq_ok.mp h').2]

/-- A process that inherits its control channel only, so that nothing is read. -/
def sampleEngine : Engine Unit where
  sha256 := Sha256.hash
  takeInheritedDescriptor descriptor := descriptor == 6
  readToEnd _ := none
  parseServiceExecutionPlan _ := none
  port _ := ⟨443, by decide⟩
  resolveService _ := .error .resolverUnavailable
  authenticateService _ _ := .error .endpointUnavailable
  proxyAuthenticatedChannel _ := .error .childRead
  sendPacket _ _ := true

def sampleId : ExecutionId :=
  ⟨#v[1, 2, 3, 4, 5, 6, 0x47, 8, 0x89, 10, 11, 12, 13, 14, 15, 16], by decide, by decide⟩

def sampleBootstrap : ConnectorBootstrap where
  planDescriptor := 3
  trustRootDescriptor := 4
  channelDescriptor := 5
  controlDescriptor := 6
  executionId := sampleId
  policyDigest := Vector.replicate 32 1
  processGeneration := ⟨7, by decide⟩
  channelId := ⟨Vector.replicate 16 2, by decide⟩
  planDigest := Vector.replicate 32 3
  trustRootDigest := Vector.replicate 32 4
  connectorDigest := Vector.replicate 32 5
  runtimeClosureDigest := Vector.replicate 32 6
  resolverConfigurationDigest := Vector.replicate 32 7

/-- A session with the endpoint `[2001:db8::10]:443`. -/
def sampleReady : ConnectorReady where
  executionId := sampleId
  policyDigest := Vector.replicate 32 1
  processGeneration := ⟨7, by decide⟩
  channelId := ⟨Vector.replicate 16 2, by decide⟩
  setupBindingDigest := Vector.replicate 32 8
  dnsObservationDigest := Vector.replicate 32 3
  selectedEndpoint :=
    ⟨.v6 #v[0x20, 0x01, 0x0d, 0xb8, 0, 0, 0, 0, 0, 0, 0, 0, 0, 0, 0, 0x10], 443⟩
  tlsVersion := .tls13
  tlsImplementationDigest := Vector.replicate 32 4
  certificateChainDigest := Vector.replicate 32 5
  handshakeBytes := 8192
  authenticatedNs := 4000

theorem reports_roundTrip_sample :
    decodeReport (ConnectorReport.failure ⟨.bootstrap, 1⟩).encode =
      .ok (.failure ⟨.bootstrap, 1⟩) ∧
    ∀ bytes, decodeReport bytes = .ok (.ready sampleReady) → bytes = encodeReady sampleReady := by
  have hready : decodeReport (encodeReady sampleReady) = .ok (.ready sampleReady) :=
    decodeReport_eq_ok.mpr ⟨(show (443 : UInt16) ≠ 0 by decide), rfl⟩
  have hsent : .failure ⟨.bootstrap, 1⟩ ∈
      (runConnectorProcess sampleEngine sampleBootstrap []).2 := by
    exact List.mem_singleton.mpr rfl
  obtain ⟨hread, -, -, -, -, hunique⟩ := reports_roundTrip
  refine ⟨hread Unit sampleEngine sampleBootstrap _ hsent, fun bytes hbytes => ?_⟩
  rw [hunique bytes _ _ hbytes hready]

end ProofboundRuntime.Connector.Process
