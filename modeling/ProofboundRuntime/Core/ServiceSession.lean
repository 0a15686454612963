import ProofboundRuntime.Lib.Dedup
import ProofboundRuntime.Lib.Path
import ProofboundRuntime.Core.Authority
import ProofboundRuntime.Core.Network

/-!
# Authenticated service sessions

The rest of `network.rs`: what a plan says about a service session, each type with the
conditions of its constructor, and the comparisons of two sessions.

`value.parse::<IpAddr>()` of the standard library decides which of two errors a rejected
service name gets; it is the parameter `isIpAddr`.
-/

namespace ProofboundRuntime.Core

open Result Sorting

/-- The errors of `network.rs`. -/
inductive NetworkAuthorityError where
  | invalidSupportPath
  | invalidServiceName
  | serviceNameIsAddress
  | zeroTcpPort
  | zeroResolverBound
  | attemptDeadlineExceedsResolution
  | resolutionDeadlineExceedsSetup
  | zeroSessionBound
  | dnsMessageCountInsufficient
  | attemptCountExceedsAnswers
  | reservedChildDescriptor
  | invalidCredentialSourceId
  | credentialServiceMismatch
deriving DecidableEq

/-! ## Paths and names -/

namespace NetworkSupportPath

/-- The check of `NetworkSupportPath::new` before the path is built: a leading slash, and
then the root or parts none of which is empty, `.` or `..`. -/
def accepts (value : String) : Bool :=
  let bytes := Utf8.bytes value
  Path.isAbsolute bytes && (bytes == [Path.separator] ||
    (bytes.tail.splitOn Path.separator).all fun part =>
      part != [] && part != Path.dot && part != Path.dotDot)

end NetworkSupportPath

/-- An absolute path without `.` and `..`. -/
structure NetworkSupportPath where
  path : AuthorityPath
  accepted : NetworkSupportPath.accepts path.asStr = true
deriving DecidableEq

namespace NetworkSupportPath

def asStr (path : NetworkSupportPath) : String := path.path.asStr

/-- `NetworkSupportPath::new`. -/
def new (value : String) : Except NetworkAuthorityError NetworkSupportPath :=
  match hpath : AuthorityPath.new value with
  | .error _ => .error .invalidSupportPath
  | .ok path =>
    if h : accepts value = true then .ok ⟨path, by rw [AuthorityPath.new_eq_ok.mp hpath, h]⟩
    else .error .invalidSupportPath

/-- The derived order. -/
def cmp : NetworkSupportPath → NetworkSupportPath → Ordering :=
  compareOn fun path => Utf8.bytes path.asStr

theorem asStr_inj {a b : NetworkSupportPath} : a.asStr = b.asStr ↔ a = b := by
  constructor
  · intro h
    obtain ⟨⟨text, _, _⟩, _⟩ := a
    obtain ⟨⟨text', _, _⟩, _⟩ := b
    cases h
    rfl
  · exact congrArg asStr

instance : Std.TransCmp cmp := by
  unfold cmp
  infer_instance

instance : Std.LawfulEqCmp cmp where
  eq_of_compare h := asStr_inj.mp (Utf8.bytes_inj.mp (Std.LawfulEqOrd.eq_of_compare h))

end NetworkSupportPath

section ServiceName

variable (isIpAddr : String → Bool)

/-- `ServiceName::new` with its errors; what `IpAddr` parses is an argument. -/
def ServiceName.newOrError (value : String) : Except NetworkAuthorityError ServiceName := do
  let bytes := Utf8.bytes value
  rejectIf (bytes = [] ∨ 253 < bytes.length ∨ bytes.getLast? = some 0x2e) .invalidServiceName
  rejectIf (isIpAddr value = true ∨ bytes.all (fun b => Ascii.isDigit b || b == 0x2e) = true)
    .serviceNameIsAddress
  okOr (ServiceName.new value) .invalidServiceName

end ServiceName

namespace CredentialSourceId

/-- The check of `CredentialSourceId::new`. -/
def accepts (value : String) : Bool :=
  let bytes := Utf8.bytes value
  bytes ≠ [] && bytes.length ≤ 128 && bytes.head?.any Ascii.isLowercase &&
    bytes.getLast?.any (fun b => Ascii.isLowercase b || Ascii.isDigit b) &&
    bytes.all fun b => Ascii.isLowercase b || Ascii.isDigit b || b == 0x2e || b == 0x2d

end CredentialSourceId

/-- A text in lower case. -/
structure CredentialSourceId where
  asStr : String
  accepted : CredentialSourceId.accepts asStr = true
deriving DecidableEq

/-- `CredentialSourceId::new`. -/
def CredentialSourceId.new (value : String) : Except NetworkAuthorityError CredentialSourceId :=
  if h : accepts value = true then .ok ⟨value, h⟩ else .error .invalidCredentialSourceId

/-! ## Endpoints -/

/-- A port that is not zero. -/
@[ext] structure TcpPort where
  get : UInt16
  ne_zero : get ≠ 0

instance : DecidableEq TcpPort :=
  fun _ _ => decidable_of_iff _ TcpPort.ext_iff.symm

/-- `TcpPort::new`. -/
def TcpPort.new (value : UInt16) : Except NetworkAuthorityError TcpPort :=
  if h : value = 0 then .error .zeroTcpPort else .ok ⟨value, h⟩

/-- The address of a resolver. -/
inductive ResolverAddress where
  | ipv4 (bytes : Vector UInt8 4)
  | ipv6 (bytes : Vector UInt8 16)
deriving DecidableEq

/-- Where a resolver is reached. -/
structure ResolverEndpoint where
  address : ResolverAddress
  port : TcpPort
deriving DecidableEq

/-- A descriptor of no standard stream. -/
structure ChildChannelDescriptor where
  get : UInt16
  three_le : 3 ≤ get
deriving DecidableEq

/-- `ChildChannelDescriptor::new`. -/
def ChildChannelDescriptor.new (value : UInt16) :
    Except NetworkAuthorityError ChildChannelDescriptor :=
  if h : value < 3 then .error .reservedChildDescriptor else .ok ⟨value, UInt16.not_lt.mp h⟩

/-- The order of the answers. -/
inductive AddressOrder where
  | ipv4ThenIpv6Lexicographic
deriving DecidableEq

/-- The oldest version allowed. -/
inductive MinimumTlsVersion where
  | tls12
  | tls13
deriving DecidableEq

/-- By an exact DNS name. -/
inductive ServiceNameVerification where
  | dnsSanExact
deriving DecidableEq

/-- Revocation is not checked. -/
inductive RevocationPolicy where
  | notCheckedRecordedAssumption
deriving DecidableEq

/-- The child's channel. -/
inductive LocalChannelProtocol where
  | unixStreamV1
deriving DecidableEq

/-! ## Policies -/

/-- A resolver and its bounds, none of them zero. -/
structure ResolutionPolicy where
  endpoint : ResolverEndpoint
  configuration : NetworkSupportPath
  maximumCnameDepth : UInt16
  maximumAnswerCount : UInt16
  maximumResponseBytes : UInt64
  resolutionDeadlineMs : UInt64
  attemptDeadlineMs : UInt64
  addressOrder : AddressOrder
  ne_zero : ¬(maximumCnameDepth = 0 ∨ maximumAnswerCount = 0 ∨ maximumResponseBytes = 0 ∨
    resolutionDeadlineMs = 0 ∨ attemptDeadlineMs = 0)
  attempt_le : attemptDeadlineMs ≤ resolutionDeadlineMs
deriving DecidableEq

/-- `ResolutionPolicy::new`. -/
def ResolutionPolicy.new (endpoint : ResolverEndpoint) (configuration : NetworkSupportPath)
    (maximumCnameDepth maximumAnswerCount : UInt16)
    (maximumResponseBytes resolutionDeadlineMs attemptDeadlineMs : UInt64)
    (addressOrder : AddressOrder) : Except NetworkAuthorityError ResolutionPolicy :=
  if hzero : maximumCnameDepth = 0 ∨ maximumAnswerCount = 0 ∨ maximumResponseBytes = 0 ∨
      resolutionDeadlineMs = 0 ∨ attemptDeadlineMs = 0 then .error .zeroResolverBound
  else if hattempt : resolutionDeadlineMs < attemptDeadlineMs then
    .error .attemptDeadlineExceedsResolution
  else
    .ok ⟨endpoint, configuration, maximumCnameDepth, maximumAnswerCount, maximumResponseBytes,
      resolutionDeadlineMs, attemptDeadlineMs, addressOrder, hzero, UInt64.not_lt.mp hattempt⟩

/-- What the service must prove. -/
structure TlsPolicy where
  trustRootSet : NetworkSupportPath
  minimumVersion : MinimumTlsVersion
  serviceNameVerification : ServiceNameVerification
  revocation : RevocationPolicy
deriving DecidableEq

/-- The bounds of a session, none of them zero. -/
structure ServiceSessionLimits where
  setupTimeMs : UInt64
  sessionTimeMs : UInt64
  childToServiceBytes : UInt64
  serviceToChildBytes : UInt64
  dnsMessages : UInt16
  endpointAttempts : UInt16
  tlsHandshakeBytes : UInt64
  ne_zero : ¬(setupTimeMs = 0 ∨ sessionTimeMs = 0 ∨ childToServiceBytes = 0 ∨
    serviceToChildBytes = 0 ∨ dnsMessages = 0 ∨ endpointAttempts = 0 ∨ tlsHandshakeBytes = 0)
  two_le : 2 ≤ dnsMessages
deriving DecidableEq

/-- `ServiceSessionLimits::new`. -/
def ServiceSessionLimits.new (setupTimeMs sessionTimeMs childToServiceBytes
    serviceToChildBytes : UInt64) (dnsMessages endpointAttempts : UInt16)
    (tlsHandshakeBytes : UInt64) (maximumAnswerCount : UInt16) :
    Except NetworkAuthorityError ServiceSessionLimits :=
  if hzero : setupTimeMs = 0 ∨ sessionTimeMs = 0 ∨ childToServiceBytes = 0 ∨
      serviceToChildBytes = 0 ∨ dnsMessages = 0 ∨ endpointAttempts = 0 ∨
      tlsHandshakeBytes = 0 then .error .zeroSessionBound
  else if hmessages : dnsMessages < 2 then .error .dnsMessageCountInsufficient
  else if maximumAnswerCount < endpointAttempts then .error .attemptCountExceedsAnswers
  else
    .ok ⟨setupTimeMs, sessionTimeMs, childToServiceBytes, serviceToChildBytes, dnsMessages,
      endpointAttempts, tlsHandshakeBytes, hzero, UInt16.not_lt.mp hmessages⟩

/-- Where a credential comes from. -/
structure CredentialSource where
  id : CredentialSourceId
  service : ServiceName
  environment : EnvironmentName
deriving DecidableEq

/-- `CredentialSource::new`. -/
def CredentialSource.new (id : CredentialSourceId) (service : ServiceName)
    (environment : EnvironmentName) (declaredService : ServiceName) :
    Except NetworkAuthorityError CredentialSource :=
  if service ≠ declaredService then .error .credentialServiceMismatch
  else .ok ⟨id, service, environment⟩

/-! ## Sessions -/

/-- A session whose parts agree with each other. -/
structure AuthenticatedServiceSession where
  service : ServiceName
  port : TcpPort
  resolution : ResolutionPolicy
  tls : TlsPolicy
  limits : ServiceSessionLimits
  connectorExecutable : NetworkSupportPath
  connectorRuntimeRead : List NetworkSupportPath
  localChannel : LocalChannelProtocol
  childDescriptor : ChildChannelDescriptor
  credentialSource : Option CredentialSource
  deadline_le : resolution.resolutionDeadlineMs ≤ limits.setupTimeMs
  attempts_le : limits.endpointAttempts ≤ resolution.maximumAnswerCount
  bound : ∀ source ∈ credentialSource, source.service = service
  strict : Strict NetworkSupportPath.cmp connectorRuntimeRead
deriving DecidableEq

/-- `AuthenticatedServiceSession::new`. -/
def AuthenticatedServiceSession.new (service : ServiceName) (port : TcpPort)
    (resolution : ResolutionPolicy) (tls : TlsPolicy) (limits : ServiceSessionLimits)
    (connectorExecutable : NetworkSupportPath) (connectorRuntimeRead : List NetworkSupportPath)
    (localChannel : LocalChannelProtocol) (childDescriptor : ChildChannelDescriptor)
    (credentialSource : Option CredentialSource) :
    Except NetworkAuthorityError AuthenticatedServiceSession :=
  if hdeadline : limits.setupTimeMs < resolution.resolutionDeadlineMs then
    .error .resolutionDeadlineExceedsSetup
  else if hattempts : resolution.maximumAnswerCount < limits.endpointAttempts then
    .error .attemptCountExceedsAnswers
  else if hbound : ∃ source ∈ credentialSource, source.service ≠ service then
    .error .credentialServiceMismatch
  else
    .ok ⟨service, port, resolution, tls, limits, connectorExecutable,
      dedupBy (· == ·) (sortBy NetworkSupportPath.cmp connectorRuntimeRead), localChannel,
      childDescriptor, credentialSource, UInt64.not_lt.mp hdeadline, UInt16.not_lt.mp hattempts,
      fun source hsource => not_not.mp fun hne => hbound ⟨source, hsource, hne⟩,
      strict_dedupBy_sortBy _⟩

/-! ## Comparisons -/

/-- `ResolutionPolicy::is_no_more_permissive_than`. -/
def ResolutionPolicy.isNoMorePermissiveThan (self other : ResolutionPolicy) : Bool :=
  self.endpoint == other.endpoint && self.configuration == other.configuration &&
    self.addressOrder == other.addressOrder &&
    self.maximumCnameDepth ≤ other.maximumCnameDepth &&
    self.maximumAnswerCount ≤ other.maximumAnswerCount &&
    self.maximumResponseBytes ≤ other.maximumResponseBytes &&
    self.resolutionDeadlineMs ≤ other.resolutionDeadlineMs &&
    self.attemptDeadlineMs ≤ other.attemptDeadlineMs

/-- Every bound is at most the other. -/
def ServiceSessionLimits.isNoMorePermissiveThan (self other : ServiceSessionLimits) : Bool :=
  self.setupTimeMs ≤ other.setupTimeMs && self.sessionTimeMs ≤ other.sessionTimeMs &&
    self.childToServiceBytes ≤ other.childToServiceBytes &&
    self.serviceToChildBytes ≤ other.serviceToChildBytes &&
    self.dnsMessages ≤ other.dnsMessages && self.endpointAttempts ≤ other.endpointAttempts &&
    self.tlsHandshakeBytes ≤ other.tlsHandshakeBytes

/-- The identities agree, and the rest is no more permissive. -/
def AuthenticatedServiceSession.isNoMorePermissiveThan
    (self other : AuthenticatedServiceSession) : Bool :=
  self.service == other.service && self.port == other.port &&
    self.resolution.isNoMorePermissiveThan other.resolution && self.tls == other.tls &&
    self.limits.isNoMorePermissiveThan other.limits &&
    self.connectorExecutable == other.connectorExecutable &&
    self.connectorRuntimeRead.all (fun path => other.connectorRuntimeRead.contains path) &&
    self.localChannel == other.localChannel && self.childDescriptor == other.childDescriptor &&
    self.credentialSource == other.credentialSource

end ProofboundRuntime.Core
