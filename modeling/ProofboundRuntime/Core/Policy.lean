import ProofboundRuntime.Core.Normalize
import ProofboundRuntime.Core.Plan

/-!
# Compiled policies

`policy.rs` and `service_policy.rs`: the policy of a plan, its bytes and the comparison
with the plan, for the two network profiles.
-/

namespace ProofboundRuntime.Core

open Cbor Result

/-! ## The policy of a child -/

/-- Why a policy has no bytes. -/
inductive PolicyEncodingError where
  | unsupportedVersion
  | canonicalEncoding
deriving DecidableEq

/-- The filter of a child's calls. -/
inductive SeccompPolicy where
  | denyNetworkV1
deriving DecidableEq

/-- `PR_SET_NO_NEW_PRIVS`. -/
inductive NoNewPrivileges where
  | required
deriving DecidableEq

/-- `CompiledPolicy`; the types `FilesystemPolicy` and `CgroupPolicy` wrap their one
field. -/
structure CompiledPolicy where
  filesystem : List PathAuthority
  environment : List EnvironmentName
  network : SeccompPolicy
  cgroup : ResourceLimits
  noNewPrivileges : NoNewPrivileges
deriving DecidableEq

/-- `compile_policy`. -/
def compilePolicy (authority : NormalizedAuthority) : CompiledPolicy where
  filesystem := authority.paths
  environment := authority.environment
  network := .denyNetworkV1
  cgroup := authority.limits
  noNewPrivileges := .required

/-! ## Comparisons -/

/-- A bound is less than none. -/
def optionalBoundIsNoMorePermissive : Option UInt64 → Option UInt64 → Bool
  | some left, some right => left ≤ right
  | some _, none => true
  | none, none => true
  | none, some _ => false

/-- Every limit is at most the other. -/
def ResourceLimits.isNoMorePermissiveThan (self other : ResourceLimits) : Bool :=
  self.processes.get ≤ other.processes.get &&
    self.wallTime.milliseconds ≤ other.wallTime.milliseconds &&
    self.stdout.get ≤ other.stdout.get && self.stderr.get ≤ other.stderr.get &&
    optionalBoundIsNoMorePermissive (self.memory.map MemoryByteLimit.get)
      (other.memory.map MemoryByteLimit.get) &&
    optionalBoundIsNoMorePermissive (self.swap.map SwapByteLimit.get)
      (other.swap.map SwapByteLimit.get)

/-- A policy against its plan. -/
def CompiledPolicy.isNoMorePermissiveThan (self : CompiledPolicy)
    (authority : NormalizedAuthority) : Bool :=
  self.filesystem.all (fun rule => authority.paths.contains rule) &&
    self.environment.all (fun name => authority.environment.contains name) &&
    self.cgroup.isNoMorePermissiveThan authority.limits &&
    self.network == .denyNetworkV1 && self.noNewPrivileges == .required

/-! ## The bytes of a policy -/

/-- `POLICY_MODEL_VERSION_V2`. -/
def policySchemaV2 : String := "proofbound-runtime-linux-policy/2"

/-- `file_access_name`. -/
def fileAccessName : FileAccess → String
  | .read => "read"
  | .write => "write"
  | .execute => "execute"

/-- `path_role_name`. -/
def pathRoleName : PathRole → String
  | .projectInput => "project-input"
  | .outputRoot => "output-root"
  | .runtimeExecutable => "runtime-executable"
  | .runtimeLoaderExecutable => "runtime-loader-executable"
  | .runtimeLibrary => "runtime-library"

/-- One rule of the filesystem policy. -/
def ruleValue (rule : PathAuthority) : Value :=
  .map [
    ("path", .text rule.path.asStr),
    ("role", .text (pathRoleName rule.role)),
    ("access", .text (fileAccessName rule.access))]

/-- The limits of a version 2 profile. -/
def cgroupValue (limits : ResourceLimits) (memory : MemoryByteLimit) (swap : SwapByteLimit) :
    Value :=
  .map [
    ("pids.max", .unsigned limits.processes.get.toUInt64),
    ("memory.max", .unsigned memory.get),
    ("memory.oom.group", .unsigned 1),
    ("memory.swap.max", .unsigned swap.get),
    ("stderr_bytes", .unsigned limits.stderr.get),
    ("stdout_bytes", .unsigned limits.stdout.get),
    ("wall_time_ms", .unsigned limits.wallTime.milliseconds)]

namespace CompiledPolicy

/-- `CompiledPolicy::wire_value`. -/
def wireValue (policy : CompiledPolicy) (memory : MemoryByteLimit) (swap : SwapByteLimit) :
    Value :=
  .map [
    ("schema", .text policySchemaV2),
    ("cgroup", cgroupValue policy.cgroup memory swap),
    ("network", .text "deny-network-v1"),
    ("filesystem", .array (policy.filesystem.map ruleValue)),
    ("environment", .array (policy.environment.map fun name => .text name.asStr)),
    ("no_new_privileges", .bool true)]

/-- The two bounds are there when the limits are those of version 2. -/
def canonicalBytes (policy : CompiledPolicy) : Except PolicyEncodingError (List UInt8) := do
  let memory ← okOr policy.cgroup.memory .unsupportedVersion
  let swap ← okOr policy.cgroup.swap .unsupportedVersion
  (WireV2.encode (policy.wireValue memory swap)).mapError fun _ => .canonicalEncoding

end CompiledPolicy

/-! ## The policy of a service session -/

/-- The filter with a channel. -/
inductive ServiceSeccompPolicy where
  | channelOnlyV1
deriving DecidableEq

/-- The policy of a child with a session. -/
structure CompiledServicePolicy where
  child : CompiledPolicy
  serviceSession : AuthenticatedServiceSession
  childNetwork : ServiceSeccompPolicy
deriving DecidableEq

/-- `compile_service_policy`. -/
def compileServicePolicy (plan : Plan.ServiceExecutionPlan) :
    Except AuthorityError CompiledServicePolicy := do
  let authority ← normalizeAuthority plan.base.authority
  pure ⟨compilePolicy authority, plan.serviceSession, .channelOnlyV1⟩

/-- A service policy against its plan. -/
def CompiledServicePolicy.isNoMorePermissiveThan (self : CompiledServicePolicy)
    (plan : Plan.ServiceExecutionPlan) : Bool :=
  match normalizeAuthority plan.base.authority with
  | .error _ => false
  | .ok normalized =>
    self.child.isNoMorePermissiveThan normalized &&
      self.serviceSession.isNoMorePermissiveThan plan.serviceSession &&
      self.childNetwork == .channelOnlyV1

/-- The family and its bytes. -/
def addressValue : ResolverAddress → Value
  | .ipv4 bytes => .map [("family", .text "ipv4"), ("bytes", .bytes bytes.toList)]
  | .ipv6 bytes => .map [("family", .text "ipv6"), ("bytes", .bytes bytes.toList)]

def addressOrderName : AddressOrder → String
  | .ipv4ThenIpv6Lexicographic => "ipv4-then-ipv6-lexicographic"

def minimumVersionName : MinimumTlsVersion → String
  | .tls12 => "tls-1.2"
  | .tls13 => "tls-1.3"

def verificationName : ServiceNameVerification → String
  | .dnsSanExact => "dns-san-exact"

def revocationName : RevocationPolicy → String
  | .notCheckedRecordedAssumption => "not-checked-recorded-assumption"

def localChannelName : LocalChannelProtocol → String
  | .unixStreamV1 => "unix-stream-v1"

/-- The item of a resolver. -/
def resolverValue (resolution : ResolutionPolicy) : Value :=
  .map [
    ("address", addressValue resolution.endpoint.address),
    ("port", .unsigned resolution.endpoint.port.get.toUInt64),
    ("configuration", .text resolution.configuration.asStr),
    ("maximum_cname_depth", .unsigned resolution.maximumCnameDepth.toUInt64),
    ("maximum_answer_count", .unsigned resolution.maximumAnswerCount.toUInt64),
    ("maximum_response_bytes", .unsigned resolution.maximumResponseBytes),
    ("resolution_deadline_ms", .unsigned resolution.resolutionDeadlineMs),
    ("attempt_deadline_ms", .unsigned resolution.attemptDeadlineMs),
    ("address_order", .text (addressOrderName resolution.addressOrder))]

/-- Resumption and early data are denied. -/
def tlsValue (tls : TlsPolicy) : Value :=
  .map [
    ("trust_root_set", .text tls.trustRootSet.asStr),
    ("minimum_version", .text (minimumVersionName tls.minimumVersion)),
    ("service_name_verification", .text (verificationName tls.serviceNameVerification)),
    ("revocation", .text (revocationName tls.revocation)),
    ("session_resumption", .text "deny"),
    ("early_data", .text "deny")]

/-- The item of the bounds. -/
def sessionLimitsValue (limits : ServiceSessionLimits) : Value :=
  .map [
    ("setup_time_ms", .unsigned limits.setupTimeMs),
    ("session_time_ms", .unsigned limits.sessionTimeMs),
    ("child_to_service_bytes", .unsigned limits.childToServiceBytes),
    ("service_to_child_bytes", .unsigned limits.serviceToChildBytes),
    ("dns_messages", .unsigned limits.dnsMessages.toUInt64),
    ("endpoint_attempts", .unsigned limits.endpointAttempts.toUInt64),
    ("tls_handshake_bytes", .unsigned limits.tlsHandshakeBytes)]

/-- Null without a source. -/
def credentialValue : Option CredentialSource → Value
  | none => .null
  | some source =>
    .map [
      ("id", .text source.id.asStr),
      ("service", .text source.service.asStr),
      ("environment", .text source.environment.asStr)]

/-- `service_session_value`. -/
def serviceSessionValue (session : AuthenticatedServiceSession) : Value :=
  .map [
    ("mode", .text "authenticated-service-session-v1"),
    ("service", .map [
      ("name", .text session.service.asStr),
      ("port", .unsigned session.port.get.toUInt64)]),
    ("resolver", resolverValue session.resolution),
    ("tls", tlsValue session.tls),
    ("limits", sessionLimitsValue session.limits),
    ("connector_executable", .text session.connectorExecutable.asStr),
    ("connector_runtime_read",
      .array (session.connectorRuntimeRead.map fun path => .text path.asStr)),
    ("local_channel", .map [
      ("protocol", .text (localChannelName session.localChannel)),
      ("child_descriptor", .unsigned session.childDescriptor.get.toUInt64)]),
    ("credential_source", credentialValue session.credentialSource)]

def seccompName : SeccompPolicy → String
  | .denyNetworkV1 => "deny-network-v1"

def serviceSeccompName : ServiceSeccompPolicy → String
  | .channelOnlyV1 => "channel-only-v1"

namespace CompiledServicePolicy

/-- The item, with the two bounds of version 2. -/
def item (policy : CompiledServicePolicy) (memory : MemoryByteLimit) (swap : SwapByteLimit) :
    Value :=
  .map [
    ("schema", .text policySchemaV2),
    ("cgroup", cgroupValue policy.child.cgroup memory swap),
    ("network", .text (seccompName policy.child.network)),
    ("child_network", .text (serviceSeccompName policy.childNetwork)),
    ("service_session", serviceSessionValue policy.serviceSession),
    ("filesystem", .array (policy.child.filesystem.map ruleValue)),
    ("environment", .array (policy.child.environment.map fun name => .text name.asStr)),
    ("no_new_privileges", .bool true)]

/-- The item, if the limits are of version 2. -/
def wireValue (policy : CompiledServicePolicy) : Except PolicyEncodingError Value := do
  let memory ← okOr policy.child.cgroup.memory .unsupportedVersion
  let swap ← okOr policy.child.cgroup.swap .unsupportedVersion
  pure (policy.item memory swap)

/-- `CompiledServicePolicy::canonical_bytes`. -/
def canonicalBytes (policy : CompiledServicePolicy) :
    Except PolicyEncodingError (List UInt8) := do
  let value ← policy.wireValue
  (WireV2.encode value).mapError fun _ => .canonicalEncoding

end CompiledServicePolicy

end ProofboundRuntime.Core
