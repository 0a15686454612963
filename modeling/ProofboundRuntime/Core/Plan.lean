import ProofboundRuntime.Core.Identity
import ProofboundRuntime.Core.ServiceSession
import ProofboundRuntime.Core.WireV2

/-!
# Execution plans

`plan.rs`: the parsers of a plan.  A version 2 plan is one item of deterministic CBOR
whose maps are closed: each key is taken out of its map, and nothing may be left.  A
version 1 plan is TOML.

The TOML reader is outside of the repository; it is the parameter `tomlFromStr`, and the
conversion of its value into the fields of a plan is modelled here.
-/

namespace ProofboundRuntime.Core.Plan

open Cbor Result

/-! ## Plans -/

/-- The errors of `plan.rs`. -/
inductive PlanError where
  | malformedToml
  | unknownField
  | invalidSchema
  | unsupportedVersion
  | executionObsolete
  | malformedCbor
  | invalidPlanId
  | argumentContainsNull
  | unsupportedNetwork
  | networkAuthority (error : NetworkAuthorityError)
  | networkSupportPathInvalid
  | credentialEnvironmentMissing
  | executableAuthorityMissing
  | executableAuthorityCount
  | outputRootAuthorityCount
  | runtimeLibraryPathInvalid
  | authority (error : AuthorityError)
deriving DecidableEq

/-- An error of the session. -/
def PlanError.ofNetwork (error : NetworkAuthorityError) : PlanError :=
  if error = .invalidSupportPath then .networkSupportPathInvalid else .networkAuthority error

/-- `?` on the result of a constructor of `authority.rs`. -/
def orAuthority {α : Type} (result : Except AuthorityError α) : Except PlanError α :=
  result.mapError .authority

/-- `?` on the result of a constructor of `network.rs`. -/
def orNetwork {α : Type} (result : Except NetworkAuthorityError α) : Except PlanError α :=
  result.mapError .ofNetwork

/-- `PlanId::new`. -/
def planIdNew (value : String) : Except PlanError PlanId :=
  if h : planIdInvalid (Utf8.bytes value) then .error .invalidPlanId else .ok ⟨value, h⟩

/-- A text without a null byte. -/
@[ext] structure CommandArgument where
  asStr : String
  no_null : 0 ∉ Utf8.bytes asStr

instance : DecidableEq CommandArgument :=
  fun _ _ => decidable_of_iff _ CommandArgument.ext_iff.symm

/-- `CommandArgument::new`. -/
def CommandArgument.new (value : String) : Except PlanError CommandArgument :=
  if h : 0 ∈ Utf8.bytes value then .error .argumentContainsNull else .ok ⟨value, h⟩

/-- What is executed. -/
structure ExecutionCommand where
  executable : AuthorityPath
  arguments : List CommandArgument
  workingDirectory : AuthorityPath
deriving DecidableEq

/-- A plan without a network. -/
structure ExecutionPlan where
  id : PlanId
  command : ExecutionCommand
  authority : AuthorityPlan
deriving DecidableEq

/-- A plan with a session. -/
structure ServiceExecutionPlan where
  base : ExecutionPlan
  serviceSession : AuthenticatedServiceSession
deriving DecidableEq

/-- The network of a plan. -/
inductive ParsedNetworkAuthority where
  | deny
  | service (session : AuthenticatedServiceSession)
deriving DecidableEq

/-- A plan of version 2. -/
inductive ParsedExecutionPlan where
  | deny (plan : ExecutionPlan)
  | service (plan : ServiceExecutionPlan)
deriving DecidableEq

/-- `PLAN_SCHEMA`. -/
def planSchema : String := "proofbound-runtime-plan/1"

/-- `PLAN_SCHEMA_V2`. -/
def planSchemaV2 : String := "proofbound-runtime-plan/2"

/-! ## Paths -/

/-- `append_paths`, the paths that it appends. -/
def appendPaths (paths : List String) (access : FileAccess) (role : PathRole) :
    Except PlanError (List PathAuthority) :=
  collect (fun path => do
    let path ← orAuthority (AuthorityPath.new path)
    pure ⟨path, access, role⟩) paths

/-- One turn of the loop of `append_runtime_library_paths`. -/
def runtimeLibraryPath (path : String) : Except PlanError PathAuthority := do
  let path ← orAuthority (AuthorityPath.new path)
  let bytes := Utf8.bytes path.asStr
  rejectIf (Path.isAbsolute bytes = false ∨
      ((Path.components bytes).any fun component =>
        component == .curDir || component == .parentDir) = true)
    .runtimeLibraryPathInvalid
  pure ⟨path, .read, .runtimeLibrary⟩

/-- Paths of shared libraries. -/
def appendRuntimeLibraryPaths (paths : List String) : Except PlanError (List PathAuthority) :=
  collect runtimeLibraryPath paths

/-- The paths of a plan in the order in which both parsers append them, and the check
that the executable is among those that may be executed. -/
def planPaths (executable : AuthorityPath) (read runtimeRead write execute : List String) :
    Except PlanError (List PathAuthority) := do
  let read ← appendPaths read .read .projectInput
  let runtimeRead ← appendRuntimeLibraryPaths runtimeRead
  let write ← appendPaths write .write .outputRoot
  let execute ← appendPaths execute .execute .runtimeExecutable
  let paths := read ++ runtimeRead ++ write ++ execute
  rejectIf (¬∃ entry ∈ paths, entry.access = .execute ∧ entry.path = executable)
    .executableAuthorityMissing
  pure paths

/-! ## Fields of a CBOR map -/

/-- A decoded map. -/
abbrev CborMap := List (String × Value)

/-- An item that is a map. -/
def cborMap : Value → Except PlanError CborMap
  | .map entries => .ok entries
  | _ => .error .invalidSchema

/-- Takes the first entry with the key out of the map. -/
def take (map : CborMap) (key : String) : Except PlanError (Value × CborMap) := do
  let value ← okOr (lookup map key) .invalidSchema
  pure (value, map.eraseP fun entry => entry.1 == key)

/-- `take`, if the key is there. -/
def takeOptional (map : CborMap) (key : String) : Option Value × CborMap :=
  (lookup map key, map.eraseP fun entry => entry.1 == key)

/-- No key is left. -/
def requireEmpty (map : CborMap) : Except PlanError Unit := rejectIf (map ≠ []) .unknownField

/-- An item that is a text. -/
def cborText : Value → Except PlanError String
  | .text value => .ok value
  | _ => .error .invalidSchema

/-- An array of texts. -/
def cborTextArray : Value → Except PlanError (List String)
  | .array values => collect cborText values
  | _ => .error .invalidSchema

/-- An unsigned item. -/
def cborU64 : Value → Except PlanError UInt64
  | .unsigned value => .ok value
  | _ => .error .invalidSchema

/-- One below `2 ^ 32`. -/
def cborU32 (value : Value) : Except PlanError UInt32 := do
  let value ← cborU64 value
  if value.toNat < 2 ^ 32 then pure value.toUInt32 else .error .invalidSchema

/-- One below `2 ^ 16`. -/
def cborU16 (value : Value) : Except PlanError UInt16 := do
  let value ← cborU64 value
  if value.toNat < 2 ^ 16 then pure value.toUInt16 else .error .invalidSchema

/-- An item of bytes. -/
def cborBytes : Value → Except PlanError (List UInt8)
  | .bytes value => .ok value
  | _ => .error .invalidSchema

/-- `take` and a conversion of what it takes. -/
def takeAs {α : Type} (convert : Value → Except PlanError α) (map : CborMap) (key : String) :
    Except PlanError (α × CborMap) := do
  let (value, map) ← take map key
  let value ← convert value
  pure (value, map)

/-! ## The network authority -/

/-- A family and its length. -/
def resolverAddress (family : String) (bytes : List UInt8) : Except PlanError ResolverAddress :=
  if family = "ipv4" then
    if h : bytes.length = 4 then .ok (.ipv4 ⟨bytes.toArray, h⟩) else .error .invalidSchema
  else if family = "ipv6" then
    if h : bytes.length = 16 then .ok (.ipv6 ⟨bytes.toArray, h⟩) else .error .invalidSchema
  else .error .invalidSchema

def addressOrder (text : String) : Except PlanError AddressOrder :=
  if text = "ipv4-then-ipv6-lexicographic" then .ok .ipv4ThenIpv6Lexicographic
  else .error .invalidSchema

def minimumTlsVersion (text : String) : Except PlanError MinimumTlsVersion :=
  if text = "tls-1.2" then .ok .tls12
  else if text = "tls-1.3" then .ok .tls13
  else .error .invalidSchema

def serviceNameVerification (text : String) : Except PlanError ServiceNameVerification :=
  if text = "dns-san-exact" then .ok .dnsSanExact else .error .invalidSchema

def revocationPolicy (text : String) : Except PlanError RevocationPolicy :=
  if text = "not-checked-recorded-assumption" then .ok .notCheckedRecordedAssumption
  else .error .invalidSchema

def localChannelProtocol (text : String) : Except PlanError LocalChannelProtocol :=
  if text = "unix-stream-v1" then .ok .unixStreamV1 else .error .invalidSchema

/-- A support path under a key. -/
def takeSupportPath (map : CborMap) (key : String) :
    Except PlanError (NetworkSupportPath × CborMap) :=
  takeAs (fun value => do orNetwork (NetworkSupportPath.new (← cborText value))) map key

section

variable (isIpAddr : String → Bool)

/-- The name and the port of `service`. -/
def parseService (value : Value) : Except PlanError (ServiceName × TcpPort) := do
  let service ← cborMap value
  let (name, service) ← takeAs cborText service "name"
  let name ← orNetwork (ServiceName.newOrError isIpAddr name)
  let (port, service) ← takeAs cborU16 service "port"
  let port ← orNetwork (TcpPort.new port)
  requireEmpty service
  pure (name, port)

/-- The `address` of a resolver. -/
def parseResolverAddress (value : Value) : Except PlanError ResolverAddress := do
  let address ← cborMap value
  let (family, address) ← takeAs cborText address "family"
  let (bytes, address) ← takeAs cborBytes address "bytes"
  requireEmpty address
  resolverAddress family bytes

/-- The value of `resolver`. -/
def parseResolver (value : Value) : Except PlanError ResolutionPolicy := do
  let resolver ← cborMap value
  let (address, resolver) ← takeAs parseResolverAddress resolver "address"
  let (port, resolver) ← takeAs cborU16 resolver "port"
  let port ← orNetwork (TcpPort.new port)
  let (configuration, resolver) ← takeSupportPath resolver "configuration"
  let (maximumCnameDepth, resolver) ← takeAs cborU16 resolver "maximum_cname_depth"
  let (maximumAnswerCount, resolver) ← takeAs cborU16 resolver "maximum_answer_count"
  let (maximumResponseBytes, resolver) ← takeAs cborU64 resolver "maximum_response_bytes"
  let (resolutionDeadlineMs, resolver) ← takeAs cborU64 resolver "resolution_deadline_ms"
  let (attemptDeadlineMs, resolver) ← takeAs cborU64 resolver "attempt_deadline_ms"
  let (order, resolver) ← takeAs cborText resolver "address_order"
  let order ← addressOrder order
  requireEmpty resolver
  orNetwork (ResolutionPolicy.new ⟨address, port⟩ configuration maximumCnameDepth
    maximumAnswerCount maximumResponseBytes resolutionDeadlineMs attemptDeadlineMs order)

/-- The value of `tls`. -/
def parseTls (value : Value) : Except PlanError TlsPolicy := do
  let tls ← cborMap value
  let (trustRootSet, tls) ← takeSupportPath tls "trust_root_set"
  let (minimumVersion, tls) ← takeAs cborText tls "minimum_version"
  let minimumVersion ← minimumTlsVersion minimumVersion
  let (verification, tls) ← takeAs cborText tls "service_name_verification"
  let verification ← serviceNameVerification verification
  let (revocation, tls) ← takeAs cborText tls "revocation"
  let revocation ← revocationPolicy revocation
  let (resumption, tls) ← takeAs cborText tls "session_resumption"
  rejectIf (resumption ≠ "deny") .invalidSchema
  let (earlyData, tls) ← takeAs cborText tls "early_data"
  rejectIf (earlyData ≠ "deny") .invalidSchema
  requireEmpty tls
  pure ⟨trustRootSet, minimumVersion, verification, revocation⟩

/-- The `limits` of a session. -/
def parseSessionLimits (maximumAnswerCount : UInt16) (value : Value) :
    Except PlanError ServiceSessionLimits := do
  let limits ← cborMap value
  let (setupTimeMs, limits) ← takeAs cborU64 limits "setup_time_ms"
  let (sessionTimeMs, limits) ← takeAs cborU64 limits "session_time_ms"
  let (childToServiceBytes, limits) ← takeAs cborU64 limits "child_to_service_bytes"
  let (serviceToChildBytes, limits) ← takeAs cborU64 limits "service_to_child_bytes"
  let (dnsMessages, limits) ← takeAs cborU16 limits "dns_messages"
  let (endpointAttempts, limits) ← takeAs cborU16 limits "endpoint_attempts"
  let (tlsHandshakeBytes, limits) ← takeAs cborU64 limits "tls_handshake_bytes"
  let sessionLimits ← orNetwork (ServiceSessionLimits.new setupTimeMs sessionTimeMs
    childToServiceBytes serviceToChildBytes dnsMessages endpointAttempts tlsHandshakeBytes
    maximumAnswerCount)
  requireEmpty limits
  pure sessionLimits

/-- The value of `local_channel`. -/
def parseLocalChannel (value : Value) :
    Except PlanError (LocalChannelProtocol × ChildChannelDescriptor) := do
  let channel ← cborMap value
  let (protocol, channel) ← takeAs cborText channel "protocol"
  let protocol ← localChannelProtocol protocol
  let (descriptor, channel) ← takeAs cborU16 channel "child_descriptor"
  let descriptor ← orNetwork (ChildChannelDescriptor.new descriptor)
  requireEmpty channel
  pure (protocol, descriptor)

/-- `parse_credential_source`. -/
def parseCredentialSource (service : ServiceName) (environment : List EnvironmentName)
    (value : Value) : Except PlanError CredentialSource := do
  let source ← cborMap value
  let (id, source) ← takeAs cborText source "id"
  let id ← orNetwork (CredentialSourceId.new id)
  let (boundService, source) ← takeAs cborText source "service"
  let boundService ← orNetwork (ServiceName.newOrError isIpAddr boundService)
  let (name, source) ← takeAs cborText source "environment"
  let name ← orAuthority (EnvironmentName.new name)
  requireEmpty source
  rejectIf (name ∉ environment) .credentialEnvironmentMissing
  orNetwork (CredentialSource.new id boundService name service)

/-- `.map(parse).transpose()`. -/
def transpose {α : Type} (parse : Value → Except PlanError α) :
    Option Value → Except PlanError (Option α)
  | none => .ok none
  | some value => (parse value).map some

/-- The session of `parse_network_authority`. -/
def parseServiceSession (environment : List EnvironmentName) (value : Value) :
    Except PlanError AuthenticatedServiceSession := do
  let network ← cborMap value
  let (mode, network) ← takeAs cborText network "mode"
  rejectIf (mode ≠ "authenticated-service-session") .unsupportedNetwork
  let ((name, port), network) ← takeAs (parseService isIpAddr) network "service"
  let (resolution, network) ← takeAs parseResolver network "resolver"
  let (tls, network) ← takeAs parseTls network "tls"
  let (limits, network) ←
    takeAs (parseSessionLimits resolution.maximumAnswerCount) network "limits"
  let (connectorExecutable, network) ← takeSupportPath network "connector_executable"
  let (connectorRuntimeRead, network) ←
    takeAs cborTextArray network "connector_runtime_read"
  let connectorRuntimeRead ←
    collect (fun path => orNetwork (NetworkSupportPath.new path)) connectorRuntimeRead
  let ((protocol, descriptor), network) ← takeAs parseLocalChannel network "local_channel"
  let (credential, network) := takeOptional network "credential_source"
  let credential ← transpose (parseCredentialSource isIpAddr name environment) credential
  requireEmpty network
  orNetwork (AuthenticatedServiceSession.new name port resolution tls limits connectorExecutable
    connectorRuntimeRead protocol descriptor credential)

/-- `parse_network_authority`. -/
def parseNetworkAuthority (environment : List EnvironmentName) :
    Value → Except PlanError ParsedNetworkAuthority
  | .text mode => if mode = "deny" then .ok .deny else .error .unsupportedNetwork
  | value => do
    let session ← parseServiceSession isIpAddr environment value
    pure (.service session)

/-! ## Version 2 -/

/-- The value of `command`. -/
def parseCommand (value : Value) : Except PlanError ExecutionCommand := do
  let command ← cborMap value
  let (executable, command) ← takeAs cborText command "executable"
  let executable ← orAuthority (AuthorityPath.new executable)
  let (workingDirectory, command) ← takeAs cborText command "working_directory"
  let workingDirectory ← orAuthority (AuthorityPath.new workingDirectory)
  let (arguments, command) ← takeAs cborTextArray command "arguments"
  let arguments ← collect CommandArgument.new arguments
  requireEmpty command
  pure ⟨executable, arguments, workingDirectory⟩

/-- The fields of the authority of a plan, as they were read. -/
structure AuthorityFields where
  network : Value
  environment : List EnvironmentName
  read : List String
  runtimeRead : List String
  write : List String
  execute : List String

/-- The value of `authority`. -/
def parseAuthority (value : Value) : Except PlanError AuthorityFields := do
  let authority ← cborMap value
  let (network, authority) ← take authority "network"
  let (environment, authority) ← takeAs cborTextArray authority "environment"
  let environment ← collect (fun name => orAuthority (EnvironmentName.new name)) environment
  let (read, authority) ← takeAs cborTextArray authority "read"
  let (runtimeRead, authority) ← takeAs cborTextArray authority "runtime_read"
  let (write, authority) ← takeAs cborTextArray authority "write"
  let (execute, authority) ← takeAs cborTextArray authority "execute"
  requireEmpty authority
  rejectIf (execute.length ≠ 1) .executableAuthorityCount
  rejectIf (write.length ≠ 1) .outputRootAuthorityCount
  pure ⟨network, environment, read, runtimeRead, write, execute⟩

/-- The `limits` of a plan. -/
def parseLimits (value : Value) : Except PlanError ResourceLimits := do
  let limits ← cborMap value
  let (processes, limits) ← takeAs cborU32 limits "processes"
  let processes ← orAuthority (ProcessLimit.new processes)
  let (wallTime, limits) ← takeAs cborU64 limits "wall_time_ms"
  let wallTime ← orAuthority (WallTimeLimit.fromMilliseconds wallTime)
  let (stdout, limits) ← takeAs cborU64 limits "stdout_bytes"
  let (stderr, limits) ← takeAs cborU64 limits "stderr_bytes"
  let (memory, limits) ← takeAs cborU64 limits "memory_bytes"
  let memory ← orAuthority (MemoryByteLimit.new memory)
  let (swap, limits) ← takeAs cborU64 limits "swap_bytes"
  let swap ← orAuthority (SwapByteLimit.new swap)
  requireEmpty limits
  pure (ResourceLimits.newV2 processes wallTime ⟨stdout⟩ ⟨stderr⟩ memory swap)

/-- `parse_execution_plan_contract_v2`. -/
def parseExecutionPlanContractV2 (input : List UInt8) : Except PlanError ParsedExecutionPlan := do
  let value ← (WireV2.decode input).mapError fun _ => .malformedCbor
  let root ← cborMap value
  let (schema, root) ← takeAs cborText root "schema"
  rejectIf (schema ≠ planSchemaV2) .unsupportedVersion
  let (id, root) ← takeAs cborText root "id"
  let id ← planIdNew id
  let (command, root) ← takeAs parseCommand root "command"
  let (fields, root) ← takeAs parseAuthority root "authority"
  let network ← parseNetworkAuthority isIpAddr fields.environment fields.network
  let (limits, root) ← takeAs parseLimits root "limits"
  requireEmpty root
  let paths ←
    planPaths command.executable fields.read fields.runtimeRead fields.write fields.execute
  let base : ExecutionPlan := ⟨id, command, AuthorityPlan.new paths fields.environment limits⟩
  pure (match network with
    | .deny => .deny base
    | .service session => .service ⟨base, session⟩)

/-- `parse_service_execution_plan`. -/
def parseServiceExecutionPlan (input : List UInt8) : Except PlanError ServiceExecutionPlan := do
  match ← parseExecutionPlanContractV2 isIpAddr input with
  | .service plan => pure plan
  | .deny _ => .error .unsupportedNetwork

end

/-! ## Version 1 -/

/-- A TOML value; nothing reads a float or a date. -/
inductive Toml where
  | string (value : String)
  | integer (value : Int)
  | float
  | boolean (value : Bool)
  | datetime
  | array (values : List Toml)
  | table (entries : List (String × Toml))

namespace Toml

/-- A table. -/
def asTable : Toml → Option (List (String × Toml))
  | .table entries => some entries
  | _ => none

/-- A string. -/
def asString : Toml → Option String
  | .string value => some value
  | _ => none

/-- An array of strings. -/
def asStrings : Toml → Option (List String)
  | .array values => values.mapM asString
  | _ => none

/-- An integer that is below the bound. -/
def asBelow (bound : Nat) : Toml → Option Nat
  | .integer value => if 0 ≤ value ∧ value.toNat < bound then some value.toNat else none
  | _ => none

end Toml

/-- `table`. -/
def tomlTable (parent : List (String × Toml)) (key : String) :
    Except PlanError (List (String × Toml)) :=
  okOr ((parent.lookup key).bind Toml.asTable) .invalidSchema

/-- `reject_unknown`. -/
def rejectUnknown (table : List (String × Toml)) (allowed : List String) :
    Except PlanError Unit :=
  rejectIf (∃ entry ∈ table, entry.1 ∉ allowed) .unknownField

/-- `validate_closed_tables`. -/
def validateClosedTables (value : Toml) : Except PlanError Unit := do
  let root ← okOr value.asTable .invalidSchema
  rejectUnknown root ["schema", "id", "command", "authority", "limits"]
  rejectUnknown (← tomlTable root "command") ["executable", "arguments", "working_directory"]
  rejectUnknown (← tomlTable root "authority")
    ["network", "environment", "read", "runtime_read", "write", "execute"]
  rejectUnknown (← tomlTable root "limits")
    ["wall_time_ms", "stdout_bytes", "stderr_bytes", "processes"]

/-- The fields of a version 1 plan. -/
structure WirePlan where
  schema : String
  id : String
  executable : String
  arguments : List String
  workingDirectory : String
  network : String
  environment : List String
  read : List String
  runtimeRead : List String
  write : List String
  execute : List String
  wallTimeMs : UInt64
  stdoutBytes : UInt64
  stderrBytes : UInt64
  processes : UInt32

/-- The derived deserializer: a field that is missing or has another type fails. -/
def WirePlan.ofToml (value : Toml) : Option WirePlan := do
  let root ← value.asTable
  let command ← (← root.lookup "command").asTable
  let authority ← (← root.lookup "authority").asTable
  let limits ← (← root.lookup "limits").asTable
  pure {
    schema := ← (← root.lookup "schema").asString
    id := ← (← root.lookup "id").asString
    executable := ← (← command.lookup "executable").asString
    arguments := ← (← command.lookup "arguments").asStrings
    workingDirectory := ← (← command.lookup "working_directory").asString
    network := ← (← authority.lookup "network").asString
    environment := ← (← authority.lookup "environment").asStrings
    read := ← (← authority.lookup "read").asStrings
    runtimeRead := ← (← authority.lookup "runtime_read").asStrings
    write := ← (← authority.lookup "write").asStrings
    execute := ← (← authority.lookup "execute").asStrings
    wallTimeMs := .ofNat (← (← limits.lookup "wall_time_ms").asBelow (2 ^ 64))
    stdoutBytes := .ofNat (← (← limits.lookup "stdout_bytes").asBelow (2 ^ 64))
    stderrBytes := .ofNat (← (← limits.lookup "stderr_bytes").asBelow (2 ^ 64))
    processes := .ofNat (← (← limits.lookup "processes").asBelow (2 ^ 32)) }

section

variable (tomlFromStr : String → Option Toml) (isIpAddr : String → Bool)

/-- `parse_execution_plan`. -/
def parseExecutionPlan (input : String) : Except PlanError ExecutionPlan := do
  let value ← okOr (tomlFromStr input) .malformedToml
  validateClosedTables value
  let wire ← okOr (WirePlan.ofToml value) .invalidSchema
  rejectIf (wire.schema ≠ planSchema) .unsupportedVersion
  rejectIf (wire.network ≠ "deny") .unsupportedNetwork
  rejectIf (wire.execute.length ≠ 1) .executableAuthorityCount
  rejectIf (wire.write.length ≠ 1) .outputRootAuthorityCount
  let id ← planIdNew wire.id
  let executable ← orAuthority (AuthorityPath.new wire.executable)
  let workingDirectory ← orAuthority (AuthorityPath.new wire.workingDirectory)
  let arguments ← collect CommandArgument.new wire.arguments
  let paths ← planPaths executable wire.read wire.runtimeRead wire.write wire.execute
  let environment ← collect (fun name => orAuthority (EnvironmentName.new name)) wire.environment
  let processes ← orAuthority (ProcessLimit.new wire.processes)
  let wallTime ← orAuthority (WallTimeLimit.fromMilliseconds wire.wallTimeMs)
  let limits := ResourceLimits.new processes wallTime ⟨wire.stdoutBytes⟩ ⟨wire.stderrBytes⟩
  pure ⟨id, ⟨executable, arguments, workingDirectory⟩, AuthorityPlan.new paths environment limits⟩

/-- A valid version 1 plan is refused as such, and a plan with a service session is not
admitted. -/
def parseExecutionPlanForExecution (input : List UInt8) : Except PlanError ExecutionPlan := do
  let legacy := (Utf8.fromUtf8 input).any fun text => (parseExecutionPlan tomlFromStr text).isOk
  rejectIf (legacy = true) .executionObsolete
  match ← parseExecutionPlanContractV2 isIpAddr input with
  | .deny plan => pure plan
  | .service _ => .error .unsupportedNetwork

end

end ProofboundRuntime.Core.Plan
