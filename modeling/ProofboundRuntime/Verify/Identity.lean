import ProofboundRuntime.Lib.Sorting
import ProofboundRuntime.Lib.Text
import ProofboundRuntime.Verify.Wire

/-!
# The verifier's validation

`identity.rs`: the grammars of the texts of a receipt, the roles of its
artifacts, the order of its lists, and the relations between its fields.
-/

namespace ProofboundRuntime.Verify

open Result

inductive ValidationError where
  | invalidProductVersion
  | invalidExecutionId
  | invalidPlanId
  | invalidEnvironmentName
  | invalidPlatform
  | invalidDigest
  | invalidUnsignedDecimal
  | invalidMode
  | roleMismatch
  | setNotCanonical
  | artifactListNotCanonical
  | executionIdentityMismatch
  | policyIdentityMismatch
  | producerIdentityMismatch
  | observationOrder
  | assumptionMissing
  | unsupportedTcbRole
  | tcbNotCanonical
  | tcbRoleMissing
  | eligibilityMismatch
  | resourceEventsMismatch
  | resourcePlanMismatch
deriving DecidableEq

def requiredAssumptions : List String :=
  ["PBR-HOST-AX-002", "PBR-LINUX-AX-001", "PBR-TOOLCHAIN-AX-003"]

/-! ## Grammars -/

/-- `count` times: the next component is not empty and has digits only.
Returns the components that are left. -/
def requireComponents : Nat → List (List UInt8) → Except ValidationError (List (List UInt8))
  | 0, components => .ok components
  | count + 1, components => do
    let component ← okOr components.head? .invalidProductVersion
    rejectIf (component = [] ∨ component.all Ascii.isDigit = false) .invalidProductVersion
    requireComponents count components.tail

def requireProductVersion (value : String) : Except ValidationError Unit := do
  let components ← requireComponents 3 ((Utf8.bytes value).splitOn 0x2e)
  rejectIf (components ≠ []) .invalidProductVersion

def isLowercaseOrDigit (byte : UInt8) : Bool := Ascii.isLowercase byte || Ascii.isDigit byte

def requirePlanId (value : String) : Except ValidationError Unit :=
  let bytes := Utf8.bytes value
  rejectIf
    (bytes = [] ∨ 128 < bytes.length ∨ (bytes.head?.any isLowercaseOrDigit = false) ∨
      (bytes.getLast?.any isLowercaseOrDigit = false) ∨
      (bytes.all fun byte =>
        isLowercaseOrDigit byte || byte == 0x2e || byte == 0x5f || byte == 0x2d) = false)
    .invalidPlanId

/-- The byte at `index` of an execution identifier: a dash or a digit. -/
def executionIdByte (byte : UInt8) (index : Nat) : Bool :=
  if index = 8 ∨ index = 13 ∨ index = 18 ∨ index = 23 then byte == 0x2d
  else Ascii.isLowerHex byte

def requireExecutionId (value : String) : Except ValidationError Unit :=
  let bytes := Utf8.bytes value
  rejectIf
    (bytes.length ≠ 36 ∨ (bytes.zipIdx.all fun (byte, index) => executionIdByte byte index) = false ∨
      bytes[14]? ≠ some 0x34 ∨
      (bytes[19]?.any fun byte => byte == 0x38 || byte == 0x39 || byte == 0x61 || byte == 0x62) =
        false)
    .invalidExecutionId

def requireDigest (value : String) : Except ValidationError Unit :=
  let bytes := Utf8.bytes value
  rejectIf (bytes.length ≠ 64 ∨ bytes.all Ascii.isLowerHex = false) .invalidDigest

/-- A decimal `u64` without leading zeros. -/
def parseDecimal (value : String) : Except ValidationError Nat := do
  let bytes := Utf8.bytes value
  rejectIf
    (bytes = [] ∨ (1 < bytes.length ∧ bytes.head? = some 0x30) ∨ bytes.all Ascii.isDigit = false)
    .invalidUnsignedDecimal
  rejectIf (2 ^ 64 ≤ Decimal.value bytes) .invalidUnsignedDecimal
  pure (Decimal.value bytes)

/-! ## Artifacts and sets -/

def validateArtifact (artifact : WireArtifact) : Except ValidationError Unit := do
  requireDigest artifact.sha256
  let _ ← parseDecimal artifact.size
  rejectIf (0o7777 < artifact.mode) .invalidMode

def requireArtifact (artifact : WireArtifact) (role : WireArtifactRole) :
    Except ValidationError Unit := do
  validateArtifact artifact
  rejectIf (artifact.role ≠ role) .roleMismatch

/-- Nonempty texts in strictly increasing byte order. -/
def validateStringSet (values : List String) : Except ValidationError Unit :=
  rejectIf
    (values.any String.isEmpty ∨
      Sorting.windowsAny (fun left right => (Utf8.cmp left right).isGE) values)
    .setNotCanonical

/-- The parsed size.  It is only used after `validateArtifact`, so the `expect`
of the source holds. -/
def sizeValue (artifact : WireArtifact) : Nat :=
  (parseDecimal artifact.size).toOption.getD 0

def artifactOrder (left right : WireArtifact) : Ordering :=
  (compare left.role right.role).then <| (Utf8.cmp left.sha256 right.sha256).then <|
    (compare (sizeValue left) (sizeValue right)).then <| compare left.mode right.mode

/-- The checks of each artifact of a list, in the order of the list. -/
def validateArtifacts (roleAllowed : WireArtifactRole → Bool) :
    List WireArtifact → Except ValidationError Unit
  | [] => .ok ()
  | artifact :: artifacts => do
    validateArtifact artifact
    rejectIf (roleAllowed artifact.role = false) .roleMismatch
    validateArtifacts roleAllowed artifacts

def validateArtifactList (artifacts : List WireArtifact)
    (roleAllowed : WireArtifactRole → Bool) : Except ValidationError Unit := do
  validateArtifacts roleAllowed artifacts
  rejectIf (Sorting.windowsAny (fun left right => artifactOrder left right != .lt) artifacts)
    .artifactListNotCanonical

def isInputRole (role : WireArtifactRole) : Bool :=
  role == .projectInput || role == .runtimeLibrary

def isOutputRole (role : WireArtifactRole) : Bool := role == .outputArtifact

/-! ## The trusted computing base -/

/-- `TcbRole`, ordered as declared. -/
inductive TcbRole where
  | hostHardwareFirmware
  | linuxKernel
  | landlock
  | seccomp
  | cgroupV2
  | noNewPrivileges
  | filesystem
  | runtimeBinary
  | launcherBinary
  | rustToolchain
  | cryptographicDigest
  | runtimeExecutable
  | runtimeLoaderExecutable
  | runtimeLibrary
deriving DecidableEq

instance : Ord TcbRole := ⟨compareOn TcbRole.ctorIdx⟩

instance : Std.TransOrd TcbRole := inferInstanceAs (Std.TransCmp (compareOn TcbRole.ctorIdx))

def alwaysRequiredTcbRoles : List TcbRole :=
  [.hostHardwareFirmware, .linuxKernel, .landlock, .seccomp, .cgroupV2, .noNewPrivileges,
    .filesystem, .runtimeBinary, .launcherBinary, .rustToolchain, .cryptographicDigest,
    .runtimeExecutable]

def parseTcbRole (entry : WireTcbEntry) : Except ValidationError TcbRole :=
  match entry.role with
  | "host-hardware-firmware" => .ok .hostHardwareFirmware
  | "linux-kernel" => .ok .linuxKernel
  | "landlock" => .ok .landlock
  | "seccomp" => .ok .seccomp
  | "cgroup-v2" => .ok .cgroupV2
  | "no-new-privileges" => .ok .noNewPrivileges
  | "filesystem" => .ok .filesystem
  | "runtime-binary" => .ok .runtimeBinary
  | "launcher-binary" => .ok .launcherBinary
  | "rust-toolchain" => .ok .rustToolchain
  | "cryptographic-digest" => .ok .cryptographicDigest
  | "runtime-executable" => .ok .runtimeExecutable
  | "runtime-loader-executable" => .ok .runtimeLoaderExecutable
  | "runtime-library" => .ok .runtimeLibrary
  | _ => .error .unsupportedTcbRole

/-- The order of the parsed entries: by role, then by identity. -/
def tcbCmp (left right : TcbRole × String) : Ordering :=
  (compare left.1 right.1).then (Utf8.cmp left.2 right.2)

def parseTcbEntries (entries : List WireTcbEntry) :
    Except ValidationError (List (TcbRole × String)) :=
  collect
    (fun entry => do
      rejectIf (entry.identity = "") .tcbNotCanonical
      let role ← parseTcbRole entry
      pure (role, entry.identity))
    entries

def requireTcbRole (entries : List (TcbRole × String)) (required : TcbRole) :
    Except ValidationError Unit :=
  rejectIf ((entries.any fun entry => entry.1 == required) = false) .tcbRoleMissing

/-- `require_tcb_role` for each of the roles. -/
def requireTcbRoles (entries : List (TcbRole × String)) :
    List TcbRole → Except ValidationError Unit
  | [] => .ok ()
  | role :: roles => do
    requireTcbRole entries role
    requireTcbRoles entries roles

/-- `require_tcb_role` under a condition. -/
def requireTcbRoleIf (condition : Bool) (entries : List (TcbRole × String))
    (required : TcbRole) : Except ValidationError Unit :=
  if condition then requireTcbRole entries required else .ok ()

def validateTcb (wire : WireReceipt) : Except ValidationError Unit := do
  rejectIf (wire.trustedComputingBase = []) .tcbNotCanonical
  let parsed ← parseTcbEntries wire.trustedComputingBase
  rejectIf (Sorting.windowsAny (fun left right => (tcbCmp left right).isGE) parsed)
    .tcbNotCanonical
  requireTcbRoles parsed alwaysRequiredTcbRoles
  requireTcbRoleIf wire.command.loader.isSome parsed .runtimeLoaderExecutable
  requireTcbRoleIf (wire.inputs.any fun artifact => artifact.role == .runtimeLibrary) parsed
    .runtimeLibrary

/-! ## Resources and eligibility -/

/-- The events that the counters imply. -/
def expectedEvents (resources : WireResources) : List WireReason :=
  (resources.limitCounters.zip
    [.memoryHigh, .memoryMax, .memoryOom, .memoryOomKill, .memoryOomGroupKill, .swapMax,
      .swapFail]).filterMap
    fun (counter, reason) => if counter ≠ 0 then some reason else none

def validateResources (receipt : DecodedReceipt) : Except ValidationError Unit :=
  match receipt.resources with
  | none => if receipt.versionTwo then .error .resourceEventsMismatch else .ok ()
  | some resources => do
    rejectIf (receipt.versionTwo = false) .resourceEventsMismatch
    let plan ← okOr receipt.planLimits .resourcePlanMismatch
    rejectIf
      ((resources.processes, resources.memory, resources.swap) ≠
        (plan.processes, plan.memory, plan.swap))
      .resourcePlanMismatch
    if resources.observationsComplete = false then
      rejectIf (resources.limitEvents ≠ []) .resourceEventsMismatch
    else do
      rejectIf
        ((plan.memory < resources.memoryPeak ∧ resources.memoryEvents.max = 0) ∨
          (plan.swap < resources.swapPeak ∧ resources.swapEvents.max = 0 ∧
            resources.swapEvents.fail = 0))
        .resourcePlanMismatch
      rejectIf (resources.limitEvents ≠ expectedEvents resources) .resourceEventsMismatch

def reasonFromFailure : FailureReason → WireReason
  | .boundaryIncomplete => .boundaryIncomplete
  | .exitCodeNonzero => .exitCodeNonzero
  | .processSignaled => .processSignaled
  | .timedOut => .timedOut
  | .denied => .denied
  | .launcherFailed => .launcherFailed
  | .executionIncomplete => .executionIncomplete
  | .standardOutputTruncated => .stdoutTruncated
  | .standardErrorTruncated => .stderrTruncated
  | .receiptMalformed => .receiptMalformed
  | .memoryHigh => .memoryHigh
  | .memoryMax => .memoryMax
  | .memoryOom => .memoryOom
  | .memoryOomKill => .memoryOomKill
  | .memoryOomGroupKill => .memoryOomGroupKill
  | .swapMax => .swapMax
  | .swapFail => .swapFail

def validateEligibility (receipt : DecodedReceipt) : Except ValidationError Unit :=
  match receipt.recordedEligibility, deriveEligibility receipt.eligibilityInput with
  | .reusable, .reusable => .ok ()
  | .nonReusable recorded, .nonReusable derived =>
    rejectIf (recorded ≠ derived.map reasonFromFailure) .eligibilityMismatch
  | _, _ => .error .eligibilityMismatch

/-! ## The receipt -/

/-- The required assumptions are found by binary search. -/
def requireAssumptions (assumptions : List String) : List String → Except ValidationError Unit
  | [] => .ok ()
  | required :: rest => do
    rejectIf
      ((Sorting.binarySearchBy (fun value => Utf8.cmp value required) assumptions).isNone)
      .assumptionMissing
    requireAssumptions assumptions rest

def requireLoader : Option WireArtifact → Except ValidationError Unit
  | none => .ok ()
  | some loader => requireArtifact loader .runtimeLoaderExecutable

/-- The grammars and the roles of the identities of a receipt. -/
def validateIdentities (wire : WireReceipt) : Except ValidationError Unit := do
  requireProductVersion wire.productVersion
  requireExecutionId wire.executionId
  requirePlanId wire.plan.id
  rejectIf (wire.platform.kernelRelease = "" ∨ wire.platform.landlockAbi = 0) .invalidPlatform
  requireArtifact wire.plan.source .executionPlan
  requireArtifact wire.plan.normalized .normalizedPlan
  requireArtifact wire.policy.identity .compiledPolicy
  requireArtifact wire.runtime.runtime .runtimeBinary
  requireArtifact wire.runtime.launcher .launcherBinary
  requireArtifact wire.command.executable .runtimeExecutable
  requireLoader wire.command.loader
  requireArtifact wire.command.workingDirectory .workingDirectory
  requireDigest wire.command.argumentsSha256
  requireArtifact wire.outputRoot .outputRoot
  requireArtifact wire.streams.stdout.artifact .standardOutput
  requireArtifact wire.streams.stderr.artifact .standardError
  requireArtifact wire.producer .runtimeBinary

/-- The lists of a receipt. -/
def validateLists (wire : WireReceipt) : Except ValidationError Unit := do
  validateArtifactList wire.inputs isInputRole
  validateArtifactList wire.outputs isOutputRole
  validateStringSet wire.environment
  rejectIf
    (wire.environment.any fun name =>
      (Utf8.bytes name).contains 0 || (Utf8.bytes name).contains 0x3d)
    .invalidEnvironmentName
  validateStringSet wire.platform.seccompFeatures
  validateStringSet wire.platform.cgroupControllers
  validateStringSet wire.assumptions

/-- The boundary and the observations, and the relations between the
identities. -/
def validateRelations (wire : WireReceipt) : Except ValidationError Unit := do
  requireDigest wire.boundary.policySha256
  requireExecutionId wire.boundary.executionId
  let _ ← parseDecimal wire.boundary.cgroup.mountId
  let _ ← parseDecimal wire.boundary.cgroup.inode
  let started ← parseDecimal wire.observations.startedNs
  let finished ← parseDecimal wire.observations.finishedNs
  rejectIf (finished < started) .observationOrder
  rejectIf (wire.boundary.executionId ≠ wire.executionId) .executionIdentityMismatch
  rejectIf (wire.boundary.policySha256 ≠ wire.policy.identity.sha256) .policyIdentityMismatch
  rejectIf (wire.producer ≠ wire.runtime.runtime) .producerIdentityMismatch
  requireAssumptions wire.assumptions requiredAssumptions

/-- `validate_receipt`, whose body is the four groups of checks one after the
other. -/
def validateReceipt (receipt : DecodedReceipt) : Except ValidationError Unit := do
  validateIdentities receipt.wire
  validateLists receipt.wire
  validateRelations receipt.wire
  validateTcb receipt.wire
  validateResources receipt
  validateEligibility receipt

end ProofboundRuntime.Verify
