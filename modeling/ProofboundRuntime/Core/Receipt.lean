import ProofboundRuntime.Core.Authority
import ProofboundRuntime.Core.Eligibility
import ProofboundRuntime.Core.Identity
import ProofboundRuntime.Lib.Sorting

/-!
# The construction of a receipt

`receipt.rs`: the typed parts of a receipt, each with what its constructor
checks, and the construction of a receipt from its parts.

* `canonicalStringSet`: a set of texts is kept in order and without
  repetition;
* `ExecutionReceipt.valid_of_new`: what holds of every receipt that is
  constructed.
-/

namespace ProofboundRuntime.Core

open Result Sorting

def requiredRuntimeAssumptions : List String :=
  ["PBR-HOST-AX-002", "PBR-LINUX-AX-001", "PBR-TOOLCHAIN-AX-003"]

inductive ReceiptArtifactField where
  | planSource
  | normalizedPlan
  | policy
  | runtime
  | launcher
  | executable
  | loader
  | workingDirectory
  | input
  | outputRoot
  | standardOutput
  | standardError
  | output
  | producer
deriving DecidableEq

inductive ReceiptIdentityField where
  | execution
  | policy
  | producer
deriving DecidableEq

inductive ReceiptError where
  | invalidExecutionId
  | invalidPlatform
  | emptyText
  | duplicateSetValue
  | duplicateArtifact
  | roleMismatch (field : ReceiptArtifactField)
  | identityMismatch (field : ReceiptIdentityField)
  | observationOrder
  | trustedComputingBaseEmpty
  | assumptionMissing
  | resourceProfileIncomplete
  | configuredResourcesInvalid
  | trustedComputingBaseRoleMissing
  | canonicalEncoding
deriving DecidableEq

/-! ## Identities with a role -/

def versionByte : Fin 16 := 6

def variantByte : Fin 16 := 8

/-- An RFC 4122 version 4 identifier. -/
structure ExecutionId where
  bytes : Vector UInt8 16
  version : bytes.get versionByte &&& 0xf0 = 0x40
  variant : bytes.get variantByte &&& 0xc0 = 0x80
deriving DecidableEq

def ExecutionId.fromBytes (bytes : Vector UInt8 16) : Except ReceiptError ExecutionId :=
  if hversion : bytes.get versionByte &&& 0xf0 ≠ 0x40 then .error .invalidExecutionId
  else if hvariant : bytes.get variantByte &&& 0xc0 ≠ 0x80 then .error .invalidExecutionId
  else .ok ⟨bytes, not_not.mp hversion, not_not.mp hvariant⟩

inductive Architecture where
  | x86_64
  | aarch64
deriving DecidableEq

def Architecture.asStr : Architecture → String
  | .x86_64 => "x86_64"
  | .aarch64 => "aarch64"

/-- An artifact in its role. -/
structure ArtifactOf (expected : ArtifactRole) extends ArtifactIdentity where
  role_eq : role = expected
deriving DecidableEq

/-- The artifact, once its role is checked. -/
def requireRole (artifact : ArtifactIdentity) (expected : ArtifactRole)
    (field : ReceiptArtifactField) : Except ReceiptError (ArtifactOf expected) :=
  if h : artifact.role = expected then .ok ⟨artifact, h⟩ else .error (.roleMismatch field)

structure ReceiptPlan where
  id : PlanId
  source : ArtifactOf .executionPlan
  normalized : ArtifactOf .normalizedPlan
  normalizedLimits : Option ResourceLimits
  limits_complete : ∀ limits, normalizedLimits = some limits → limits.isVersionTwo = true

def ReceiptPlan.new (id : PlanId) (source normalized : ArtifactIdentity) :
    Except ReceiptError ReceiptPlan := do
  let source ← requireRole source .executionPlan .planSource
  let normalized ← requireRole normalized .normalizedPlan .normalizedPlan
  pure ⟨id, source, normalized, none, by simp⟩

def ReceiptPlan.newV2 (id : PlanId) (source normalized : ArtifactIdentity)
    (normalizedLimits : ResourceLimits) : Except ReceiptError ReceiptPlan :=
  if h : normalizedLimits.isVersionTwo = true then do
    let plan ← ReceiptPlan.new id source normalized
    pure { plan with
      normalizedLimits := some normalizedLimits
      limits_complete := fun _ hsome => Option.some.inj hsome ▸ h }
  else .error .resourceProfileIncomplete

structure ReceiptPolicy where
  identity : ArtifactOf .compiledPolicy

def ReceiptPolicy.new (identity : ArtifactIdentity) : Except ReceiptError ReceiptPolicy := do
  let identity ← requireRole identity .compiledPolicy .policy
  pure ⟨identity⟩

/-! ## Sets of texts -/

/-- Nonempty texts in strictly increasing byte order. -/
structure StringSet where
  values : List String
  ne_empty : ∀ value ∈ values, value ≠ ""
  strict : Strict Utf8.cmp values

def rejectDuplicates {α : Type} [DecidableEq α] (values : List α) : Except ReceiptError Unit :=
  rejectIf (windowsAny (fun left right => left == right) values = true) .duplicateSetValue

variable {u : Unit}

/-- A sorted list that passes has no duplicates. -/
theorem strict_of_rejectDuplicates {α : Type} [DecidableEq α] {cmp : α → α → Ordering}
    [Std.TransCmp cmp] [Std.LawfulEqCmp cmp] {values : List α}
    (h : rejectDuplicates (sortBy cmp values) = .ok u) : Strict cmp (sortBy cmp values) := by
  rw [rejectDuplicates, rejectIf_eq_ok, Bool.not_eq_true] at h
  exact strict_sortBy_of_windowsAny h

def canonicalStringSet (values : List String) : Except ReceiptError StringSet :=
  if hempty : (values.any fun value => value = "") = true then .error .emptyText
  else
    match hunique : rejectDuplicates (sortBy Utf8.cmp values) with
    | .error error => .error error
    | .ok _ => .ok
        { values := sortBy Utf8.cmp values
          ne_empty := by
            intro value hvalue heq
            refine hempty (List.any_eq_true.mpr ⟨value, mem_sortBy.mp hvalue, ?_⟩)
            exact decide_eq_true heq
          strict := strict_of_rejectDuplicates hunique }

/-! ## Parts -/

structure PlatformIdentity where
  architecture : Architecture
  kernelRelease : String
  landlockAbi : UInt32
  seccompFeatures : StringSet
  cgroupControllers : StringSet
  kernelRelease_ne : kernelRelease ≠ ""
  landlockAbi_ne : landlockAbi ≠ 0

def PlatformIdentity.new (architecture : Architecture) (kernelRelease : String)
    (landlockAbi : UInt32) (seccompFeatures cgroupControllers : List String) :
    Except ReceiptError PlatformIdentity :=
  if h : kernelRelease = "" ∨ landlockAbi = 0 then .error .invalidPlatform
  else do
    let seccompFeatures ← canonicalStringSet seccompFeatures
    let cgroupControllers ← canonicalStringSet cgroupControllers
    pure
      { architecture, kernelRelease, landlockAbi, seccompFeatures, cgroupControllers
        kernelRelease_ne := (not_or.mp h).1
        landlockAbi_ne := (not_or.mp h).2 }

structure RuntimeIdentity where
  runtime : ArtifactOf .runtimeBinary
  launcher : ArtifactOf .launcherBinary

def RuntimeIdentity.new (runtime launcher : ArtifactIdentity) :
    Except ReceiptError RuntimeIdentity := do
  let runtime ← requireRole runtime .runtimeBinary .runtime
  let launcher ← requireRole launcher .launcherBinary .launcher
  pure ⟨runtime, launcher⟩

structure ReceiptCommand where
  executable : ArtifactOf .runtimeExecutable
  loader : Option (ArtifactOf .runtimeLoaderExecutable)
  workingDirectory : ArtifactOf .workingDirectory
  argumentsSha256 : Sha256Digest

/-- The loader, once its role is checked. -/
def requireLoader :
    Option ArtifactIdentity → Except ReceiptError (Option (ArtifactOf .runtimeLoaderExecutable))
  | none => .ok none
  | some loader => do
    let loader ← requireRole loader .runtimeLoaderExecutable .loader
    pure (some loader)

def ReceiptCommand.new (executable : ArtifactIdentity) (loader : Option ArtifactIdentity)
    (workingDirectory : ArtifactIdentity) (argumentsSha256 : Sha256Digest) :
    Except ReceiptError ReceiptCommand := do
  let executable ← requireRole executable .runtimeExecutable .executable
  let loader ← requireLoader loader
  let workingDirectory ← requireRole workingDirectory .workingDirectory .workingDirectory
  pure ⟨executable, loader, workingDirectory, argumentsSha256⟩

structure CgroupIdentity where
  mountId : UInt64
  inode : UInt64
deriving DecidableEq

structure BoundaryRecord where
  state : BoundaryInstallation
  executionId : ExecutionId
  policySha256 : Sha256Digest
  cgroup : CgroupIdentity
deriving DecidableEq

structure ExecutionObservations where
  startedNs : UInt64
  finishedNs : UInt64
  ordered : startedNs ≤ finishedNs

def ExecutionObservations.new (startedNs finishedNs : UInt64) :
    Except ReceiptError ExecutionObservations :=
  if h : finishedNs < startedNs then .error .observationOrder
  else .ok ⟨startedNs, finishedNs, UInt64.not_lt.mp h⟩

structure StreamRecord (role : ArtifactRole) where
  artifact : ArtifactOf role
  capture : StreamCapture

def StreamRecord.new (artifact : ArtifactIdentity) (capture : StreamCapture)
    (role : ArtifactRole) (field : ReceiptArtifactField) :
    Except ReceiptError (StreamRecord role) := do
  let artifact ← requireRole artifact role field
  pure ⟨artifact, capture⟩

structure ReceiptStreams where
  stdout : StreamRecord .standardOutput
  stderr : StreamRecord .standardError

def ReceiptStreams.new (stdout : ArtifactIdentity) (stdoutCapture : StreamCapture)
    (stderr : ArtifactIdentity) (stderrCapture : StreamCapture) :
    Except ReceiptError ReceiptStreams := do
  let stdout ← StreamRecord.new stdout stdoutCapture .standardOutput .standardOutput
  let stderr ← StreamRecord.new stderr stderrCapture .standardError .standardError
  pure ⟨stdout, stderr⟩

/-! ## Resources -/

structure ReceiptMemoryEvents where
  low : UInt64
  high : UInt64
  max : UInt64
  oom : UInt64
  oomKill : UInt64
  oomGroupKill : UInt64
deriving DecidableEq

structure ReceiptSwapEvents where
  max : UInt64
  fail : UInt64
deriving DecidableEq

structure ReceiptConfiguredResources where
  processes : ProcessLimit
  memory : MemoryByteLimit
  swap : SwapByteLimit
  memoryOomGroup : UInt64
  memoryOomGroup_eq : memoryOomGroup = 1

def ReceiptConfiguredResources.new (processes : ProcessLimit) (memory : MemoryByteLimit)
    (swap : SwapByteLimit) (memoryOomGroup : UInt64) :
    Except ReceiptError ReceiptConfiguredResources :=
  if h : memoryOomGroup ≠ 1 then .error .configuredResourcesInvalid
  else .ok ⟨processes, memory, swap, memoryOomGroup, not_not.mp h⟩

/-- The events whose counter is not zero, as `from_configured` collects
them. -/
def countedEvents (memory : ReceiptMemoryEvents) (swap : ReceiptSwapEvents) : List LimitEvent :=
  [(memory.high, .memoryHigh), (memory.max, .memoryMax), (memory.oom, .memoryOom),
    (memory.oomKill, .memoryOomKill), (memory.oomGroupKill, .memoryOomGroupKill),
    (swap.max, .swapMax), (swap.fail, .swapFail)].filterMap
    fun (counter, event) => if counter ≠ 0 then some event else none

/-- Configured limits and terminal observations.  Without observations every
counter is zero, so the events are those of the counters in either case. -/
structure ReceiptResources where
  processes : ProcessLimit
  memory : MemoryByteLimit
  swap : SwapByteLimit
  memoryOomGroup : UInt64
  memoryPeakBytes : UInt64
  swapPeakBytes : UInt64
  memoryEvents : ReceiptMemoryEvents
  swapEvents : ReceiptSwapEvents
  limitEvents : LimitEvents
  observationsComplete : Bool
  memoryOomGroup_eq : memoryOomGroup = 1
  limitEvents_eq : limitEvents = .new (countedEvents memoryEvents swapEvents)
  unobserved : observationsComplete = false →
    memoryPeakBytes = 0 ∧ swapPeakBytes = 0 ∧ memoryEvents = ⟨0, 0, 0, 0, 0, 0⟩ ∧
      swapEvents = ⟨0, 0⟩

def ReceiptResources.fromConfigured (configured : ReceiptConfiguredResources)
    (memoryPeakBytes swapPeakBytes : UInt64) (memoryEvents : ReceiptMemoryEvents)
    (swapEvents : ReceiptSwapEvents) : Except ReceiptError ReceiptResources :=
  .ok
    { processes := configured.processes
      memory := configured.memory
      swap := configured.swap
      memoryOomGroup := configured.memoryOomGroup
      memoryPeakBytes, swapPeakBytes, memoryEvents, swapEvents
      limitEvents := .new (countedEvents memoryEvents swapEvents)
      observationsComplete := true
      memoryOomGroup_eq := configured.memoryOomGroup_eq
      limitEvents_eq := rfl
      unobserved := by simp }

def ReceiptResources.new (limits : ResourceLimits) (memoryPeakBytes swapPeakBytes : UInt64)
    (memoryEvents : ReceiptMemoryEvents) (swapEvents : ReceiptSwapEvents) :
    Except ReceiptError ReceiptResources := do
  let memory ← okOr limits.memory .resourceProfileIncomplete
  let swap ← okOr limits.swap .resourceProfileIncomplete
  let configured ← ReceiptConfiguredResources.new limits.processes memory swap 1
  ReceiptResources.fromConfigured configured memoryPeakBytes swapPeakBytes memoryEvents swapEvents

def ReceiptResources.incomplete (processes : ProcessLimit) (memory : MemoryByteLimit)
    (swap : SwapByteLimit) (memoryOomGroup : UInt64) : Except ReceiptError ReceiptResources :=
  if h : memoryOomGroup ≠ 1 then .error .configuredResourcesInvalid
  else .ok
    { processes, memory, swap, memoryOomGroup
      memoryPeakBytes := 0
      swapPeakBytes := 0
      memoryEvents := ⟨0, 0, 0, 0, 0, 0⟩
      swapEvents := ⟨0, 0⟩
      limitEvents := .new []
      observationsComplete := false
      memoryOomGroup_eq := not_not.mp h
      limitEvents_eq := rfl
      unobserved := by simp }

/-! ## The trusted computing base -/

/-- `TrustedComputingBaseRole`, ordered as declared. -/
inductive TrustedComputingBaseRole where
  | hostHardwareFirmware
  | linuxKernel
  | landlock
  | seccomp
  | cgroupV2
  | noNewPrivileges
  | filesystem
  | runtimeBinary
  | launcherBinary
  | rustToolchain
  | cryptographicDigest
  | runtimeExecutable
  | runtimeLoaderExecutable
  | runtimeLibrary
deriving DecidableEq

instance : Ord TrustedComputingBaseRole := ⟨compareOn TrustedComputingBaseRole.ctorIdx⟩

instance : Std.TransOrd TrustedComputingBaseRole :=
  inferInstanceAs (Std.TransCmp (compareOn TrustedComputingBaseRole.ctorIdx))

def TrustedComputingBaseRole.asStr : TrustedComputingBaseRole → String
  | .hostHardwareFirmware => "host-hardware-firmware"
  | .linuxKernel => "linux-kernel"
  | .landlock => "landlock"
  | .seccomp => "seccomp"
  | .cgroupV2 => "cgroup-v2"
  | .noNewPrivileges => "no-new-privileges"
  | .filesystem => "filesystem"
  | .runtimeBinary => "runtime-binary"
  | .launcherBinary => "launcher-binary"
  | .rustToolchain => "rust-toolchain"
  | .cryptographicDigest => "cryptographic-digest"
  | .runtimeExecutable => "runtime-executable"
  | .runtimeLoaderExecutable => "runtime-loader-executable"
  | .runtimeLibrary => "runtime-library"

@[ext] structure TrustedComputingBaseEntry where
  role : TrustedComputingBaseRole
  identity : String
  identity_ne : identity ≠ ""

instance : DecidableEq TrustedComputingBaseEntry :=
  fun _ _ => decidable_of_iff _ TrustedComputingBaseEntry.ext_iff.symm

def TrustedComputingBaseEntry.new (role : TrustedComputingBaseRole) (identity : String) :
    Except ReceiptError TrustedComputingBaseEntry :=
  if h : identity = "" then .error .emptyText else .ok ⟨role, identity, h⟩

/-- The derived order of `TrustedComputingBaseEntry`. -/
def TrustedComputingBaseEntry.cmp (left right : TrustedComputingBaseEntry) : Ordering :=
  (compare left.role right.role).then (Utf8.cmp left.identity right.identity)

/-! ## The receipt -/

structure ExecutionReceiptParts where
  executionId : ExecutionId
  plan : ReceiptPlan
  policy : ReceiptPolicy
  platform : PlatformIdentity
  runtime : RuntimeIdentity
  command : ReceiptCommand
  inputs : List ArtifactIdentity
  environment : List EnvironmentName
  outputRoot : ArtifactIdentity
  boundary : BoundaryRecord
  observations : ExecutionObservations
  streams : ReceiptStreams
  outcome : ExecutionOutcome
  resources : Option ReceiptResources
  outputs : List ArtifactIdentity
  producer : ArtifactIdentity
  assumptions : List String
  trustedComputingBase : List TrustedComputingBaseEntry

structure ExecutionReceipt where
  parts : ExecutionReceiptParts
  environment : StringSet
  assumptions : StringSet
  eligibility : ReceiptEligibility

/-- `require_role` for each artifact. -/
def requireRoles (artifacts : List ArtifactIdentity) (expected : ArtifactRole)
    (field : ReceiptArtifactField) : Except ReceiptError Unit :=
  match artifacts with
  | [] => .ok ()
  | artifact :: artifacts => do
    let _ ← requireRole artifact expected field
    requireRoles artifacts expected field

def isInputRole (role : ArtifactRole) : Bool := role == .projectInput || role == .runtimeLibrary

def requireInputRoles : List ArtifactIdentity → Except ReceiptError Unit
  | [] => .ok ()
  | artifact :: artifacts => do
    rejectIf (isInputRole artifact.role = false) (.roleMismatch .input)
    requireInputRoles artifacts

def rejectDuplicateArtifacts (values : List ArtifactIdentity) : Except ReceiptError Unit :=
  rejectIf (windowsAny (fun left right => left == right) values = true) .duplicateArtifact

/-- The required assumptions are found by binary search. -/
def requireAssumptions (assumptions : List String) : List String → Except ReceiptError Unit
  | [] => .ok ()
  | required :: rest => do
    rejectIf ((binarySearchBy (fun value => Utf8.cmp value required) assumptions).isNone)
      .assumptionMissing
    requireAssumptions assumptions rest

def requireTcbRole (entries : List TrustedComputingBaseEntry)
    (required : TrustedComputingBaseRole) : Except ReceiptError Unit :=
  rejectIf ((entries.any fun entry => entry.role == required) = false)
    .trustedComputingBaseRoleMissing

/-- `ALWAYS_REQUIRED`. -/
def alwaysRequired : List TrustedComputingBaseRole :=
  [.hostHardwareFirmware, .linuxKernel, .landlock, .seccomp, .cgroupV2, .noNewPrivileges,
    .filesystem, .runtimeBinary, .launcherBinary, .rustToolchain, .cryptographicDigest,
    .runtimeExecutable]

/-- `require_tcb_role` for each of the roles. -/
def requireEachTcbRole (entries : List TrustedComputingBaseEntry) :
    List TrustedComputingBaseRole → Except ReceiptError Unit
  | [] => .ok ()
  | role :: roles => do
    requireTcbRole entries role
    requireEachTcbRole entries roles

/-- `require_tcb_role` under a condition. -/
def requireTcbRoleIf (condition : Bool) (entries : List TrustedComputingBaseEntry)
    (required : TrustedComputingBaseRole) : Except ReceiptError Unit :=
  if condition then requireTcbRole entries required else .ok ()

def requireTcbRoles (parts : ExecutionReceiptParts) : Except ReceiptError Unit := do
  requireEachTcbRole parts.trustedComputingBase alwaysRequired
  requireTcbRoleIf parts.command.loader.isSome parts.trustedComputingBase
    .runtimeLoaderExecutable
  requireTcbRoleIf (parts.inputs.any fun identity => identity.role == .runtimeLibrary)
    parts.trustedComputingBase .runtimeLibrary

/-- The facts that decide the eligibility.  Resources and plan limits come
together or not at all. -/
def receiptFacts (parts : ExecutionReceiptParts) : Except ReceiptError ReceiptFacts :=
  match parts.resources, parts.plan.normalizedLimits with
  | some resources, some _ =>
    .ok (.newV2 parts.boundary.state parts.outcome parts.streams.stdout.capture
      parts.streams.stderr.capture
      (if resources.observationsComplete then .valid else .malformed) resources.limitEvents)
  | none, none =>
    .ok (.new parts.boundary.state parts.outcome parts.streams.stdout.capture
      parts.streams.stderr.capture .valid)
  | _, _ => .error .resourceProfileIncomplete

def ExecutionReceipt.new (parts : ExecutionReceiptParts) :
    Except ReceiptError ExecutionReceipt := do
  requireInputRoles parts.inputs
  requireRoles parts.outputs .outputArtifact .output
  let _ ← requireRole parts.outputRoot .outputRoot .outputRoot
  let _ ← requireRole parts.producer .runtimeBinary .producer
  rejectIf (parts.boundary.executionId ≠ parts.executionId) (.identityMismatch .execution)
  rejectIf (parts.boundary.policySha256 ≠ parts.policy.identity.digest) (.identityMismatch .policy)
  rejectIf (parts.producer ≠ parts.runtime.runtime.toArtifactIdentity) (.identityMismatch .producer)
  let inputs := sortBy ArtifactIdentity.cmp parts.inputs
  rejectDuplicateArtifacts inputs
  let outputs := sortBy ArtifactIdentity.cmp parts.outputs
  rejectDuplicateArtifacts outputs
  let trustedComputingBase := sortBy TrustedComputingBaseEntry.cmp parts.trustedComputingBase
  rejectDuplicates trustedComputingBase
  rejectIf (trustedComputingBase = []) .trustedComputingBaseEmpty
  let environment ← canonicalStringSet (parts.environment.map EnvironmentName.asStr)
  let assumptions ← canonicalStringSet parts.assumptions
  requireAssumptions assumptions.values requiredRuntimeAssumptions
  -- The assumptions are taken out of the parts.
  let parts := { parts with inputs, outputs, trustedComputingBase, assumptions := [] }
  requireTcbRoles parts
  let facts ← receiptFacts parts
  pure { parts, environment, assumptions, eligibility := deriveReceiptEligibility facts }

/-! ## The orders -/

theorem ArtifactRole.ctorIdx_injective : Function.Injective ArtifactRole.ctorIdx := by
  intro role role' h
  rw [← ArtifactRole.ofNat_ctorIdx role, h, ArtifactRole.ofNat_ctorIdx]

theorem TrustedComputingBaseRole.ctorIdx_injective :
    Function.Injective TrustedComputingBaseRole.ctorIdx := by
  intro role role' h
  rw [← TrustedComputingBaseRole.ofNat_ctorIdx role, h, TrustedComputingBaseRole.ofNat_ctorIdx]

instance : Std.TransCmp ArtifactIdentity.cmp :=
  inferInstanceAs (Std.TransCmp (compareLex (compareOn ArtifactIdentity.role)
    (compareLex (compareOn fun identity : ArtifactIdentity => identity.digest.toList)
      (compareLex (compareOn ArtifactIdentity.size)
        (compareOn fun identity : ArtifactIdentity => identity.mode.get)))))

instance : Std.LawfulEqCmp ArtifactIdentity.cmp where
  eq_of_compare := by
    intro left right h
    obtain ⟨role, digest, size, ⟨mode, hmode⟩⟩ := left
    obtain ⟨role', digest', size', ⟨mode', hmode'⟩⟩ := right
    simp only [ArtifactIdentity.cmp, Ordering.then_eq_eq] at h
    obtain ⟨hrole, hdigest, hsize, hmode⟩ := h
    obtain rfl := ArtifactRole.ctorIdx_injective (Nat.compare_eq_eq.mp hrole)
    obtain rfl := Vector.toList_inj.mp (Std.LawfulEqOrd.eq_of_compare hdigest)
    obtain rfl := Std.LawfulEqOrd.eq_of_compare hsize
    obtain rfl := Std.LawfulEqOrd.eq_of_compare hmode
    rfl

instance : Std.TransCmp TrustedComputingBaseEntry.cmp :=
  inferInstanceAs (Std.TransCmp (compareLex (compareOn TrustedComputingBaseEntry.role)
    (compareOn fun entry : TrustedComputingBaseEntry => Utf8.bytes entry.identity)))

instance : Std.LawfulEqCmp TrustedComputingBaseEntry.cmp where
  eq_of_compare := by
    intro left right h
    obtain ⟨role, identity, hne⟩ := left
    obtain ⟨role', identity', hne'⟩ := right
    simp only [TrustedComputingBaseEntry.cmp, Ordering.then_eq_eq] at h
    obtain rfl := TrustedComputingBaseRole.ctorIdx_injective (Nat.compare_eq_eq.mp h.1)
    obtain rfl := Std.LawfulEqCmp.eq_of_compare h.2
    rfl

/-! ## What holds of a receipt -/

theorem requireRole_eq_ok {artifact : ArtifactIdentity} {expected : ArtifactRole}
    {field : ReceiptArtifactField} {checked : ArtifactOf expected} :
    requireRole artifact expected field = .ok checked ↔
      checked.toArtifactIdentity = artifact := by
  unfold requireRole
  split
  next h =>
    constructor
    · rintro ⟨⟩
      rfl
    · intro heq
      subst heq
      rfl
  next h =>
    constructor
    · rintro ⟨⟩
    · intro heq
      exact absurd (heq ▸ checked.role_eq) h

variable {artifacts : List ArtifactIdentity}

theorem requireRoles_eq_ok {expected : ArtifactRole} {field : ReceiptArtifactField} :
    requireRoles artifacts expected field = .ok u ↔
      ∀ artifact ∈ artifacts, artifact.role = expected := by
  induction artifacts with
  | nil => simp [requireRoles]
  | cons artifact artifacts ih =>
    simp only [requireRoles, bind_eq_ok, requireRole_eq_ok, ih, List.forall_mem_cons]
    constructor
    · rintro ⟨checked, hchecked, hrest⟩
      exact ⟨hchecked ▸ checked.role_eq, hrest⟩
    · intro h
      exact ⟨⟨artifact, h.1⟩, rfl, h.2⟩

theorem requireInputRoles_eq_ok :
    requireInputRoles artifacts = .ok u ↔
      ∀ artifact ∈ artifacts, isInputRole artifact.role = true := by
  induction artifacts with
  | nil => simp [requireInputRoles]
  | cons artifact artifacts ih =>
    simp only [requireInputRoles, bind_eq_ok, rejectIf_eq_ok, exists_const, ih,
      Bool.not_eq_false, List.forall_mem_cons]

theorem strict_of_rejectDuplicateArtifacts
    (h : rejectDuplicateArtifacts (sortBy ArtifactIdentity.cmp artifacts) = .ok u) :
    Strict ArtifactIdentity.cmp (sortBy ArtifactIdentity.cmp artifacts) := by
  rw [rejectDuplicateArtifacts, rejectIf_eq_ok, Bool.not_eq_true] at h
  exact strict_sortBy_of_windowsAny h

theorem values_of_canonicalStringSet {values : List String} {set : StringSet}
    (h : canonicalStringSet values = .ok set) : set.values = sortBy Utf8.cmp values := by
  unfold canonicalStringSet at h
  split at h
  · cases h
  · split at h
    · cases h
    · cases h
      rfl

/-- In a strictly increasing list binary search finds what is there. -/
theorem requireAssumptions_eq_ok {assumptions required : List String}
    (hstrict : Strict Utf8.cmp assumptions) :
    requireAssumptions assumptions required = .ok u ↔ ∀ r ∈ required, r ∈ assumptions := by
  induction required with
  | nil => simp [requireAssumptions]
  | cons r required ih =>
    simp only [requireAssumptions, bind_eq_ok, rejectIf_eq_ok, exists_const,
      not_isNone_binarySearchBy hstrict, ih,
      List.forall_mem_cons]

variable {entries : List TrustedComputingBaseEntry}

theorem requireTcbRole_eq_ok {role : TrustedComputingBaseRole} :
    requireTcbRole entries role = .ok u ↔ ∃ entry ∈ entries, entry.role = role := by
  rw [requireTcbRole, rejectIf_eq_ok, Bool.not_eq_false, List.any_eq_true]
  simp only [beq_iff_eq]

theorem requireEachTcbRole_eq_ok {roles : List TrustedComputingBaseRole} :
    requireEachTcbRole entries roles = .ok u ↔
      ∀ role ∈ roles, ∃ entry ∈ entries, entry.role = role := by
  induction roles with
  | nil => simp [requireEachTcbRole]
  | cons role roles ih =>
    simp only [requireEachTcbRole, bind_eq_ok, requireTcbRole_eq_ok, exists_const, ih,
      List.forall_mem_cons]

theorem requireTcbRoleIf_eq_ok {condition : Bool} {role : TrustedComputingBaseRole} :
    requireTcbRoleIf condition entries role = .ok u ↔
      ∀ r ∈ (if condition then [role] else []), ∃ entry ∈ entries, entry.role = r := by
  unfold requireTcbRoleIf
  split
  · rw [requireTcbRole_eq_ok, List.forall_mem_singleton]
  · simp

/-- The roles that the inventory must have. -/
def requiredTcbRoles (parts : ExecutionReceiptParts) : List TrustedComputingBaseRole :=
  alwaysRequired ++
    (if parts.command.loader.isSome then [.runtimeLoaderExecutable] else []) ++
    (if parts.inputs.any fun identity => identity.role == .runtimeLibrary then [.runtimeLibrary]
      else [])

theorem requireTcbRoles_eq_ok {parts : ExecutionReceiptParts} :
    requireTcbRoles parts = .ok u ↔
      ∀ role ∈ requiredTcbRoles parts, ∃ entry ∈ parts.trustedComputingBase, entry.role = role := by
  simp only [requireTcbRoles, bind_eq_ok, requireEachTcbRole_eq_ok, requireTcbRoleIf_eq_ok,
    exists_const, requiredTcbRoles, List.forall_mem_append, and_assoc]

/-- Roles and relations of the parts, the order of the lists, and the derived
eligibility. -/
structure ExecutionReceipt.Valid (receipt : ExecutionReceipt) : Prop where
  inputRoles : ∀ artifact ∈ receipt.parts.inputs, isInputRole artifact.role = true
  outputRoles : ∀ artifact ∈ receipt.parts.outputs, artifact.role = .outputArtifact
  outputRoot : receipt.parts.outputRoot.role = .outputRoot
  executionId : receipt.parts.boundary.executionId = receipt.parts.executionId
  policy : receipt.parts.boundary.policySha256 = receipt.parts.policy.identity.digest
  producer : receipt.parts.producer = receipt.parts.runtime.runtime.toArtifactIdentity
  inputs : Strict ArtifactIdentity.cmp receipt.parts.inputs
  outputs : Strict ArtifactIdentity.cmp receipt.parts.outputs
  tcb : Strict TrustedComputingBaseEntry.cmp receipt.parts.trustedComputingBase
  tcb_ne : receipt.parts.trustedComputingBase ≠ []
  tcbRoles : ∀ role ∈ requiredTcbRoles receipt.parts,
    ∃ entry ∈ receipt.parts.trustedComputingBase, entry.role = role
  environment : ∀ value ∈ receipt.environment.values, ∃ name : EnvironmentName, name.asStr = value
  assumptions : ∀ required ∈ requiredRuntimeAssumptions, required ∈ receipt.assumptions.values
  eligibility : ∃ facts, receiptFacts receipt.parts = .ok facts ∧
    receipt.eligibility = deriveReceiptEligibility facts

theorem ExecutionReceipt.valid_of_new {parts : ExecutionReceiptParts}
    {receipt : ExecutionReceipt} (h : ExecutionReceipt.new parts = .ok receipt) :
    receipt.Valid ∧ receipt.parts.resources = parts.resources ∧
      receipt.parts.plan = parts.plan := by
  simp only [ExecutionReceipt.new, bind_eq_ok, requireInputRoles_eq_ok, requireRoles_eq_ok,
    requireRole_eq_ok, rejectIf_eq_ok, exists_const, ne_eq, not_not, requireTcbRoles_eq_ok,
    pure_eq_ok] at h
  obtain ⟨hinputRoles, houtputRoles, ⟨outputRoot, houtputRoot, producer, hproducerRole,
    hexecutionId, hpolicy, hproducer, _, hinputs, _, houtputs, _, htcb, htcbNe, environment,
    henvironment, assumptions, hassumptions, _, hrequired, htcbRoles, facts, hfacts, hreceipt⟩⟩ := h
  subst hreceipt
  have henvironment := values_of_canonicalStringSet henvironment
  rw [requireAssumptions_eq_ok assumptions.strict] at hrequired
  refine ⟨?_, rfl, rfl⟩
  exact
    { inputRoles := fun artifact hmem => hinputRoles artifact (mem_sortBy.mp hmem)
      outputRoles := fun artifact hmem => houtputRoles artifact (mem_sortBy.mp hmem)
      outputRoot := houtputRoot ▸ outputRoot.role_eq
      executionId := hexecutionId
      policy := hpolicy
      producer := hproducer
      inputs := strict_of_rejectDuplicateArtifacts hinputs
      outputs := strict_of_rejectDuplicateArtifacts houtputs
      tcb := strict_of_rejectDuplicates htcb
      tcb_ne := htcbNe
      tcbRoles := htcbRoles
      environment := by
        intro value hvalue
        rw [henvironment, mem_sortBy] at hvalue
        obtain ⟨name, -, hname⟩ := List.mem_map.mp hvalue
        exact ⟨name, hname⟩
      assumptions := hrequired
      eligibility := ⟨facts, hfacts, rfl⟩ }

end ProofboundRuntime.Core
