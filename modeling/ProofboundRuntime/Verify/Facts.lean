import ProofboundRuntime.Verify.DecodeV2

/-!
# The facts of a receipt

The decoder keeps digests as hexadecimal text and counters as decimal text.
Here a receipt is described by its facts before they are spelled as text, with
the conditions that the decoder puts on them.

* `encode` writes facts as a data item, as in `execution-receipt-v2.cddl`;
* `wire` is what the decoder keeps of them.
-/

namespace ProofboundRuntime.Verify

open Cbor

/-! ## Wire names -/

/-- The text of a role, as in `wire_artifact_role`. -/
def WireArtifactRole.asStr : WireArtifactRole → String
  | .executionPlan => "execution-plan"
  | .normalizedPlan => "normalized-plan"
  | .compiledPolicy => "compiled-policy"
  | .runtimeBinary => "runtime-binary"
  | .launcherBinary => "launcher-binary"
  | .verifierBinary => "verifier-binary"
  | .runtimeExecutable => "runtime-executable"
  | .runtimeLoaderExecutable => "runtime-loader-executable"
  | .runtimeLibrary => "runtime-library"
  | .workingDirectory => "working-directory"
  | .projectInput => "project-input"
  | .outputRoot => "output-root"
  | .standardOutput => "standard-output"
  | .standardError => "standard-error"
  | .outputArtifact => "output-artifact"

def WireArchitecture.asStr : WireArchitecture → String
  | .x86_64 => "x86_64"
  | .aarch64 => "aarch64"

def WireBoundaryState.asStr : WireBoundaryState → String
  | .installed => "installed"
  | .incomplete => "incomplete"

def WireCapture.asStr : WireCapture → String
  | .complete => "complete"
  | .truncated => "truncated"

def WireEligibilityStatus.asStr : WireEligibilityStatus → String
  | .reusable => "reusable"
  | .nonReusable => "non-reusable"

def WireReason.asStr : WireReason → String
  | .boundaryIncomplete => "boundary-incomplete"
  | .exitCodeNonzero => "exit-code-nonzero"
  | .processSignaled => "process-signaled"
  | .timedOut => "timed-out"
  | .denied => "denied"
  | .launcherFailed => "launcher-failed"
  | .executionIncomplete => "execution-incomplete"
  | .stdoutTruncated => "stdout-truncated"
  | .stderrTruncated => "stderr-truncated"
  | .receiptMalformed => "receipt-malformed"
  | .memoryHigh => "memory-high"
  | .memoryMax => "memory-max"
  | .memoryOom => "memory-oom"
  | .memoryOomKill => "memory-oom-kill"
  | .memoryOomGroupKill => "memory-oom-group-kill"
  | .swapMax => "swap-max"
  | .swapFail => "swap-fail"

/-- An array of texts. -/
def encodeTexts (texts : List String) : Value := .array (texts.map .text)

/-! ## Identities -/

/-- An artifact, as bytes and numbers. -/
@[ext] structure ArtifactFacts where
  role : WireArtifactRole
  sha256 : Vector UInt8 32
  size : UInt64
  mode : UInt16
  mode_le : mode ≤ 0o7777

instance : DecidableEq ArtifactFacts :=
  fun _ _ => decidable_of_iff _ ArtifactFacts.ext_iff.symm

/-- The item of an artifact. -/
def ArtifactFacts.encode (a : ArtifactFacts) : Value :=
  .map [("mode", .unsigned a.mode.toUInt64), ("role", .text a.role.asStr),
    ("size", .unsigned a.size), ("sha256", .bytes a.sha256.toList)]

/-- The artifact in texts. -/
def ArtifactFacts.wire (a : ArtifactFacts) : WireArtifact :=
  { role := a.role
    sha256 := Hex.text a.sha256.toList
    size := Decimal.text a.size.toNat
    mode := a.mode }

/-- The items of artifacts. -/
def encodeArtifacts (artifacts : List ArtifactFacts) : Value :=
  .array (artifacts.map ArtifactFacts.encode)

/-- A plan with valid limits. -/
structure PlanFacts where
  id : String
  source : ArtifactFacts
  normalized : ArtifactFacts
  limits : WirePlanLimits
  processes_ne : limits.processes ≠ 0
  limits_valid : ¬(limits.wallTimeMs = 0 ∨ limitsInvalid limits.memory limits.swap)

/-- The item of limits. -/
def encodeLimits (limits : WirePlanLimits) : Value :=
  .map [("processes", .unsigned limits.processes.toUInt64),
    ("wall_time_ms", .unsigned limits.wallTimeMs),
    ("stdout_bytes", .unsigned limits.stdoutBytes),
    ("stderr_bytes", .unsigned limits.stderrBytes),
    ("memory_bytes", .unsigned limits.memory), ("swap_bytes", .unsigned limits.swap)]

/-- The item of a plan. -/
def PlanFacts.encode (p : PlanFacts) : Value :=
  .map [("id", .text p.id), ("source", p.source.encode), ("normalized", p.normalized.encode),
    ("limits", encodeLimits p.limits)]

def PlanFacts.wire (p : PlanFacts) : WirePlan × WirePlanLimits :=
  ({ id := p.id, source := p.source.wire, normalized := p.normalized.wire }, p.limits)

/-- The item of a policy. -/
def encodePolicy (identity : ArtifactFacts) : Value :=
  .map [("identity", identity.encode), ("model_version", .text policyModel)]

def wirePolicy (identity : ArtifactFacts) : WirePolicy :=
  { identity := identity.wire, modelVersion := policyModel }

/-- A host with Landlock. -/
structure PlatformFacts where
  architecture : WireArchitecture
  landlockAbi : UInt32
  kernelRelease : String
  seccompFeatures : List String
  cgroupControllers : List String
  landlockAbi_ne : landlockAbi ≠ 0

/-- The item of a host. -/
def PlatformFacts.encode (p : PlatformFacts) : Value :=
  .map [("architecture", .text p.architecture.asStr),
    ("landlock_abi", .unsigned p.landlockAbi.toUInt64),
    ("kernel_release", .text p.kernelRelease), ("operating_system", .text "linux"),
    ("seccomp_features", encodeTexts p.seccompFeatures),
    ("cgroup_controllers", encodeTexts p.cgroupControllers)]

def PlatformFacts.wire (p : PlatformFacts) : WirePlatform :=
  { operatingSystem := "linux"
    architecture := p.architecture
    kernelRelease := p.kernelRelease
    landlockAbi := p.landlockAbi
    seccompFeatures := p.seccompFeatures
    cgroupControllers := p.cgroupControllers }

/-- The two binaries. -/
structure RuntimeFacts where
  runtime : ArtifactFacts
  launcher : ArtifactFacts

/-- The item of the binaries. -/
def RuntimeFacts.encode (r : RuntimeFacts) : Value :=
  .map [("runtime", r.runtime.encode), ("launcher", r.launcher.encode)]

def RuntimeFacts.wire (r : RuntimeFacts) : WireRuntime :=
  { runtime := r.runtime.wire, launcher := r.launcher.wire }

/-- Null without a loader. -/
def encodeLoader (loader : Option ArtifactFacts) : Value :=
  loader.elim .null ArtifactFacts.encode

/-- What was executed. -/
structure CommandFacts where
  loader : Option ArtifactFacts
  executable : ArtifactFacts
  argumentsSha256 : Vector UInt8 32
  workingDirectory : ArtifactFacts

/-- The item of a command. -/
def CommandFacts.encode (c : CommandFacts) : Value :=
  .map [("loader", encodeLoader c.loader), ("executable", c.executable.encode),
    ("arguments_sha256", .bytes c.argumentsSha256.toList),
    ("working_directory", c.workingDirectory.encode)]

def CommandFacts.wire (c : CommandFacts) : WireCommand :=
  { executable := c.executable.wire
    loader := c.loader.map ArtifactFacts.wire
    workingDirectory := c.workingDirectory.wire
    argumentsSha256 := Hex.text c.argumentsSha256.toList }

/-! ## What was observed -/

/-- The boundary and its ids. -/
structure BoundaryFacts where
  state : WireBoundaryState
  inode : UInt64
  mountId : UInt64
  executionId : Vector UInt8 16
  policySha256 : Vector UInt8 32

/-- The item of a boundary. -/
def BoundaryFacts.encode (b : BoundaryFacts) : Value :=
  .map [("state", .text b.state.asStr),
    ("cgroup", .map [("inode", .unsigned b.inode), ("mount_id", .unsigned b.mountId)]),
    ("execution_id", .bytes b.executionId.toList),
    ("policy_sha256", .bytes b.policySha256.toList)]

def BoundaryFacts.wire (b : BoundaryFacts) : WireBoundary :=
  { state := b.state
    executionId := uuidText b.executionId.toList
    policySha256 := Hex.text b.policySha256.toList
    cgroup :=
      { mountId := Decimal.text b.mountId.toNat, inode := Decimal.text b.inode.toNat } }

/-- Two times. -/
structure ObservationFacts where
  startedNs : UInt64
  finishedNs : UInt64

/-- The item of the times. -/
def ObservationFacts.encode (o : ObservationFacts) : Value :=
  .map [("clock", .text "linux-monotonic"), ("started_ns", .unsigned o.startedNs),
    ("finished_ns", .unsigned o.finishedNs)]

def ObservationFacts.wire (o : ObservationFacts) : WireObservations :=
  { clock := "linux-monotonic"
    startedNs := Decimal.text o.startedNs.toNat
    finishedNs := Decimal.text o.finishedNs.toNat }

/-- A captured stream. -/
structure StreamFacts where
  capture : WireCapture
  artifact : ArtifactFacts

/-- The item of a stream. -/
def StreamFacts.encode (s : StreamFacts) : Value :=
  .map [("capture", .text s.capture.asStr), ("artifact", s.artifact.encode)]

def StreamFacts.wire (s : StreamFacts) : WireStream :=
  { artifact := s.artifact.wire, capture := s.capture }

/-- Both streams. -/
structure StreamsFacts where
  stdout : StreamFacts
  stderr : StreamFacts

/-- The item of both. -/
def StreamsFacts.encode (s : StreamsFacts) : Value :=
  .map [("stderr", s.stderr.encode), ("stdout", s.stdout.encode)]

def StreamsFacts.wire (s : StreamsFacts) : WireStreams :=
  { stdout := s.stdout.wire, stderr := s.stderr.wire }

/-- The outcomes on the wire: an exit code is an `i32`, and a signal is not
zero. -/
def WireOutcome.Valid : WireOutcome → Prop
  | .exited code => -2 ^ 31 ≤ code ∧ code < 2 ^ 31
  | .signaled signal => signal ≠ 0
  | _ => True

/-- A valid outcome. -/
structure OutcomeFacts where
  outcome : WireOutcome
  valid : outcome.Valid

/-- An integer item. -/
def encodeInt (n : Int) : Value :=
  if 0 ≤ n then .unsigned (UInt64.ofNat n.toNat) else .negative (UInt64.ofNat (-1 - n).toNat)

/-- The item of an outcome. -/
def encodeOutcome : WireOutcome → Value
  | .exited code => .map [("kind", .text "exited"), ("code", encodeInt code)]
  | .signaled signal => .map [("kind", .text "signaled"), ("signal", .unsigned signal.toUInt64)]
  | .timedOut => .map [("kind", .text "timed-out")]
  | .denied => .map [("kind", .text "denied")]
  | .launcherFailed => .map [("kind", .text "launcher-failed")]
  | .incomplete => .map [("kind", .text "incomplete")]

/-- The item of reasons. -/
def encodeReasons (reasons : List WireReason) : Value :=
  encodeTexts (reasons.map WireReason.asStr)

/-- The item of the counters. -/
def TerminalResources.encode (t : TerminalResources) : Value :=
  .map [("swap_events",
      .map [("max", .unsigned t.swapEvents.max), ("fail", .unsigned t.swapEvents.fail)]),
    ("memory_events",
      .map [("low", .unsigned t.memoryEvents.low), ("oom", .unsigned t.memoryEvents.oom),
        ("high", .unsigned t.memoryEvents.high), ("max", .unsigned t.memoryEvents.max),
        ("oom_kill", .unsigned t.memoryEvents.oomKill),
        ("oom_group_kill", .unsigned t.memoryEvents.oomGroupKill)]),
    ("swap_peak_bytes", .unsigned t.swapPeak), ("memory_peak_bytes", .unsigned t.memoryPeak)]

/-- Null without counters. -/
def encodeTerminal (terminal : Option TerminalResources) : Value :=
  terminal.elim .null TerminalResources.encode

/-- Resources with valid limits. -/
structure ResourceFacts where
  processes : UInt32
  memory : UInt64
  swap : UInt64
  terminal : Option TerminalResources
  limitEvents : List WireReason
  processes_ne : processes ≠ 0
  limits_valid : ¬limitsInvalid memory swap

/-- The item of resources. -/
def ResourceFacts.encode (r : ResourceFacts) : Value :=
  .map [("terminal", encodeTerminal r.terminal),
    ("configured",
      .map [("pids.max", .unsigned r.processes.toUInt64), ("memory.max", .unsigned r.memory),
        ("memory.oom.group", .unsigned 1), ("memory.swap.max", .unsigned r.swap)]),
    ("limit_events", encodeReasons r.limitEvents)]

def ResourceFacts.wire (r : ResourceFacts) : WireResources :=
  wireResources r.processes r.memory r.swap r.terminal r.limitEvents

/-- The item of a decision. -/
def WireEligibility.encode (e : WireEligibility) : Value :=
  .map [("status", .text e.status.asStr), ("reasons", encodeReasons e.reasons)]

/-- The item of an entry. -/
def WireTcbEntry.encode (entry : WireTcbEntry) : Value :=
  .map [("role", .text entry.role), ("identity", .text entry.identity)]

/-- Some entries. -/
structure TcbFacts where
  entries : List WireTcbEntry
  entries_ne : entries ≠ []

/-- The items of the entries. -/
def TcbFacts.encode (t : TcbFacts) : Value := .array (t.entries.map WireTcbEntry.encode)

/-! ## The receipt -/

/-- A recorded reuse has no reasons, and a recorded refusal has some. -/
def WireEligibility.Valid (e : WireEligibility) : Prop :=
  e.status = .reusable ↔ e.reasons = []

/-- All of a receipt. -/
structure ReceiptFacts where
  productVersion : String
  executionId : Vector UInt8 16
  plan : PlanFacts
  policy : ArtifactFacts
  platform : PlatformFacts
  runtime : RuntimeFacts
  command : CommandFacts
  inputs : List ArtifactFacts
  environment : List String
  outputRoot : ArtifactFacts
  boundary : BoundaryFacts
  observations : ObservationFacts
  streams : StreamsFacts
  outcome : OutcomeFacts
  outputs : List ArtifactFacts
  eligibility : WireEligibility
  producer : ArtifactFacts
  assumptions : List String
  trustedComputingBase : TcbFacts
  resources : ResourceFacts
  eligibility_valid : eligibility.Valid

namespace ReceiptFacts

/-- The item of a receipt. -/
def encode (r : ReceiptFacts) : Value :=
  .map [("plan", r.plan.encode), ("schema", .text schema), ("inputs", encodeArtifacts r.inputs),
    ("policy", encodePolicy r.policy), ("runtime", r.runtime.encode),
    ("streams", r.streams.encode), ("command", r.command.encode),
    ("outcome", encodeOutcome r.outcome.outcome), ("outputs", encodeArtifacts r.outputs),
    ("boundary", r.boundary.encode), ("producer", r.producer.encode),
    ("platform", r.platform.encode), ("resources", r.resources.encode),
    ("eligibility", r.eligibility.encode), ("environment", encodeTexts r.environment),
    ("execution_id", .bytes r.executionId.toList), ("observations", r.observations.encode),
    ("product_version", .text r.productVersion), ("assumptions", encodeTexts r.assumptions),
    ("output_root", r.outputRoot.encode),
    ("trusted_computing_base", r.trustedComputingBase.encode)]

/-- The receipt in texts. -/
def wire (r : ReceiptFacts) : WireReceipt :=
  { schema := schema
    productVersion := r.productVersion
    executionId := uuidText r.executionId.toList
    plan := r.plan.wire.1
    policy := wirePolicy r.policy
    platform := r.platform.wire
    runtime := r.runtime.wire
    command := r.command.wire
    inputs := r.inputs.map ArtifactFacts.wire
    environment := r.environment
    outputRoot := r.outputRoot.wire
    boundary := r.boundary.wire
    observations := r.observations.wire
    streams := r.streams.wire
    outcome := r.outcome.outcome
    outputs := r.outputs.map ArtifactFacts.wire
    eligibility := r.eligibility
    producer := r.producer.wire
    assumptions := r.assumptions
    trustedComputingBase := r.trustedComputingBase.entries }

/-- The state of the outcome. -/
def outcomeState : WireOutcome → OutcomeState
  | .exited code => .exited code
  | .signaled signal => .signaled signal
  | .timedOut => .timedOut
  | .denied => .denied
  | .launcherFailed => .launcherFailed
  | .incomplete => .incomplete

/-- What the decision is derived from. -/
def eligibilityInput (r : ReceiptFacts) : EligibilityInput :=
  { boundary := boundaryState r.boundary.state
    outcome := outcomeState r.outcome.outcome
    stdout := captureState r.streams.stdout.capture
    stderr := captureState r.streams.stderr.capture
    structureState := if r.resources.terminal.isSome then .valid else .malformed
    limitEvents := r.resources.wire.limitCounters.map (· != 0) }

/-- The recorded decision. -/
def recordedEligibility (r : ReceiptFacts) : RecordedEligibility :=
  match r.eligibility.status with
  | .reusable => .reusable
  | .nonReusable => .nonReusable r.eligibility.reasons

/-- The decoded receipt, with the JSON tree `value` for inspection. -/
def decoded (r : ReceiptFacts) (value : Json) : DecodedReceipt :=
  { value := value
    wire := r.wire
    eligibilityInput := r.eligibilityInput
    recordedEligibility := r.recordedEligibility
    versionTwo := true
    resources := some r.resources.wire
    planLimits := some r.plan.limits }

end ReceiptFacts

end ProofboundRuntime.Verify
