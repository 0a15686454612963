import ProofboundRuntime.Core.ReceiptWire
import ProofboundRuntime.Verify.Facts
import ProofboundRuntime.Verify.Identity

/-!
# The facts that a producer records

The producer and the verifier have their own types for everything in a
receipt.  This module translates the producer's values to the facts that the
verifier decodes, and shows that the producer writes them as the verifier
reads them.

* `encode_facts`: the fields that the producer encodes are the facts that the
  verifier decodes.
-/

namespace ProofboundRuntime.Agreement

open Cbor Result

/-! ## Names -/

/-- The verifier's role. -/
def role : Core.ArtifactRole → Verify.WireArtifactRole
  | .executionPlan => .executionPlan
  | .normalizedPlan => .normalizedPlan
  | .compiledPolicy => .compiledPolicy
  | .runtimeBinary => .runtimeBinary
  | .launcherBinary => .launcherBinary
  | .verifierBinary => .verifierBinary
  | .runtimeExecutable => .runtimeExecutable
  | .runtimeLoaderExecutable => .runtimeLoaderExecutable
  | .runtimeLibrary => .runtimeLibrary
  | .workingDirectory => .workingDirectory
  | .projectInput => .projectInput
  | .outputRoot => .outputRoot
  | .standardOutput => .standardOutput
  | .standardError => .standardError
  | .outputArtifact => .outputArtifact

@[simp] theorem asStr_role (r : Core.ArtifactRole) : (role r).asStr = r.asStr := by
  cases r <;> rfl

@[simp] theorem compare_role (r r' : Core.ArtifactRole) :
    compare (role r) (role r') = compare r r' := by
  have hindex : ∀ r, (role r).ctorIdx = r.ctorIdx := by
    intro r
    cases r <;> rfl
  show compare (role r).ctorIdx (role r').ctorIdx = compare r.ctorIdx r'.ctorIdx
  rw [hindex, hindex]

/-- The verifier's architecture. -/
def architecture : Core.Architecture → Verify.WireArchitecture
  | .x86_64 => .x86_64
  | .aarch64 => .aarch64

@[simp] theorem asStr_architecture (a : Core.Architecture) :
    (architecture a).asStr = a.asStr := by
  cases a <;> rfl

/-- The verifier's state. -/
def boundaryState : Core.BoundaryInstallation → Verify.WireBoundaryState
  | .installed => .installed
  | .incomplete => .incomplete

@[simp] theorem asStr_boundaryState (state : Core.BoundaryInstallation) :
    (boundaryState state).asStr = Core.boundaryWireName state := by
  cases state <;> rfl

/-- The verifier's capture. -/
def capture : Core.StreamCapture → Verify.WireCapture
  | .complete => .complete
  | .truncated => .truncated

@[simp] theorem asStr_capture (c : Core.StreamCapture) :
    (capture c).asStr = Core.streamCaptureWireName c := by
  cases c <;> rfl

/-- The verifier's reason for a reason of the producer. -/
def failureReason : Core.NonReusableReason → Verify.FailureReason
  | .boundaryIncomplete => .boundaryIncomplete
  | .exitCodeNonzero => .exitCodeNonzero
  | .processSignaled => .processSignaled
  | .timedOut => .timedOut
  | .denied => .denied
  | .launcherFailed => .launcherFailed
  | .executionIncomplete => .executionIncomplete
  | .standardOutputTruncated => .standardOutputTruncated
  | .standardErrorTruncated => .standardErrorTruncated
  | .receiptMalformed => .receiptMalformed
  | .memoryHigh => .memoryHigh
  | .memoryMax => .memoryMax
  | .memoryOom => .memoryOom
  | .memoryOomKill => .memoryOomKill
  | .memoryOomGroupKill => .memoryOomGroupKill
  | .swapMax => .swapMax
  | .swapFail => .swapFail

/-! ## Identities -/

/-- The facts of an identity. -/
def artifact (identity : Core.ArtifactIdentity) : Verify.ArtifactFacts :=
  { role := role identity.role
    sha256 := identity.digest
    size := identity.size
    mode := identity.mode.get
    mode_le := identity.mode.get_le }

@[simp] theorem encode_artifact (identity : Core.ArtifactIdentity) :
    (artifact identity).encode = Core.cborArtifact identity := by
  simp only [Verify.ArtifactFacts.encode, Core.cborArtifact, artifact, asStr_role]

theorem encode_artifacts (identities : List Core.ArtifactIdentity) :
    Verify.encodeArtifacts (identities.map artifact) =
      .array (identities.map Core.cborArtifact) := by
  simp only [Verify.encodeArtifacts, List.map_map]
  congr 2
  funext identity
  exact encode_artifact identity

/-- The facts of version 2 limits. -/
def planLimits (limits : Core.ResourceLimits) (memory : Core.MemoryByteLimit)
    (swap : Core.SwapByteLimit) : Verify.WirePlanLimits :=
  { processes := limits.processes.get
    wallTimeMs := limits.wallTime.milliseconds
    stdoutBytes := limits.stdout.get
    stderrBytes := limits.stderr.get
    memory := memory.get
    swap := swap.get }

/-- The producer and the verifier have the same bounds. -/
theorem limits_valid (memory : Core.MemoryByteLimit) (swap : Core.SwapByteLimit) :
    ¬Verify.limitsInvalid memory.get swap.get := by
  unfold Verify.limitsInvalid
  have hswap : ¬Verify.maxResourceBytes < swap.get := UInt64.not_lt.mpr swap.le_maximum
  intro h
  rcases h with h | h | h | h
  · exact h ⟨memory.minimum_le, memory.le_maximum⟩
  · exact h memory.quantized
  · exact hswap h
  · exact h swap.quantized

/-- The facts of a plan. -/
def plan (p : Core.ReceiptPlan) (limits : Core.ResourceLimits) (memory : Core.MemoryByteLimit)
    (swap : Core.SwapByteLimit) : Verify.PlanFacts :=
  { id := p.id.asStr
    source := artifact p.source.toArtifactIdentity
    normalized := artifact p.normalized.toArtifactIdentity
    limits := planLimits limits memory swap
    processes_ne := limits.processes.ne_zero
    limits_valid := not_or.mpr ⟨limits.wallTime.ne_zero, limits_valid memory swap⟩ }

theorem encode_plan {p : Core.ReceiptPlan} {limits : Core.ResourceLimits}
    {memory : Core.MemoryByteLimit} {swap : Core.SwapByteLimit}
    (hlimits : p.normalizedLimits = some limits) (hmemory : limits.memory = some memory)
    (hswap : limits.swap = some swap) :
    Core.cborPlan p = .ok (plan p limits memory swap).encode := by
  simp only [Core.cborPlan, hlimits, hmemory, hswap, okOr_some, ok_bind,
    Verify.PlanFacts.encode, plan, encode_artifact]
  rfl

/-- The facts of a host. -/
def platform (p : Core.PlatformIdentity) : Verify.PlatformFacts :=
  { architecture := architecture p.architecture
    landlockAbi := p.landlockAbi
    kernelRelease := p.kernelRelease
    seccompFeatures := p.seccompFeatures.values
    cgroupControllers := p.cgroupControllers.values
    landlockAbi_ne := p.landlockAbi_ne }

theorem encode_platform (p : Core.PlatformIdentity) :
    (platform p).encode = Core.cborPlatform p := by
  simp only [Verify.PlatformFacts.encode, Core.cborPlatform, platform, asStr_architecture]
  rfl

/-- The facts of a command. -/
def command (c : Core.ReceiptCommand) : Verify.CommandFacts :=
  { loader := c.loader.map fun loader => artifact loader.toArtifactIdentity
    executable := artifact c.executable.toArtifactIdentity
    argumentsSha256 := c.argumentsSha256
    workingDirectory := artifact c.workingDirectory.toArtifactIdentity }

theorem encode_command (c : Core.ReceiptCommand) : (command c).encode = Core.cborCommand c := by
  unfold Verify.CommandFacts.encode Core.cborCommand command Verify.encodeLoader
  cases c.loader <;> simp

/-! ## What was observed -/

/-- The facts of a boundary. -/
def boundary (b : Core.BoundaryRecord) : Verify.BoundaryFacts :=
  { state := boundaryState b.state
    inode := b.cgroup.inode
    mountId := b.cgroup.mountId
    executionId := b.executionId.bytes
    policySha256 := b.policySha256 }

theorem encode_boundary (b : Core.BoundaryRecord) :
    (boundary b).encode = Core.cborBoundary b := by
  simp only [Verify.BoundaryFacts.encode, Core.cborBoundary, boundary, asStr_boundaryState]

/-- The facts of a stream. -/
def stream {r : Core.ArtifactRole} (record : Core.StreamRecord r) : Verify.StreamFacts :=
  { capture := capture record.capture
    artifact := artifact record.artifact.toArtifactIdentity }

theorem encode_stream {r : Core.ArtifactRole} (record : Core.StreamRecord r) :
    (stream record).encode = Core.cborStream record := by
  simp only [Verify.StreamFacts.encode, Core.cborStream, stream, asStr_capture, encode_artifact]

/-- The facts of both streams. -/
def streams (s : Core.ReceiptStreams) : Verify.StreamsFacts := ⟨stream s.stdout, stream s.stderr⟩

theorem encode_streams (s : Core.ReceiptStreams) : (streams s).encode = Core.cborStreams s := by
  simp only [Verify.StreamsFacts.encode, Core.cborStreams, streams, encode_stream]

/-- The verifier's outcome. -/
def wireOutcome : Core.ExecutionOutcome → Verify.WireOutcome
  | .exited code => .exited code.toInt
  | .signaled signal => .signaled signal.get
  | .timedOut => .timedOut
  | .denied => .denied
  | .launcherFailed => .launcherFailed
  | .incomplete => .incomplete

/-- An exit code is an `i32`. -/
def outcome (o : Core.ExecutionOutcome) : Verify.OutcomeFacts where
  outcome := wireOutcome o
  valid := by
    cases o with
    | exited code => exact ⟨code.le_toInt, code.toInt_lt⟩
    | signaled signal => exact signal.ne_zero
    | _ => trivial

theorem encode_outcome (o : Core.ExecutionOutcome) :
    Verify.encodeOutcome (outcome o).outcome = Core.cborOutcome o := by
  cases o <;> rfl

/-! ## Resources -/

/-- The recorded events, in the order of the producer. -/
def limitEvents (events : Core.LimitEvents) : List Verify.WireReason :=
  [(Core.LimitEvent.memoryHigh, Verify.WireReason.memoryHigh), (.memoryMax, .memoryMax),
    (.memoryOom, .memoryOom), (.memoryOomKill, .memoryOomKill),
    (.memoryOomGroupKill, .memoryOomGroupKill), (.swapMax, .swapMax),
    (.swapFail, .swapFail)].filterMap
    fun (event, reason) => if events.contains event then some reason else none

theorem encode_limitEvents (events : Core.LimitEvents) :
    Verify.encodeReasons (limitEvents events) =
      Core.cborTextArray (Core.canonicalLimitEvents events) := by
  have hnames : (limitEvents events).map Verify.WireReason.asStr =
      Core.canonicalLimitEvents events := by
    obtain ⟨high, max, oom, oomKill, oomGroupKill, swapMax, swapFail⟩ := events
    revert high max oom oomKill oomGroupKill swapMax swapFail
    decide
  rw [Verify.encodeReasons, hnames]
  rfl

/-- The counters, if complete. -/
def terminal (r : Core.ReceiptResources) : Option Verify.TerminalResources :=
  if r.observationsComplete then
    some
      { memoryPeak := r.memoryPeakBytes
        swapPeak := r.swapPeakBytes
        memoryEvents :=
          { low := r.memoryEvents.low
            high := r.memoryEvents.high
            max := r.memoryEvents.max
            oom := r.memoryEvents.oom
            oomKill := r.memoryEvents.oomKill
            oomGroupKill := r.memoryEvents.oomGroupKill }
        swapEvents := { max := r.swapEvents.max, fail := r.swapEvents.fail } }
  else none

/-- The facts of resources. -/
def resources (r : Core.ReceiptResources) : Verify.ResourceFacts :=
  { processes := r.processes.get
    memory := r.memory.get
    swap := r.swap.get
    terminal := terminal r
    limitEvents := limitEvents r.limitEvents
    processes_ne := r.processes.ne_zero
    limits_valid := limits_valid r.memory r.swap }

theorem encode_resources (r : Core.ReceiptResources) :
    (resources r).encode = Core.cborResources r := by
  have hterminal : Verify.encodeTerminal (terminal r) = Core.cborTerminal r := by
    unfold terminal Core.cborTerminal
    split <;> rfl
  simp only [Verify.ResourceFacts.encode, Core.cborResources, resources, hterminal,
    encode_limitEvents, r.memoryOomGroup_eq]

/-! ## The receipt -/

/-- The decision with its reasons. -/
def eligibility : Core.ReceiptEligibility → Verify.WireEligibility
  | .reusable => ⟨.reusable, []⟩
  | .nonReusable reasons =>
    ⟨.nonReusable, reasons.map fun reason => Verify.reasonFromFailure (failureReason reason)⟩

theorem encode_eligibility (e : Core.ReceiptEligibility) :
    (eligibility e).encode = Core.cborEligibility e := by
  have hname : ∀ reason, (Verify.reasonFromFailure (failureReason reason)).asStr =
      Core.nonReusableReasonWireName reason := by
    intro reason
    cases reason <;> rfl
  cases e with
  | reusable => rfl
  | nonReusable reasons =>
    simp only [Verify.WireEligibility.encode, eligibility, Core.cborEligibility,
      Verify.encodeReasons, Verify.encodeTexts, Core.cborTextArray, List.map_map,
      Function.comp_def, hname]
    rfl

theorem eligibility_valid (facts : Core.ReceiptFacts) :
    (eligibility (Core.deriveReceiptEligibility facts)).Valid := by
  unfold Verify.WireEligibility.Valid Core.deriveReceiptEligibility
  split
  · simp [eligibility]
  next h => simpa [eligibility] using h

/-- The entry in texts. -/
def tcbEntry (entry : Core.TrustedComputingBaseEntry) : Verify.WireTcbEntry :=
  ⟨entry.role.asStr, entry.identity⟩

/-- The facts of a receipt with the given resources and limits. -/
def facts (receipt : Core.ExecutionReceipt) (hvalid : receipt.Valid)
    (r : Core.ReceiptResources) (limits : Core.ResourceLimits) (memory : Core.MemoryByteLimit)
    (swap : Core.SwapByteLimit) : Verify.ReceiptFacts where
  productVersion := Core.cargoPkgVersion
  executionId := receipt.parts.executionId.bytes
  plan := plan receipt.parts.plan limits memory swap
  policy := artifact receipt.parts.policy.identity.toArtifactIdentity
  platform := platform receipt.parts.platform
  runtime :=
    ⟨artifact receipt.parts.runtime.runtime.toArtifactIdentity,
      artifact receipt.parts.runtime.launcher.toArtifactIdentity⟩
  command := command receipt.parts.command
  inputs := receipt.parts.inputs.map artifact
  environment := receipt.environment.values
  outputRoot := artifact receipt.parts.outputRoot
  boundary := boundary receipt.parts.boundary
  observations := ⟨receipt.parts.observations.startedNs, receipt.parts.observations.finishedNs⟩
  streams := streams receipt.parts.streams
  outcome := outcome receipt.parts.outcome
  outputs := receipt.parts.outputs.map artifact
  eligibility := eligibility receipt.eligibility
  producer := artifact receipt.parts.producer
  assumptions := receipt.assumptions.values
  trustedComputingBase :=
    { entries := receipt.parts.trustedComputingBase.map tcbEntry
      entries_ne := by simpa using hvalid.tcb_ne }
  resources := resources r
  eligibility_valid := by
    obtain ⟨producerFacts, -, heligibility⟩ := hvalid.eligibility
    rw [heligibility]
    exact eligibility_valid producerFacts

/-- The producer encodes the facts as the verifier decodes them. -/
theorem encode_facts {receipt : Core.ExecutionReceipt} (hvalid : receipt.Valid)
    {r : Core.ReceiptResources} {limits : Core.ResourceLimits} {memory : Core.MemoryByteLimit}
    {swap : Core.SwapByteLimit} (hresources : receipt.parts.resources = some r)
    (hlimits : receipt.parts.plan.normalizedLimits = some limits)
    (hmemory : limits.memory = some memory) (hswap : limits.swap = some swap) :
    ∃ fields, Core.canonicalV2Fields receipt = .ok fields ∧
      (facts receipt hvalid r limits memory swap).encode = .map fields := by
  have htcb : (receipt.parts.trustedComputingBase.map tcbEntry).map Verify.WireTcbEntry.encode =
      receipt.parts.trustedComputingBase.map Core.cborTcbEntry := by
    rw [List.map_map]
    rfl
  refine ⟨_, ?_, rfl⟩
  simp only [Core.canonicalV2Fields, hresources, okOr_some, ok_bind,
    encode_plan hlimits hmemory hswap, facts, encode_artifacts, encode_streams, encode_command,
    encode_outcome, encode_boundary, encode_artifact, encode_platform, encode_resources,
    encode_eligibility, Verify.TcbFacts.encode, htcb, Verify.encodePolicy,
    Verify.RuntimeFacts.encode]
  rfl

end ProofboundRuntime.Agreement
