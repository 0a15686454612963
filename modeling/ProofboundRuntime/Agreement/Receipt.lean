import ProofboundRuntime.Agreement.Facts
import ProofboundRuntime.Verify.Soundness
import ProofboundRuntime.Verify.Texts

/-!
# Producer and verifier agree on receipts

A receipt that the producer constructs and encodes is accepted by the
verifier, up to one thing the producer does not check: that the resources it
recorded are those of the plan.

* `wellFormed_facts` and `consistent_facts`: a constructed receipt passes the
  verifier's checks of form and of relations;
* `deriveEligibility_facts`: both derive the same eligibility;
* `verifyReceipt_canonicalBytes`: when the verifier accepts the bytes of a
  receipt, and what it reports.
-/

namespace ProofboundRuntime.Agreement

open Cbor Result Sorting

/-! ## Form -/

theorem requireArtifact_artifact {r : Core.ArtifactRole} (a : Core.ArtifactOf r) :
    Verify.requireArtifact (artifact a.toArtifactIdentity).wire (role r) = .ok () := by
  rw [Verify.requireArtifact_wire]
  show role a.role = role r
  rw [a.role_eq]

theorem artifactOrder_artifact (a b : Core.ArtifactIdentity) :
    Verify.artifactOrder (artifact a).wire (artifact b).wire = a.cmp b := by
  rw [Verify.artifactOrder_wire]
  simp only [artifact, compare_role]
  rfl

theorem strict_artifacts {identities : List Core.ArtifactIdentity}
    (h : Strict Core.ArtifactIdentity.cmp identities) :
    ((identities.map artifact).map Verify.ArtifactFacts.wire).Pairwise
      Verify.WireArtifact.Before := by
  rw [← Verify.strict_artifactOrder_iff (by simp), List.map_map]
  exact h.map artifactOrder_artifact

def tcbRole : Core.TrustedComputingBaseRole → Verify.TcbRole
  | .hostHardwareFirmware => .hostHardwareFirmware
  | .linuxKernel => .linuxKernel
  | .landlock => .landlock
  | .seccomp => .seccomp
  | .cgroupV2 => .cgroupV2
  | .noNewPrivileges => .noNewPrivileges
  | .filesystem => .filesystem
  | .runtimeBinary => .runtimeBinary
  | .launcherBinary => .launcherBinary
  | .rustToolchain => .rustToolchain
  | .cryptographicDigest => .cryptographicDigest
  | .runtimeExecutable => .runtimeExecutable
  | .runtimeLoaderExecutable => .runtimeLoaderExecutable
  | .runtimeLibrary => .runtimeLibrary

@[simp] theorem asStr_tcbRole (r : Core.TrustedComputingBaseRole) :
    (tcbRole r).asStr = r.asStr := by
  cases r <;> rfl

theorem compare_tcbRole (r r' : Core.TrustedComputingBaseRole) :
    compare (tcbRole r) (tcbRole r') = compare r r' := by
  have hindex : ∀ r, (tcbRole r).ctorIdx = r.ctorIdx := by
    intro r
    cases r <;> rfl
  show compare (tcbRole r).ctorIdx (tcbRole r').ctorIdx = compare r.ctorIdx r'.ctorIdx
  rw [hindex, hindex]

/-- An entry as the verifier parses it. -/
def parsedEntry (entry : Core.TrustedComputingBaseEntry) : Verify.TcbRole × String :=
  (tcbRole entry.role, entry.identity)

theorem tcbCmp_parsedEntry (a b : Core.TrustedComputingBaseEntry) :
    Verify.tcbCmp (parsedEntry a) (parsedEntry b) = a.cmp b := by
  show (compare (tcbRole a.role) (tcbRole b.role)).then _ = _
  rw [compare_tcbRole]
  rfl

section

variable {receipt : Core.ExecutionReceipt} (hvalid : receipt.Valid) (r : Core.ReceiptResources)
  (limits : Core.ResourceLimits) (memory : Core.MemoryByteLimit) (swap : Core.SwapByteLimit)

/-- Every artifact is valid, so a list is checked for its roles only. -/
theorem forall_artifacts {identities : List Core.ArtifactIdentity}
    {allowed : Verify.WireArtifactRole → Bool}
    (h : ∀ identity ∈ identities, allowed (role identity.role) = true) :
    ∀ wire ∈ (identities.map artifact).map Verify.ArtifactFacts.wire,
      Verify.validateArtifact wire = .ok () ∧ allowed wire.role = true := by
  intro wire hwire
  obtain ⟨a, ha, rfl⟩ := List.mem_map.mp hwire
  obtain ⟨identity, hmem, rfl⟩ := List.mem_map.mp ha
  exact ⟨Verify.validateArtifact_wire _, h identity hmem⟩

theorem isInputRole_role (r : Core.ArtifactRole) :
    Verify.isInputRole (role r) = Core.isInputRole r := by
  cases r <;> rfl

theorem requiredTcbRoles_facts :
    Verify.requiredTcbRoles (facts receipt hvalid r limits memory swap).wire =
      (Core.requiredTcbRoles receipt.parts).map tcbRole := by
  have hlibrary : ∀ r : Core.ArtifactRole,
      (role r == Verify.WireArtifactRole.runtimeLibrary) = (r == .runtimeLibrary) := by
    intro r
    cases r <;> rfl
  have hinputs : ((receipt.parts.inputs.map artifact).map Verify.ArtifactFacts.wire).any
      (fun wire => wire.role == .runtimeLibrary) =
        receipt.parts.inputs.any fun identity => identity.role == .runtimeLibrary := by
    rw [List.map_map, List.any_map]
    congr 1
    funext identity
    exact hlibrary identity.role
  have hloader : ((receipt.parts.command.loader.map fun loader =>
      artifact loader.toArtifactIdentity).map Verify.ArtifactFacts.wire).isSome =
        receipt.parts.command.loader.isSome := by
    rw [Option.isSome_map, Option.isSome_map]
  have hroles : ∀ loader library : Bool,
      Verify.alwaysRequiredTcbRoles ++ (if loader then [.runtimeLoaderExecutable] else []) ++
        (if library then [.runtimeLibrary] else []) =
      (Core.alwaysRequired ++
        (if loader then [Core.TrustedComputingBaseRole.runtimeLoaderExecutable] else []) ++
        (if library then [Core.TrustedComputingBaseRole.runtimeLibrary] else [])).map tcbRole := by
    decide
  rw [Core.requiredTcbRoles, ← hroles, ← hloader, ← hinputs]
  rfl

theorem wellFormed_facts :
    Verify.WellFormed (facts receipt hvalid r limits memory swap).wire where
  productVersion := by
    show Verify.requireProductVersion Core.cargoPkgVersion = .ok ()
    decide +kernel
  executionId := by
    exact (Verify.requireExecutionId_uuidText _).mpr
      ⟨receipt.parts.executionId.version, receipt.parts.executionId.variant⟩
  planId := rejectIf_eq_ok.mpr receipt.parts.plan.id.valid
  platform := ⟨receipt.parts.platform.kernelRelease_ne, receipt.parts.platform.landlockAbi_ne⟩
  artifacts := by
    have hproducer : Verify.requireArtifact (artifact receipt.parts.producer).wire
        .runtimeBinary = .ok () := by
      rw [hvalid.producer]
      exact requireArtifact_artifact receipt.parts.runtime.runtime
    have houtputRoot : Verify.requireArtifact (artifact receipt.parts.outputRoot).wire
        .outputRoot = .ok () :=
      requireArtifact_artifact ⟨receipt.parts.outputRoot, hvalid.outputRoot⟩
    simp only [Verify.WireReceipt.roles, List.forall_mem_cons]
    exact ⟨requireArtifact_artifact receipt.parts.plan.source,
      requireArtifact_artifact receipt.parts.plan.normalized,
      requireArtifact_artifact receipt.parts.policy.identity,
      requireArtifact_artifact receipt.parts.runtime.runtime,
      requireArtifact_artifact receipt.parts.runtime.launcher,
      requireArtifact_artifact receipt.parts.command.executable,
      requireArtifact_artifact receipt.parts.command.workingDirectory, houtputRoot,
      requireArtifact_artifact receipt.parts.streams.stdout.artifact,
      requireArtifact_artifact receipt.parts.streams.stderr.artifact, hproducer, by simp⟩
  loader := by
    show Verify.requireLoader ((receipt.parts.command.loader.map _).map _) = .ok ()
    cases receipt.parts.command.loader with
    | none => rfl
    | some loader => exact requireArtifact_artifact loader
  argumentsSha256 := Verify.requireDigest_text _
  inputs := forall_artifacts fun identity hmem => by
    rw [isInputRole_role]
    exact hvalid.inputRoles identity hmem
  outputs := forall_artifacts fun identity hmem => by
    rw [hvalid.outputRoles identity hmem]
    rfl
  sets := by
    have hset : ∀ set : Core.StringSet,
        (∀ value ∈ set.values, value ≠ "") ∧ Strict Utf8.cmp set.values :=
      fun set => ⟨set.ne_empty, set.strict⟩
    simp only [List.forall_mem_cons]
    exact ⟨hset receipt.environment, hset receipt.parts.platform.seccompFeatures,
      hset receipt.parts.platform.cgroupControllers, hset receipt.assumptions, by simp⟩
  environment := by
    intro value hvalue
    obtain ⟨name, rfl⟩ := hvalid.environment value hvalue
    exact ⟨name.no_null, name.no_equals⟩
  boundaryPolicy := Verify.requireDigest_text _
  boundaryExecutionId := by
    exact (Verify.requireExecutionId_uuidText _).mpr
      ⟨receipt.parts.boundary.executionId.version, receipt.parts.boundary.executionId.variant⟩
  cgroup := ⟨_, _, Verify.parseDecimal_text _, Verify.parseDecimal_text _⟩
  observations := ⟨_, _, Verify.parseDecimal_text _, Verify.parseDecimal_text _,
    UInt64.le_iff_toNat_le.mp receipt.parts.observations.ordered⟩
  tcb := by
    refine ⟨by simpa [facts, Verify.ReceiptFacts.wire] using hvalid.tcb_ne,
      receipt.parts.trustedComputingBase.map parsedEntry, ⟨?_, ?_⟩, ?_⟩
    · show receipt.parts.trustedComputingBase.map tcbEntry = _
      rw [List.map_map]
      refine List.map_congr_left fun entry _ => ?_
      simp [parsedEntry, tcbEntry]
    · intro e he
      obtain ⟨entry, -, rfl⟩ := List.mem_map.mp he
      exact entry.identity_ne
    · exact hvalid.tcb.map tcbCmp_parsedEntry

theorem consistent_facts :
    Verify.Consistent (facts receipt hvalid r limits memory swap).wire where
  executionId := by
    show Verify.uuidText receipt.parts.boundary.executionId.bytes.toList = _
    rw [hvalid.executionId]
    rfl
  policy := by
    show Hex.text receipt.parts.boundary.policySha256.toList = _
    rw [hvalid.policy]
    rfl
  producer := by
    show (artifact receipt.parts.producer).wire = _
    rw [hvalid.producer]
    rfl
  assumptions := hvalid.assumptions
  tcbRoles := by
    intro required hrequired
    rw [requiredTcbRoles_facts] at hrequired
    obtain ⟨coreRole, hcoreRole, rfl⟩ := List.mem_map.mp hrequired
    obtain ⟨entry, hentry, rfl⟩ := hvalid.tcbRoles coreRole hcoreRole
    exact ⟨tcbEntry entry, List.mem_map_of_mem hentry, (asStr_tcbRole entry.role).symm⟩
  inputs := strict_artifacts hvalid.inputs
  outputs := strict_artifacts hvalid.outputs

/-! ## Resources -/

/-- Without observations the producer has the zeros that the verifier puts in
their place. -/
theorem wire_resources : (resources r).wire =
    { processes := r.processes.get
      memory := r.memory.get
      swap := r.swap.get
      memoryPeak := r.memoryPeakBytes
      swapPeak := r.swapPeakBytes
      memoryEvents := ⟨r.memoryEvents.low, r.memoryEvents.high, r.memoryEvents.max,
        r.memoryEvents.oom, r.memoryEvents.oomKill, r.memoryEvents.oomGroupKill⟩
      swapEvents := ⟨r.swapEvents.max, r.swapEvents.fail⟩
      limitEvents := limitEvents r.limitEvents
      observationsComplete := r.observationsComplete } := by
  simp only [Verify.ResourceFacts.wire, Verify.wireResources, resources, terminal]
  cases hobserved : r.observationsComplete with
  | true => rfl
  | false =>
    obtain ⟨hmemoryPeak, hswapPeak, hmemory, hswap⟩ := r.unobserved hobserved
    rw [hmemoryPeak, hswapPeak, hmemory, hswap]
    rfl

/-- The counter of an event. -/
def counter (memory : Core.ReceiptMemoryEvents) (swap : Core.ReceiptSwapEvents) :
    Core.LimitEvent → UInt64
  | .memoryHigh => memory.high
  | .memoryMax => memory.max
  | .memoryOom => memory.oom
  | .memoryOomKill => memory.oomKill
  | .memoryOomGroupKill => memory.oomGroupKill
  | .swapMax => swap.max
  | .swapFail => swap.fail

/-- An event is recorded exactly when it was counted. -/
theorem contains_limitEvents (event : Core.LimitEvent) :
    r.limitEvents.contains event = (counter r.memoryEvents r.swapEvents event != 0) := by
  rw [r.limitEvents_eq, Core.LimitEvents.contains_new, Bool.eq_iff_iff, List.contains_iff_mem,
    Core.countedEvents, List.mem_filterMap]
  cases event <;> simp [counter]

theorem eventsRecorded_resources : Verify.EventsRecorded (resources r).wire := by
  have hevents : limitEvents r.limitEvents = Verify.expectedEvents (resources r).wire := by
    simp only [wire_resources, limitEvents, contains_limitEvents, Verify.expectedEvents,
      Verify.WireResources.limitCounters, counter, List.zip_cons_cons, List.zip_nil_left,
      List.filterMap_cons, List.filterMap_nil, bne_iff_ne, ne_eq]
  rw [Verify.EventsRecorded, ← hevents, wire_resources]
  cases hobserved : r.observationsComplete with
  | true => rfl
  | false =>
    obtain ⟨-, -, hmemory, hswap⟩ := r.unobserved hobserved
    rw [r.limitEvents_eq, hmemory, hswap]
    rfl

/-! ## Eligibility -/

/-- The verifier's decision for an eligibility of the producer. -/
def decision : Core.ReceiptEligibility → Verify.EligibilityDecision
  | .reusable => .reusable
  | .nonReusable reasons => .nonReusable (reasons.map failureReason)

theorem outcomeFailures_wireOutcome (o : Core.ExecutionOutcome) :
    Verify.outcomeFailures (Verify.ReceiptFacts.outcomeState (wireOutcome o)) =
      (Core.appendOutcomeReason [] o).map failureReason := by
  cases o with
  | exited code =>
    have hzero : code.toInt = 0 ↔ code = 0 := by
      rw [← Int32.toInt_inj]
      rfl
    simp only [wireOutcome, Verify.ReceiptFacts.outcomeState, Verify.outcomeFailures,
      Core.appendOutcomeReason, hzero]
    split <;> rfl
  | _ => rfl

theorem captureFailures_capture (reason : Core.NonReusableReason) (c : Core.StreamCapture) :
    Verify.captureFailures (failureReason reason) (Verify.captureState (capture c)) =
      (Core.appendReason [] (c == .truncated) reason).map failureReason := by
  cases c <;> rfl

theorem limitFailures_resources :
    Verify.limitFailures ((resources r).wire.limitCounters.map (· != 0)) =
      (Core.appendLimitEventReasons [] r.limitEvents).map failureReason := by
  have hflags : (resources r).wire.limitCounters.map (· != 0) =
      [.memoryHigh, .memoryMax, .memoryOom, .memoryOomKill, .memoryOomGroupKill, .swapMax,
        .swapFail].map r.limitEvents.contains := by
    simp only [wire_resources, Verify.WireResources.limitCounters, List.map_cons, List.map_nil,
      contains_limitEvents, counter]
  rw [hflags]
  generalize r.limitEvents = events
  obtain ⟨high, max, oom, oomKill, oomGroupKill, swapMax, swapFail⟩ := events
  revert high max oom oomKill oomGroupKill swapMax swapFail
  decide

/-- Both sides find the same reasons, in the same order. -/
theorem failures_facts {producerFacts : Core.ReceiptFacts}
    (hfacts : Core.receiptFacts receipt.parts = .ok producerFacts)
    (hresources : receipt.parts.resources = some r) :
    Verify.failures (facts receipt hvalid r limits memory swap).eligibilityInput =
      (Core.reasons producerFacts).map failureReason := by
  have hboundary : Verify.boundaryFailures
      (Verify.boundaryState (boundaryState receipt.parts.boundary.state)) =
      (Core.appendReason [] (receipt.parts.boundary.state == .incomplete)
        .boundaryIncomplete).map failureReason := by
    cases receipt.parts.boundary.state <;> rfl
  have hstructure : Verify.structureFailures
      (if (terminal r).isSome then .valid else .malformed) =
      (Core.appendReason [] ((if r.observationsComplete then Core.ReceiptStructure.valid
        else .malformed) == .malformed) .receiptMalformed).map failureReason := by
    unfold terminal
    cases r.observationsComplete <;> rfl
  unfold Core.receiptFacts at hfacts
  rw [hresources] at hfacts
  cases hlimits : receipt.parts.plan.normalizedLimits with
  | none =>
    simp [hlimits] at hfacts
  | some planLimits =>
    rw [hlimits] at hfacts
    cases hfacts
    simp only [Core.reasons_eq, Core.ReceiptFacts.newV2, List.map_append, ← hboundary,
      ← outcomeFailures_wireOutcome, ← captureFailures_capture, ← hstructure,
      ← limitFailures_resources]
    rfl

theorem deriveEligibility_facts (hresources : receipt.parts.resources = some r) :
    Verify.deriveEligibility (facts receipt hvalid r limits memory swap).eligibilityInput =
      decision receipt.eligibility := by
  obtain ⟨producerFacts, hfacts, heligibility⟩ := hvalid.eligibility
  rw [heligibility, Verify.deriveEligibility, Core.deriveReceiptEligibility,
    failures_facts hvalid r limits memory swap hfacts hresources, List.isEmpty_map]
  split <;> rfl

theorem validateEligibility_facts (hresources : receipt.parts.resources = some r)
    (value : Json) :
    Verify.validateEligibility
      ((facts receipt hvalid r limits memory swap).decoded value) = .ok () := by
  rw [Verify.validateEligibility_eq_ok]
  show (facts receipt hvalid r limits memory swap).recordedEligibility =
    (Verify.deriveEligibility (facts receipt hvalid r limits memory swap).eligibilityInput).recorded
  rw [deriveEligibility_facts hvalid r limits memory swap hresources]
  simp only [Verify.ReceiptFacts.recordedEligibility, facts]
  cases receipt.eligibility with
  | reusable => rfl
  | nonReusable reasons =>
    simp only [eligibility, decision, Verify.EligibilityDecision.recorded, List.map_map]
    rfl

end

/-! ## Agreement -/

/-- A receipt with resources has the limits of a version 2 plan. -/
theorem exists_limits {receipt : Core.ExecutionReceipt} {r : Core.ReceiptResources}
    (hvalid : receipt.Valid) (hresources : receipt.parts.resources = some r) :
    ∃ limits memory swap, receipt.parts.plan.normalizedLimits = some limits ∧
      limits.memory = some memory ∧ limits.swap = some swap := by
  obtain ⟨producerFacts, hfacts, -⟩ := hvalid.eligibility
  unfold Core.receiptFacts at hfacts
  rw [hresources] at hfacts
  cases hlimits : receipt.parts.plan.normalizedLimits with
  | none =>
    simp [hlimits] at hfacts
  | some limits =>
    have hcomplete := receipt.parts.plan.limits_complete limits hlimits
    rw [Core.ResourceLimits.isVersionTwo, Bool.and_eq_true] at hcomplete
    obtain ⟨memory, hmemory⟩ := Option.isSome_iff_exists.mp hcomplete.1
    obtain ⟨swap, hswap⟩ := Option.isSome_iff_exists.mp hcomplete.2
    exact ⟨limits, memory, swap, rfl, hmemory, hswap⟩

/-- The recorded resources are those of the plan, and an observed peak above
its limit comes with an event. -/
structure MatchesPlan (r : Core.ReceiptResources) (limits : Core.ResourceLimits) : Prop where
  processes : r.processes = limits.processes
  memory : limits.memory = some r.memory
  swap : limits.swap = some r.swap
  memoryPeak : r.observationsComplete = true →
    r.memoryPeakBytes ≤ r.memory.get ∨ r.memoryEvents.max ≠ 0
  swapPeak : r.observationsComplete = true →
    r.swapPeakBytes ≤ r.swap.get ∨ r.swapEvents.max ≠ 0 ∨ r.swapEvents.fail ≠ 0

theorem resourcesAgree_iff {r : Core.ReceiptResources} {limits : Core.ResourceLimits}
    {memory : Core.MemoryByteLimit} {swap : Core.SwapByteLimit}
    (hmemory : limits.memory = some memory) (hswap : limits.swap = some swap) :
    Verify.ResourcesAgree (resources r).wire (planLimits limits memory swap) ↔
      MatchesPlan r limits := by
  rw [wire_resources]
  constructor
  · rintro ⟨hconfigured, hmemoryPeak, hswapPeak⟩
    simp only [planLimits, Prod.mk.injEq] at hconfigured hmemoryPeak hswapPeak
    obtain ⟨hprocesses, hsameMemory, hsameSwap⟩ := hconfigured
    rw [← hsameMemory] at hmemoryPeak
    rw [← hsameSwap] at hswapPeak
    exact
      { processes := Core.ProcessLimit.ext hprocesses
        memory := by rw [hmemory, Core.MemoryByteLimit.ext hsameMemory]
        swap := by rw [hswap, Core.SwapByteLimit.ext hsameSwap]
        memoryPeak := hmemoryPeak
        swapPeak := hswapPeak }
  · intro h
    obtain rfl : memory = r.memory := Option.some.inj (hmemory.symm.trans h.memory)
    obtain rfl : swap = r.swap := Option.some.inj (hswap.symm.trans h.swap)
    exact ⟨by rw [h.processes]; rfl, h.memoryPeak, h.swapPeak⟩

variable (canonicalV1Bytes : Core.ExecutionReceipt → Except Core.ReceiptError (List UInt8))
  (json : Verify.JsonPath) (sha256 : List UInt8 → Verify.Commitment)

/-- A receipt with version 2 resources that the producer constructs is encoded,
and the verifier accepts the bytes under their own commitment exactly when the
resources match the plan.  It then reports the eligibility that the producer
derived. -/
theorem verifyReceipt_canonicalBytes {parts : Core.ExecutionReceiptParts}
    {receipt : Core.ExecutionReceipt} {r : Core.ReceiptResources}
    {fields : List (String × Value)} (hnew : Core.ExecutionReceipt.new parts = .ok receipt)
    (hresources : parts.resources = some r)
    (hfields : Core.canonicalV2Fields receipt = .ok fields)
    (hlimits : Wire.WithinLimits (.map fields)) :
    ∃ b, receipt.canonicalBytes canonicalV1Bytes = .ok b ∧
      b = (Value.map fields).canon.serialize ∧
      ((∃ report, Verify.verifyReceipt json sha256 b (sha256 b) = .ok report) ↔
        ∃ limits, parts.plan.normalizedLimits = some limits ∧ MatchesPlan r limits) ∧
      ∀ report, Verify.verifyReceipt json sha256 b (sha256 b) = .ok report →
        report.eligibility = decision receipt.eligibility := by
  obtain ⟨hvalid, hsameResources, hsamePlan⟩ := Core.ExecutionReceipt.valid_of_new hnew
  rw [← hsameResources] at hresources
  obtain ⟨limits, memory, swap, hplan, hmemory, hswap⟩ := exists_limits hvalid hresources
  obtain ⟨fields', hfields', hencode⟩ := encode_facts hvalid hresources hplan hmemory hswap
  obtain rfl : fields' = fields := Except.ok.inj (hfields'.symm.trans hfields)
  have hclean := (facts receipt hvalid r limits memory swap).clean
  obtain ⟨value, hvalue⟩ := hclean.projectable []
  have hdecode := Verify.decodeV2Receipt_encode (facts receipt hvalid r limits memory swap)
    (Wire.withinLimits_canon.mpr (hencode ▸ hlimits)) hvalue
  have hbytes := Core.canonicalV2Bytes_eq_ok hfields (hencode ▸ hclean.noDup) hlimits
  rw [hencode] at hdecode
  have hvalidate : Verify.validateReceipt
      ((facts receipt hvalid r limits memory swap).decoded value) = .ok () ↔
        MatchesPlan r limits := by
    rw [Verify.validateReceipt_eq_ok rfl rfl rfl, ← resourcesAgree_iff hmemory hswap]
    constructor
    · intro h
      exact h.2.2.1
    · intro h
      exact ⟨wellFormed_facts hvalid r limits memory swap,
        consistent_facts hvalid r limits memory swap, h, eventsRecorded_resources r,
        validateEligibility_facts hvalid r limits memory swap hresources value⟩
  refine ⟨_, ?_, rfl, ?_, ?_⟩
  · rwa [Core.ExecutionReceipt.canonicalBytes, hresources]
  · simp only [Verify.verifyReceipt_eq_ok json sha256 hdecode, hvalidate, ← hsamePlan, hplan,
      Option.some.injEq, true_and, exists_and_left, exists_eq, and_true, exists_eq_left']
  · intro report hreport
    obtain ⟨-, -, rfl⟩ := (Verify.verifyReceipt_eq_ok json sha256 hdecode).mp hreport
    exact deriveEligibility_facts hvalid r limits memory swap hresources

/-! ## A receipt -/

def sampleArtifact (role : Core.ArtifactRole) : Core.ArtifactOf role :=
  ⟨⟨role, Vector.replicate 32 0, 0, ⟨0o644, Verify.sampleMode_le⟩⟩, rfl⟩

def sampleExecutionId : Core.ExecutionId :=
  ⟨Verify.sampleExecutionId, by decide, by decide⟩

def sampleProcesses : Core.ProcessLimit := ⟨1, Verify.sampleReceipt.plan.processes_ne⟩

def sampleMemory : Core.MemoryByteLimit :=
  ⟨Core.MemoryByteLimit.minimum, by decide, by decide, by decide⟩

def sampleSwap : Core.SwapByteLimit := ⟨0, UInt64.zero_le, UInt64.zero_mod⟩

def sampleLimits : Core.ResourceLimits where
  processes := sampleProcesses
  wallTime := ⟨1, by decide⟩
  stdout := ⟨0⟩
  stderr := ⟨0⟩
  memory := some sampleMemory
  swap := some sampleSwap

def sampleResources : Core.ReceiptResources where
  processes := sampleProcesses
  memory := sampleMemory
  swap := sampleSwap
  memoryOomGroup := 1
  memoryPeakBytes := 0
  swapPeakBytes := 0
  memoryEvents := ⟨0, 0, 0, 0, 0, 0⟩
  swapEvents := ⟨0, 0⟩
  limitEvents := .empty
  observationsComplete := true
  memoryOomGroup_eq := rfl
  limitEvents_eq := by decide
  unobserved := by simp

def emptySet : Core.StringSet := ⟨[], by simp, by simp [Sorting.Strict]⟩

/-- The parts of the receipt whose facts are `Verify.sampleReceipt`. -/
def sampleParts : Core.ExecutionReceiptParts where
  executionId := sampleExecutionId
  plan :=
    { id := ⟨"plan", by decide⟩
      source := sampleArtifact .executionPlan
      normalized := sampleArtifact .normalizedPlan
      normalizedLimits := some sampleLimits
      limits_complete := by simp [sampleLimits, Core.ResourceLimits.isVersionTwo] }
  policy := ⟨sampleArtifact .compiledPolicy⟩
  platform :=
    { architecture := .x86_64
      kernelRelease := "6"
      landlockAbi := 1
      seccompFeatures := emptySet
      cgroupControllers := emptySet
      kernelRelease_ne := by decide
      landlockAbi_ne := sampleProcesses.ne_zero }
  runtime := ⟨sampleArtifact .runtimeBinary, sampleArtifact .launcherBinary⟩
  command :=
    { executable := sampleArtifact .runtimeExecutable
      loader := none
      workingDirectory := sampleArtifact .workingDirectory
      argumentsSha256 := Vector.replicate 32 0 }
  inputs := [(sampleArtifact .projectInput).toArtifactIdentity]
  environment := []
  outputRoot := (sampleArtifact .outputRoot).toArtifactIdentity
  boundary := ⟨.installed, sampleExecutionId, Vector.replicate 32 0, ⟨0, 0⟩⟩
  observations := ⟨0, 0, by decide⟩
  streams := ⟨⟨sampleArtifact .standardOutput, .complete⟩, ⟨sampleArtifact .standardError, .complete⟩⟩
  outcome := .exited 0
  resources := some sampleResources
  outputs := []
  producer := (sampleArtifact .runtimeBinary).toArtifactIdentity
  assumptions := Core.requiredRuntimeAssumptions
  trustedComputingBase :=
    [⟨.hostHardwareFirmware, "h", by decide⟩, ⟨.linuxKernel, "k", by decide⟩,
      ⟨.landlock, "l", by decide⟩, ⟨.seccomp, "s", by decide⟩, ⟨.cgroupV2, "c", by decide⟩,
      ⟨.noNewPrivileges, "n", by decide⟩, ⟨.filesystem, "f", by decide⟩,
      ⟨.runtimeBinary, "r", by decide⟩, ⟨.launcherBinary, "l", by decide⟩,
      ⟨.rustToolchain, "t", by decide⟩, ⟨.cryptographicDigest, "d", by decide⟩,
      ⟨.runtimeExecutable, "e", by decide⟩]

theorem new_sampleParts : ∃ receipt fields,
    Core.ExecutionReceipt.new sampleParts = .ok receipt ∧
      Core.canonicalV2Fields receipt = .ok fields ∧
      Value.map fields = Verify.sampleReceipt.encode ∧ receipt.eligibility = .reusable := by
  exact ⟨_, _, rfl, rfl, rfl, rfl⟩

theorem verifyReceipt_canonicalBytes_sample :
    ∃ receipt report, Core.ExecutionReceipt.new sampleParts = .ok receipt ∧
      receipt.canonicalBytes (fun _ => .error .canonicalEncoding) =
        .ok Verify.sampleReceipt.encode.canon.serialize ∧
      Verify.verifyReceipt ⟨fun _ => .ok (), fun _ => .error .bytesMismatch⟩
        (fun _ => Verify.sampleCommitment) Verify.sampleReceipt.encode.canon.serialize
        Verify.sampleCommitment = .ok report ∧
      report.eligibility = .reusable := by
  obtain ⟨receipt, fields, hnew, hfields, hencode, heligibility⟩ := new_sampleParts
  have hlimits : Wire.WithinLimits (.map fields) := by
    rw [hencode]
    exact Wire.withinLimits_canon.mp Verify.sampleReceipt_withinLimits
  obtain ⟨b, hbytes, hb, haccept, hreport⟩ :=
    verifyReceipt_canonicalBytes (fun _ => .error .canonicalEncoding)
      ⟨fun _ => .ok (), fun _ => .error .bytesMismatch⟩ (fun _ => Verify.sampleCommitment)
      hnew rfl hfields hlimits
  obtain rfl : b = Verify.sampleReceipt.encode.canon.serialize := by rw [hb, hencode]
  have hmatches : MatchesPlan sampleResources sampleLimits :=
    ⟨rfl, rfl, rfl, fun _ => Or.inl (by decide), fun _ => Or.inl (by decide)⟩
  obtain ⟨report, hverify⟩ := haccept.mpr ⟨sampleLimits, rfl, hmatches⟩
  refine ⟨receipt, report, hnew, hbytes, hverify, ?_⟩
  rw [hreport report hverify, heligibility]
  rfl

end ProofboundRuntime.Agreement
