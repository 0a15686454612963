import ProofboundRuntime.Verify.Checks
import ProofboundRuntime.Verify.Receipt
import ProofboundRuntime.Verify.ReceiptGrammar

/-!
# What an accepted receipt says

The validation of a receipt comes down to four groups of facts: the receipt is
well formed, its fields are consistent with each other, the resources agree
with the plan, and the recorded events and eligibility are the derived ones.

* `validateReceipt_eq_ok`: the validation passes exactly when these hold;
* `verifyReceipt_eq_ok`: when the whole verifier accepts a version 2 receipt;
* `verifyReceipt_reusable_iff`: when it reports the receipt as reusable.
-/

namespace ProofboundRuntime.Verify

open Cbor Result Sorting Wire

/-! ## The facts behind the validation -/

/-- The artifacts that must have one role, with the role. -/
def WireReceipt.roles (wire : WireReceipt) : List (WireArtifact × WireArtifactRole) :=
  [(wire.plan.source, .executionPlan), (wire.plan.normalized, .normalizedPlan),
    (wire.policy.identity, .compiledPolicy), (wire.runtime.runtime, .runtimeBinary),
    (wire.runtime.launcher, .launcherBinary), (wire.command.executable, .runtimeExecutable),
    (wire.command.workingDirectory, .workingDirectory), (wire.outputRoot, .outputRoot),
    (wire.streams.stdout.artifact, .standardOutput),
    (wire.streams.stderr.artifact, .standardError), (wire.producer, .runtimeBinary)]

/-- Every text has its grammar, every artifact its role, every set its order,
and the execution ended after it started. -/
structure WellFormed (wire : WireReceipt) : Prop where
  productVersion : requireProductVersion wire.productVersion = .ok ()
  executionId : requireExecutionId wire.executionId = .ok ()
  planId : requirePlanId wire.plan.id = .ok ()
  platform : wire.platform.kernelRelease ≠ "" ∧ wire.platform.landlockAbi ≠ 0
  artifacts : ∀ field ∈ wire.roles, requireArtifact field.1 field.2 = .ok ()
  loader : requireLoader wire.command.loader = .ok ()
  argumentsSha256 : requireDigest wire.command.argumentsSha256 = .ok ()
  inputs : ∀ artifact ∈ wire.inputs,
    validateArtifact artifact = .ok () ∧ isInputRole artifact.role = true
  outputs : ∀ artifact ∈ wire.outputs,
    validateArtifact artifact = .ok () ∧ isOutputRole artifact.role = true
  sets : ∀ set ∈ [wire.environment, wire.platform.seccompFeatures,
      wire.platform.cgroupControllers, wire.assumptions],
    (∀ value ∈ set, value ≠ "") ∧ Strict Utf8.cmp set
  environment : ∀ name ∈ wire.environment, 0 ∉ Utf8.bytes name ∧ 0x3d ∉ Utf8.bytes name
  boundaryPolicy : requireDigest wire.boundary.policySha256 = .ok ()
  boundaryExecutionId : requireExecutionId wire.boundary.executionId = .ok ()
  cgroup : ∃ mountId inode, parseDecimal wire.boundary.cgroup.mountId = .ok mountId ∧
    parseDecimal wire.boundary.cgroup.inode = .ok inode
  observations : ∃ started finished, parseDecimal wire.observations.startedNs = .ok started ∧
    parseDecimal wire.observations.finishedNs = .ok finished ∧ started ≤ finished
  tcb : wire.trustedComputingBase ≠ [] ∧ ∃ parsed : List (TcbRole × String),
    (wire.trustedComputingBase = parsed.map (fun e => ⟨e.1.asStr, e.2⟩) ∧
      ∀ e ∈ parsed, e.2 ≠ "") ∧ Strict tcbCmp parsed

/-- The identities of the boundary and the producer are the receipt's own, the
required assumptions and roles are there, and the lists of artifacts are
strictly increasing. -/
structure Consistent (wire : WireReceipt) : Prop where
  executionId : wire.boundary.executionId = wire.executionId
  policy : wire.boundary.policySha256 = wire.policy.identity.sha256
  producer : wire.producer = wire.runtime.runtime
  assumptions : ∀ required ∈ requiredAssumptions, required ∈ wire.assumptions
  tcbRoles : ∀ role ∈ requiredTcbRoles wire,
    ∃ entry ∈ wire.trustedComputingBase, entry.role = role.asStr
  inputs : wire.inputs.Pairwise WireArtifact.Before
  outputs : wire.outputs.Pairwise WireArtifact.Before

/-- The configured limits are the limits of the plan, and an observed peak
above its limit comes with an event. -/
structure ResourcesAgree (resources : WireResources) (limits : WirePlanLimits) : Prop where
  configured : (resources.processes, resources.memory, resources.swap) =
    (limits.processes, limits.memory, limits.swap)
  memoryPeak : resources.observationsComplete = true →
    resources.memoryPeak ≤ limits.memory ∨ resources.memoryEvents.max ≠ 0
  swapPeak : resources.observationsComplete = true →
    resources.swapPeak ≤ limits.swap ∨ resources.swapEvents.max ≠ 0 ∨
      resources.swapEvents.fail ≠ 0

/-- The recorded events are those of the counters. -/
def EventsRecorded (resources : WireResources) : Prop :=
  resources.limitEvents = if resources.observationsComplete then expectedEvents resources else []

/-! ## The validation -/

variable {wire : WireReceipt}

theorem validateIdentities_eq_ok :
    validateIdentities wire = .ok () ↔
      requireProductVersion wire.productVersion = .ok () ∧
        requireExecutionId wire.executionId = .ok () ∧ requirePlanId wire.plan.id = .ok () ∧
        (wire.platform.kernelRelease ≠ "" ∧ wire.platform.landlockAbi ≠ 0) ∧
        (∀ field ∈ wire.roles, requireArtifact field.1 field.2 = .ok ()) ∧
        requireLoader wire.command.loader = .ok () ∧
        requireDigest wire.command.argumentsSha256 = .ok () := by
  simp only [validateIdentities, check_bind_eq_ok, rejectIf_eq_ok, not_or, WireReceipt.roles,
    List.forall_mem_cons, forall_mem_nil, and_true, ne_eq]
  tauto

theorem validateLists_eq_ok :
    validateLists wire = .ok () ↔
      (∀ artifact ∈ wire.inputs,
          validateArtifact artifact = .ok () ∧ isInputRole artifact.role = true) ∧
        wire.inputs.Pairwise WireArtifact.Before ∧
        (∀ artifact ∈ wire.outputs,
          validateArtifact artifact = .ok () ∧ isOutputRole artifact.role = true) ∧
        wire.outputs.Pairwise WireArtifact.Before ∧
        (∀ set ∈ [wire.environment, wire.platform.seccompFeatures,
            wire.platform.cgroupControllers, wire.assumptions],
          (∀ value ∈ set, value ≠ "") ∧ Strict Utf8.cmp set) ∧
        ∀ name ∈ wire.environment, 0 ∉ Utf8.bytes name ∧ 0x3d ∉ Utf8.bytes name := by
  have hname : ∀ name, ((Utf8.bytes name).contains 0 || (Utf8.bytes name).contains 0x3d) = false ↔
      0 ∉ Utf8.bytes name ∧ 0x3d ∉ Utf8.bytes name := by
    simp
  simp only [validateLists, check_bind_eq_ok, validateArtifactList_eq_ok, validateStringSet_eq_ok,
    rejectIf_eq_ok, Bool.not_eq_true, List.any_eq_false, hname, List.forall_mem_cons,
    forall_mem_nil, and_true]
  tauto

theorem validateRelations_eq_ok (hstrict : Strict Utf8.cmp wire.assumptions) :
    validateRelations wire = .ok () ↔
      requireDigest wire.boundary.policySha256 = .ok () ∧
        requireExecutionId wire.boundary.executionId = .ok () ∧
        (∃ mountId inode, parseDecimal wire.boundary.cgroup.mountId = .ok mountId ∧
          parseDecimal wire.boundary.cgroup.inode = .ok inode) ∧
        (∃ started finished, parseDecimal wire.observations.startedNs = .ok started ∧
          parseDecimal wire.observations.finishedNs = .ok finished ∧ started ≤ finished) ∧
        wire.boundary.executionId = wire.executionId ∧
        wire.boundary.policySha256 = wire.policy.identity.sha256 ∧
        wire.producer = wire.runtime.runtime ∧
        ∀ required ∈ requiredAssumptions, required ∈ wire.assumptions := by
  rw [validateRelations, check_bind_eq_ok, check_bind_eq_ok]
  simp only [bind_eq_ok, rejectIf_eq_ok, exists_const, Nat.not_lt, ne_eq, not_not,
    requireAssumptions_eq_ok hstrict]
  constructor
  · rintro ⟨hdigest, hexecution, mountId, hmountId, inode, hinode, started, hstarted, finished,
      hfinished, horder, hrest⟩
    exact ⟨hdigest, hexecution, ⟨mountId, inode, hmountId, hinode⟩,
      ⟨started, finished, hstarted, hfinished, horder⟩, hrest⟩
  · rintro ⟨hdigest, hexecution, ⟨mountId, inode, hmountId, hinode⟩,
      ⟨started, finished, hstarted, hfinished, horder⟩, hrest⟩
    exact ⟨hdigest, hexecution, mountId, hmountId, inode, hinode, started, hstarted, finished,
      hfinished, horder, hrest⟩

variable {resources : WireResources} {d : DecodedReceipt} {limits : WirePlanLimits}

theorem validateResources_eq_ok (hversion : d.versionTwo = true)
    (hresources : d.resources = some resources) (hlimits : d.planLimits = some limits) :
    validateResources d = .ok () ↔ ResourcesAgree resources limits ∧ EventsRecorded resources := by
  unfold validateResources EventsRecorded
  rw [hresources, hlimits]
  simp only [hversion, Bool.true_eq_false, check_bind_eq_ok, rejectIf_eq_ok, okOr_some, ok_bind,
    not_false_eq_true, true_and, ne_eq, not_not]
  cases hobserved : resources.observationsComplete with
  | false =>
    simp only [if_true, rejectIf_eq_ok, not_not, Bool.false_eq_true, if_false]
    constructor
    · intro h
      exact ⟨⟨h.1, by simp [hobserved], by simp [hobserved]⟩, h.2⟩
    · intro h
      exact ⟨h.1.configured, h.2⟩
  | true =>
    simp only [Bool.true_eq_false, if_false, if_true, check_bind_eq_ok, rejectIf_eq_ok, not_or,
      not_and_or, not_not, UInt64.not_lt]
    constructor
    · intro h
      exact ⟨⟨h.1, fun _ => h.2.1.1, fun _ => h.2.1.2⟩, h.2.2⟩
    · intro h
      exact ⟨h.1.configured, ⟨h.1.memoryPeak hobserved, h.1.swapPeak hobserved⟩, h.2⟩

/-- The validation passes exactly when the receipt is well formed and
consistent, the resources agree with the plan, and what is recorded is what is
derived. -/
theorem validateReceipt_eq_ok (hversion : d.versionTwo = true)
    (hresources : d.resources = some resources) (hlimits : d.planLimits = some limits) :
    validateReceipt d = .ok () ↔ WellFormed d.wire ∧ Consistent d.wire ∧
      ResourcesAgree resources limits ∧ EventsRecorded resources ∧
      validateEligibility d = .ok () := by
  have htcb : ∀ parsed : List (TcbRole × String),
      d.wire.trustedComputingBase = parsed.map (fun e => ⟨e.1.asStr, e.2⟩) →
      ∀ role, (∃ e ∈ parsed, e.1 = role) ↔
        ∃ entry ∈ d.wire.trustedComputingBase, entry.role = role.asStr := by
    intro parsed hparsed role
    rw [hparsed]
    simp only [List.mem_map, exists_exists_and_eq_and]
    constructor
    · rintro ⟨e, he, rfl⟩
      exact ⟨e, he, rfl⟩
    · rintro ⟨e, he, hname⟩
      exact ⟨e, he, TcbRole.asStr_injective hname⟩
  simp only [validateReceipt, check_bind_eq_ok, validateIdentities_eq_ok, validateLists_eq_ok,
    validateTcb_eq_ok, validateResources_eq_ok hversion hresources hlimits]
  constructor
  · rintro ⟨⟨hproduct, hexecution, hplan, hplatform, hartifacts, hloader, harguments⟩,
      ⟨hinputs, hinputsOrder, houtputs, houtputsOrder, hsets, henvironment⟩, hrelations,
      ⟨hne, parsed, hparsed, hparsedOrder, hroles⟩, ⟨hagree, hevents⟩, heligibility⟩
    rw [validateRelations_eq_ok (hsets _ (by simp)).2] at hrelations
    obtain ⟨hpolicyDigest, hboundaryId, hcgroup, hobservations, hsameId, hsamePolicy, hproducer,
      hassumptions⟩ := hrelations
    refine ⟨⟨hproduct, hexecution, hplan, hplatform, hartifacts, hloader, harguments, hinputs,
      houtputs, hsets, henvironment, hpolicyDigest, hboundaryId, hcgroup, hobservations, hne,
      parsed, hparsed, hparsedOrder⟩, ⟨hsameId, hsamePolicy, hproducer, hassumptions, ?_,
      hinputsOrder, houtputsOrder⟩, hagree, hevents, heligibility⟩
    intro role hrole
    exact (htcb parsed hparsed.1 role).mp (hroles role hrole)
  · rintro ⟨hformed, hconsistent, hagree, hevents, heligibility⟩
    obtain ⟨hne, parsed, hparsed, hparsedOrder⟩ := hformed.tcb
    refine ⟨⟨hformed.productVersion, hformed.executionId, hformed.planId, hformed.platform,
      hformed.artifacts, hformed.loader, hformed.argumentsSha256⟩,
      ⟨hformed.inputs, hconsistent.inputs, hformed.outputs, hconsistent.outputs, hformed.sets,
      hformed.environment⟩, ?_, ⟨hne, parsed, hparsed, hparsedOrder, ?_⟩, ⟨hagree, hevents⟩,
      heligibility⟩
    · rw [validateRelations_eq_ok (hformed.sets _ (by simp)).2]
      exact ⟨hformed.boundaryPolicy, hformed.boundaryExecutionId, hformed.cgroup,
        hformed.observations, hconsistent.executionId, hconsistent.policy, hconsistent.producer,
        hconsistent.assumptions⟩
    · intro role hrole
      exact (htcb parsed hparsed.1 role).mpr (hconsistent.tcbRoles role hrole)

/-! ## The verifier -/

/-- A version 2 receipt does not start with a brace. -/
theorem isJson_of_decodeV2Receipt {b : List UInt8} (h : decodeV2Receipt b = .ok d) :
    isJson b = false := by
  obtain ⟨r, rfl, -⟩ := decodeV2Receipt_eq_ok.mp h
  have hhead : lengthHead 5 21 = [0xb5] := by decide
  unfold ReceiptFacts.encode isJson
  rw [canon_map, Value.serialize, length_sorted]
  simp only [List.length_cons, List.length_nil, Nat.reduceAdd, hhead]
  rfl

variable (json : JsonPath) (sha256 : List UInt8 → Commitment)

/-- When the verifier accepts a version 2 receipt, and what it reports. -/
theorem verifyReceipt_eq_ok {b : List UInt8} {c : Commitment} {report : VerificationReport}
    (h : decodeV2Receipt b = .ok d) :
    verifyReceipt json sha256 b c = .ok report ↔
      c = sha256 b ∧ validateReceipt d = .ok () ∧
        report = ⟨c, deriveEligibility d.eligibilityInput⟩ := by
  have hversion : d.versionTwo = true := by
    obtain ⟨r, -, -, value, -, rfl⟩ := decodeV2Receipt_eq_ok.mp h
    rfl
  have hjson := isJson_of_decodeV2Receipt h
  have hcanonical : validateCanonicalReceipt json b = .ok d := by
    simp [validateCanonicalReceipt, hjson, h, hversion]
  have hdiagnostic : rejectDiagnosticProfile json b = .ok () := by
    simp [rejectDiagnosticProfile, hjson]
  have hcommitment : verifyCommitment sha256 c b = .ok () ↔ c = sha256 b := by
    rw [verifyCommitment, rejectIf_eq_ok, ne_eq, not_not, eq_comm]
  rw [verifyReceipt, hdiagnostic, hcanonical, ok_bind]
  show (do
    (verifyCommitment sha256 c b).mapError VerifyError.commitment
    (validateReceipt d).mapError VerifyError.validation
    pure _) = _ ↔ _
  rw [check_bind_eq_ok, check_bind_eq_ok, mapError_eq_ok, mapError_eq_ok, hcommitment, pure_eq_ok,
    eq_comm (a := report)]

/-! ## Reuse -/

/-- The structural checks: the receipt is well formed, and the events and the
eligibility it records are the derived ones. -/
structure StructuralChecks (d : DecodedReceipt) : Prop where
  wellFormed : WellFormed d.wire
  events : ∀ resources, d.resources = some resources → EventsRecorded resources
  eligibility : validateEligibility d = .ok ()

/-- The terminal observations are there and counted no limit event, the
configured limits are the plan's, and the peaks are within them. -/
structure WithinPlan (resources : WireResources) (limits : WirePlanLimits) : Prop where
  observed : resources.observationsComplete = true
  counters : ∀ counter ∈ resources.limitCounters, counter = 0
  configured : (resources.processes, resources.memory, resources.swap) =
    (limits.processes, limits.memory, limits.swap)
  memoryPeak : resources.memoryPeak ≤ limits.memory
  swapPeak : resources.swapPeak ≤ limits.swap

/-- The conditions under which the receipt `d` of the bytes `b` is reusable. -/
structure ReuseConditions (c : Commitment) (b : List UInt8) (d : DecodedReceipt) : Prop where
  commitment : c = sha256 b
  installed : d.wire.boundary.state = .installed
  consistent : Consistent d.wire
  outcome : d.wire.outcome = .exited 0
  stdout : d.wire.streams.stdout.capture = .complete
  stderr : d.wire.streams.stderr.capture = .complete
  resources : ∃ resources limits, d.resources = some resources ∧ d.planLimits = some limits ∧
    WithinPlan resources limits

/-- Without limit events the peaks have no excuse. -/
theorem withinPlan_iff :
    WithinPlan resources limits ↔ ResourcesAgree resources limits ∧
      resources.observationsComplete = true ∧ ∀ counter ∈ resources.limitCounters, counter = 0 := by
  constructor
  · intro h
    exact ⟨⟨h.configured, fun _ => .inl h.memoryPeak, fun _ => .inl h.swapPeak⟩, h.observed,
      h.counters⟩
  · rintro ⟨hagree, hobserved, hcounters⟩
    have hzero : resources.memoryEvents.max = 0 ∧ resources.swapEvents.max = 0 ∧
        resources.swapEvents.fail = 0 := by
      simp only [WireResources.limitCounters, List.forall_mem_cons] at hcounters
      obtain ⟨-, hmax, -, -, -, hswapMax, hswapFail, -⟩ := hcounters
      exact ⟨hmax, hswapMax, hswapFail⟩
    have hmemory := hagree.memoryPeak hobserved
    have hswap := hagree.swapPeak hobserved
    simp only [hzero, ne_eq, not_true_eq_false, or_false] at hmemory hswap
    exact ⟨hobserved, hcounters, hagree.configured, hmemory, hswap⟩

/-- The derived eligibility of a receipt, in the receipt's own fields. -/
theorem deriveEligibility_receipt (r : ReceiptFacts) :
    deriveEligibility r.eligibilityInput = .reusable ↔
      r.wire.boundary.state = .installed ∧ r.wire.outcome = .exited 0 ∧
        r.wire.streams.stdout.capture = .complete ∧ r.wire.streams.stderr.capture = .complete ∧
        r.resources.wire.observationsComplete = true ∧
        ∀ counter ∈ r.resources.wire.limitCounters, counter = 0 := by
  have hboundary : ∀ state, boundaryState state = .installed ↔ state = .installed := by
    intro state
    cases state <;> simp [boundaryState]
  have houtcome : ∀ outcome, ReceiptFacts.outcomeState outcome = .exited 0 ↔
      outcome = .exited 0 := by
    intro outcome
    cases outcome <;> simp [ReceiptFacts.outcomeState]
  have hcapture : ∀ capture, captureState capture = .complete ↔ capture = .complete := by
    intro capture
    cases capture <;> simp [captureState]
  have hobserved : (if r.resources.terminal.isSome then StructureState.valid else .malformed) =
      .valid ↔ r.resources.wire.observationsComplete = true := by
    cases h : r.resources.terminal <;> simp [ResourceFacts.wire, wireResources, h]
  rw [deriveEligibility_eq_reusable rfl]
  simp only [ReceiptFacts.eligibilityInput, hboundary, houtcome, hcapture, hobserved,
    List.forall_mem_map, bne_eq_false_iff_eq]
  rfl

/-- The verifier reports a version 2 receipt as reusable exactly when it passes
the structural checks and meets the conditions for reuse. -/
theorem verifyReceipt_reusable_iff {b : List UInt8} {c : Commitment} {d : DecodedReceipt}
    (hd : decodeV2Receipt b = .ok d) :
    (∃ report, verifyReceipt json sha256 b c = .ok report ∧ report.eligibility = .reusable) ↔
      StructuralChecks d ∧ ReuseConditions sha256 c b d := by
  have hreport : (∃ report, verifyReceipt json sha256 b c = .ok report ∧
      report.eligibility = .reusable) ↔
        c = sha256 b ∧ validateReceipt d = .ok () ∧
          deriveEligibility d.eligibilityInput = .reusable := by
    simp only [verifyReceipt_eq_ok json sha256 hd, and_assoc, exists_and_left, exists_eq_left]
  obtain ⟨r, -, -, value, -, rfl⟩ := decodeV2Receipt_eq_ok.mp hd
  rw [hreport, validateReceipt_eq_ok rfl rfl rfl]
  show _ ∧ _ ∧ deriveEligibility r.eligibilityInput = .reusable ↔ _
  rw [deriveEligibility_receipt]
  constructor
  · rintro ⟨hcommitment, ⟨hformed, hconsistent, hagree, hevents, heligibility⟩, hinstalled,
      houtcome, hstdout, hstderr, hobserved, hcounters⟩
    refine ⟨⟨hformed, ?_, heligibility⟩, ⟨hcommitment, hinstalled, hconsistent, houtcome, hstdout,
      hstderr, _, _, rfl, rfl, withinPlan_iff.mpr ⟨hagree, hobserved, hcounters⟩⟩⟩
    intro resources hresources
    exact Option.some.inj hresources ▸ hevents
  · rintro ⟨hchecks, hreuse⟩
    obtain ⟨resources, limits, hresources, hlimits, hwithin⟩ := hreuse.resources
    obtain rfl := Option.some.inj hresources
    obtain rfl := Option.some.inj hlimits
    obtain ⟨hagree, hobserved, hcounters⟩ := withinPlan_iff.mp hwithin
    exact ⟨hreuse.commitment, ⟨hchecks.wellFormed, hreuse.consistent, hagree,
      hchecks.events _ rfl, hchecks.eligibility⟩, hreuse.installed, hreuse.outcome, hreuse.stdout,
      hreuse.stderr, hobserved, hcounters⟩

/-- The SHA-256 of the bytes of the sample receipt. -/
def sampleCommitment : Commitment :=
  #v[0x59, 0x2b, 0x19, 0x88, 0x96, 0x1a, 0x75, 0x24, 0x4f, 0xd9, 0x3b, 0xdf, 0x4f, 0x77, 0x46,
    0x71, 0x95, 0x20, 0xdb, 0xdd, 0xd2, 0xdd, 0xb8, 0x99, 0x2c, 0x58, 0x6b, 0x20, 0xa2, 0xc5,
    0xbb, 0x6c]

theorem sampleReceipt_wellFormed : WellFormed sampleReceipt.wire where
  productVersion := by decide +kernel
  executionId := by decide +kernel
  planId := by decide +kernel
  platform := by decide +kernel
  artifacts := by decide +kernel
  loader := by decide +kernel
  argumentsSha256 := by decide +kernel
  inputs := by decide +kernel
  outputs := by decide +kernel
  sets := by decide +kernel
  environment := by decide +kernel
  boundaryPolicy := by decide +kernel
  boundaryExecutionId := by decide +kernel
  cgroup := ⟨0, 0, by decide +kernel, by decide +kernel⟩
  observations := ⟨0, 0, by decide +kernel⟩
  tcb := ⟨by decide, alwaysRequiredTcbRoles.zip
    ["h", "k", "l", "s", "c", "n", "f", "r", "l", "t", "d", "e"], by decide +kernel⟩

theorem sampleReceipt_consistent : Consistent sampleReceipt.wire where
  executionId := rfl
  policy := rfl
  producer := rfl
  assumptions := by decide +kernel
  tcbRoles := by decide +kernel
  inputs := (strict_artifactOrder_iff (by decide +kernel)).mp (by decide +kernel)
  outputs := (strict_artifactOrder_iff (by decide +kernel)).mp (by decide +kernel)

theorem sampleReceipt_withinPlan :
    WithinPlan sampleReceipt.resources.wire sampleReceipt.plan.limits where
  observed := rfl
  counters := by
    intro counter hcounter
    fin_cases hcounter <;> rfl
  configured := rfl
  memoryPeak := by decide
  swapPeak := by decide

theorem verifyReceipt_reusable_sample :
    ∃ report, verifyReceipt ⟨fun _ => .ok (), fun _ => .error .bytesMismatch⟩
        (fun _ => sampleCommitment) sampleReceipt.encode.canon.serialize sampleCommitment =
          .ok report ∧
      report.eligibility = .reusable := by
  obtain ⟨value, hdecode⟩ := decodeV2Receipt_sample
  refine (verifyReceipt_reusable_iff _ _ hdecode).mpr ⟨⟨sampleReceipt_wellFormed, ?_, rfl⟩, ?_⟩
  · intro resources hresources
    obtain rfl := Option.some.inj hresources
    rfl
  · exact ⟨rfl, rfl, sampleReceipt_consistent, rfl, rfl, rfl, _, _, rfl, rfl,
      sampleReceipt_withinPlan⟩

end ProofboundRuntime.Verify
