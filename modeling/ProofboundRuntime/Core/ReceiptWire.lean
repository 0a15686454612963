import ProofboundRuntime.Core.Receipt
import ProofboundRuntime.Core.WireV2

/-!
# The encoding of a receipt

`receipt.rs` and `proofbound-runtime-binding`: a version 2 receipt is written
as a CBOR map.  The fields of the map are encoded one by one, carried through
the closed record `ReceiptBindingParts`, and assembled.

A receipt without resources is a version 1 receipt, written as JSON.  That
encoder is the parameter `canonicalV1Bytes`.

* `canonicalV2Bytes_eq_ok`: the assembled bytes are the encoding of the map of
  the fields.
-/

namespace ProofboundRuntime.Core

open Cbor Result WireV2

def executionReceiptV2Schema : String := "proofbound-runtime-execution-receipt/2"

def policyModelVersionV2 : String := "proofbound-runtime-linux-policy/2"

/-- `CARGO_PKG_VERSION`. -/
def cargoPkgVersion : String := "0.2.0"

/-! ## Wire names -/

def boundaryWireName : BoundaryInstallation → String
  | .installed => "installed"
  | .incomplete => "incomplete"

def streamCaptureWireName : StreamCapture → String
  | .complete => "complete"
  | .truncated => "truncated"

def nonReusableReasonWireName : NonReusableReason → String
  | .boundaryIncomplete => "boundary-incomplete"
  | .exitCodeNonzero => "exit-code-nonzero"
  | .processSignaled => "process-signaled"
  | .timedOut => "timed-out"
  | .denied => "denied"
  | .launcherFailed => "launcher-failed"
  | .executionIncomplete => "execution-incomplete"
  | .standardOutputTruncated => "stdout-truncated"
  | .standardErrorTruncated => "stderr-truncated"
  | .receiptMalformed => "receipt-malformed"
  | .memoryHigh => "memory-high"
  | .memoryMax => "memory-max"
  | .memoryOom => "memory-oom"
  | .memoryOomKill => "memory-oom-kill"
  | .memoryOomGroupKill => "memory-oom-group-kill"
  | .swapMax => "swap-max"
  | .swapFail => "swap-fail"

/-! ## The fields -/

def cborTextArray (values : List String) : Value := .array (values.map .text)

def cborArtifact (identity : ArtifactIdentity) : Value :=
  .map [("mode", .unsigned identity.mode.get.toUInt64), ("role", .text identity.role.asStr),
    ("size", .unsigned identity.size), ("sha256", .bytes identity.digest.toList)]

def cborPlan (plan : ReceiptPlan) : Except ReceiptError Value := do
  let limits ← okOr plan.normalizedLimits .resourceProfileIncomplete
  let memory ← okOr limits.memory .resourceProfileIncomplete
  let swap ← okOr limits.swap .resourceProfileIncomplete
  pure <| .map
    [("id", .text plan.id.asStr), ("source", cborArtifact plan.source.toArtifactIdentity),
      ("normalized", cborArtifact plan.normalized.toArtifactIdentity),
      ("limits",
        .map [("processes", .unsigned limits.processes.get.toUInt64),
          ("wall_time_ms", .unsigned limits.wallTime.milliseconds),
          ("stdout_bytes", .unsigned limits.stdout.get),
          ("stderr_bytes", .unsigned limits.stderr.get),
          ("memory_bytes", .unsigned memory.get), ("swap_bytes", .unsigned swap.get)])]

def cborPolicy (policy : ReceiptPolicy) : Value :=
  .map [("identity", cborArtifact policy.identity.toArtifactIdentity),
    ("model_version", .text policyModelVersionV2)]

def cborRuntime (runtime : RuntimeIdentity) : Value :=
  .map [("runtime", cborArtifact runtime.runtime.toArtifactIdentity),
    ("launcher", cborArtifact runtime.launcher.toArtifactIdentity)]

def cborCommand (command : ReceiptCommand) : Value :=
  .map
    [("loader",
        command.loader.elim .null fun loader => cborArtifact loader.toArtifactIdentity),
      ("executable", cborArtifact command.executable.toArtifactIdentity),
      ("arguments_sha256", .bytes command.argumentsSha256.toList),
      ("working_directory", cborArtifact command.workingDirectory.toArtifactIdentity)]

def cborBoundary (boundary : BoundaryRecord) : Value :=
  .map [("state", .text (boundaryWireName boundary.state)),
    ("cgroup",
      .map [("inode", .unsigned boundary.cgroup.inode),
        ("mount_id", .unsigned boundary.cgroup.mountId)]),
    ("execution_id", .bytes boundary.executionId.bytes.toList),
    ("policy_sha256", .bytes boundary.policySha256.toList)]

def cborPlatform (platform : PlatformIdentity) : Value :=
  .map [("architecture", .text platform.architecture.asStr),
    ("landlock_abi", .unsigned platform.landlockAbi.toUInt64),
    ("kernel_release", .text platform.kernelRelease), ("operating_system", .text "linux"),
    ("seccomp_features", cborTextArray platform.seccompFeatures.values),
    ("cgroup_controllers", cborTextArray platform.cgroupControllers.values)]

/-- The closure `stream` of `cbor_streams`. -/
def cborStream {role : ArtifactRole} (record : StreamRecord role) : Value :=
  .map [("capture", .text (streamCaptureWireName record.capture)),
    ("artifact", cborArtifact record.artifact.toArtifactIdentity)]

def cborStreams (streams : ReceiptStreams) : Value :=
  .map [("stderr", cborStream streams.stderr), ("stdout", cborStream streams.stdout)]

def cborOutcome : ExecutionOutcome → Value
  | .exited code =>
    .map [("kind", .text "exited"),
      ("code",
        if 0 ≤ code.toInt then .unsigned (UInt64.ofNat code.toInt.toNat)
        else .negative (UInt64.ofNat (-1 - code.toInt).toNat))]
  | .signaled signal =>
    .map [("kind", .text "signaled"), ("signal", .unsigned signal.get.toUInt64)]
  | .timedOut => .map [("kind", .text "timed-out")]
  | .denied => .map [("kind", .text "denied")]
  | .launcherFailed => .map [("kind", .text "launcher-failed")]
  | .incomplete => .map [("kind", .text "incomplete")]

def canonicalLimitEvents (events : LimitEvents) : List String :=
  [(LimitEvent.memoryHigh, "memory-high"), (.memoryMax, "memory-max"),
    (.memoryOom, "memory-oom"), (.memoryOomKill, "memory-oom-kill"),
    (.memoryOomGroupKill, "memory-oom-group-kill"), (.swapMax, "swap-max"),
    (.swapFail, "swap-fail")].filterMap
    fun (event, name) => if events.contains event then some name else none

def cborTerminal (resources : ReceiptResources) : Value :=
  if resources.observationsComplete then
    .map
      [("swap_events",
          .map [("max", .unsigned resources.swapEvents.max),
            ("fail", .unsigned resources.swapEvents.fail)]),
        ("memory_events",
          .map [("low", .unsigned resources.memoryEvents.low),
            ("oom", .unsigned resources.memoryEvents.oom),
            ("high", .unsigned resources.memoryEvents.high),
            ("max", .unsigned resources.memoryEvents.max),
            ("oom_kill", .unsigned resources.memoryEvents.oomKill),
            ("oom_group_kill", .unsigned resources.memoryEvents.oomGroupKill)]),
        ("swap_peak_bytes", .unsigned resources.swapPeakBytes),
        ("memory_peak_bytes", .unsigned resources.memoryPeakBytes)]
  else .null

def cborResources (resources : ReceiptResources) : Value :=
  .map [("terminal", cborTerminal resources),
    ("configured",
      .map [("pids.max", .unsigned resources.processes.get.toUInt64),
        ("memory.max", .unsigned resources.memory.get),
        ("memory.oom.group", .unsigned resources.memoryOomGroup),
        ("memory.swap.max", .unsigned resources.swap.get)]),
    ("limit_events", cborTextArray (canonicalLimitEvents resources.limitEvents))]

def cborEligibility (eligibility : ReceiptEligibility) : Value :=
  let (status, reasons) := match eligibility with
    | .reusable => ("reusable", [])
    | .nonReusable reasons => ("non-reusable", reasons.map nonReusableReasonWireName)
  .map [("status", .text status), ("reasons", cborTextArray reasons)]

def cborTcbEntry (entry : TrustedComputingBaseEntry) : Value :=
  .map [("role", .text entry.role.asStr), ("identity", .text entry.identity)]

/-- The map at the start of `canonical_v2_binding_parts`. -/
def canonicalV2Fields (receipt : ExecutionReceipt) :
    Except ReceiptError (List (String × Value)) := do
  let parts := receipt.parts
  let resources ← okOr parts.resources .resourceProfileIncomplete
  let plan ← cborPlan parts.plan
  pure
    [("plan", plan), ("schema", .text executionReceiptV2Schema),
      ("inputs", .array (parts.inputs.map cborArtifact)), ("policy", cborPolicy parts.policy),
      ("runtime", cborRuntime parts.runtime), ("streams", cborStreams parts.streams),
      ("command", cborCommand parts.command), ("outcome", cborOutcome parts.outcome),
      ("outputs", .array (parts.outputs.map cborArtifact)),
      ("boundary", cborBoundary parts.boundary), ("producer", cborArtifact parts.producer),
      ("platform", cborPlatform parts.platform), ("resources", cborResources resources),
      ("eligibility", cborEligibility receipt.eligibility),
      ("environment", cborTextArray receipt.environment.values),
      ("execution_id", .bytes parts.executionId.bytes.toList),
      ("observations",
        .map [("clock", .text "linux-monotonic"),
          ("started_ns", .unsigned parts.observations.startedNs),
          ("finished_ns", .unsigned parts.observations.finishedNs)]),
      ("product_version", .text cargoPkgVersion),
      ("assumptions", cborTextArray receipt.assumptions.values),
      ("output_root", cborArtifact parts.outputRoot),
      ("trusted_computing_base", .array (parts.trustedComputingBase.map cborTcbEntry))]

/-! ## The binding -/

/-- The canonical bytes of every field. -/
structure ReceiptBindingParts where
  assumptions : List UInt8
  boundary : List UInt8
  command : List UInt8
  eligibility : List UInt8
  environment : List UInt8
  executionId : List UInt8
  inputs : List UInt8
  observations : List UInt8
  outcome : List UInt8
  outputRoot : List UInt8
  outputs : List UInt8
  plan : List UInt8
  platform : List UInt8
  policy : List UInt8
  producer : List UInt8
  productVersion : List UInt8
  resources : Option (List UInt8)
  runtime : List UInt8
  schema : List UInt8
  streams : List UInt8
  trustedComputingBase : List UInt8

structure ReceiptBinding where
  parts : ReceiptBindingParts

def constructReceiptBinding (parts : ReceiptBindingParts) : ReceiptBinding := ⟨parts⟩

def projectReceiptBinding (binding : ReceiptBinding) : ReceiptBindingParts := binding.parts

def constructAndProjectReceiptBinding (parts : ReceiptBindingParts) : ReceiptBindingParts :=
  projectReceiptBinding (constructReceiptBinding parts)

/-- The encoding of the first field with the name, and the fields without
it. -/
def takeCborField (fields : List (String × Value)) (name : String) :
    Except ReceiptError (List UInt8 × List (String × Value)) := do
  let (_, value) ← okOr (fields.find? fun field => field.1 == name) .canonicalEncoding
  let bytes ← (encode value).mapError fun _ => .canonicalEncoding
  pure (bytes, fields.eraseP fun field => field.1 == name)

/-- The record at the end of `canonical_v2_binding_parts`. -/
def takeBindingParts (fields : List (String × Value)) :
    Except ReceiptError ReceiptBindingParts := do
  let (assumptions, fields) ← takeCborField fields "assumptions"
  let (boundary, fields) ← takeCborField fields "boundary"
  let (command, fields) ← takeCborField fields "command"
  let (eligibility, fields) ← takeCborField fields "eligibility"
  let (environment, fields) ← takeCborField fields "environment"
  let (executionId, fields) ← takeCborField fields "execution_id"
  let (inputs, fields) ← takeCborField fields "inputs"
  let (observations, fields) ← takeCborField fields "observations"
  let (outcome, fields) ← takeCborField fields "outcome"
  let (outputRoot, fields) ← takeCborField fields "output_root"
  let (outputs, fields) ← takeCborField fields "outputs"
  let (plan, fields) ← takeCborField fields "plan"
  let (platform, fields) ← takeCborField fields "platform"
  let (policy, fields) ← takeCborField fields "policy"
  let (producer, fields) ← takeCborField fields "producer"
  let (productVersion, fields) ← takeCborField fields "product_version"
  let (resources, fields) ← takeCborField fields "resources"
  let (runtime, fields) ← takeCborField fields "runtime"
  let (schema, fields) ← takeCborField fields "schema"
  let (streams, fields) ← takeCborField fields "streams"
  let (trustedComputingBase, fields) ← takeCborField fields "trusted_computing_base"
  rejectIf (fields.isEmpty = false) .canonicalEncoding
  pure
    { assumptions, boundary, command, eligibility, environment, executionId, inputs, observations
      outcome, outputRoot, outputs, plan, platform, policy, producer, productVersion
      resources := some resources
      runtime, schema, streams, trustedComputingBase }

def canonicalV2BindingParts (receipt : ExecutionReceipt) :
    Except ReceiptError ReceiptBindingParts := do
  let fields ← canonicalV2Fields receipt
  takeBindingParts fields

def encodeV2Binding (parts : ReceiptBindingParts) : Except ReceiptError (List UInt8) := do
  let resources ← okOr parts.resources .resourceProfileIncomplete
  (encodeBoundMap
    [("assumptions", parts.assumptions), ("boundary", parts.boundary),
      ("command", parts.command), ("eligibility", parts.eligibility),
      ("environment", parts.environment), ("execution_id", parts.executionId),
      ("inputs", parts.inputs), ("observations", parts.observations),
      ("outcome", parts.outcome), ("output_root", parts.outputRoot),
      ("outputs", parts.outputs), ("plan", parts.plan), ("platform", parts.platform),
      ("policy", parts.policy), ("producer", parts.producer),
      ("product_version", parts.productVersion), ("resources", resources),
      ("runtime", parts.runtime), ("schema", parts.schema), ("streams", parts.streams),
      ("trusted_computing_base", parts.trustedComputingBase)]).mapError
    fun _ => .canonicalEncoding

def canonicalV2Bytes (receipt : ExecutionReceipt) : Except ReceiptError (List UInt8) := do
  let parts ← canonicalV2BindingParts receipt
  encodeV2Binding (constructAndProjectReceiptBinding parts)

variable (canonicalV1Bytes : ExecutionReceipt → Except ReceiptError (List UInt8))

def ExecutionReceipt.canonicalBytes (receipt : ExecutionReceipt) :
    Except ReceiptError (List UInt8) :=
  if receipt.parts.resources.isSome then canonicalV2Bytes receipt else canonicalV1Bytes receipt

/-! ## The assembled bytes -/

theorem takeCborField_cons (key : String) (value : Value) (fields : List (String × Value))
    (name : String) :
    takeCborField ((key, value) :: fields) name =
      (if key = name then do
        let bytes ← (encode value).mapError fun _ => .canonicalEncoding
        pure (bytes, fields)
      else do
        let (bytes, rest) ← takeCborField fields name
        pure (bytes, (key, value) :: rest)) := by
  by_cases h : key = name
  · simp [takeCborField, okOr, h]
  · unfold takeCborField
    rw [if_neg h, List.find?_cons_of_neg (by simpa using h),
      List.eraseP_cons_of_neg (by simpa using h)]
    cases hfind : fields.find? fun field => field.1 == name with
    | none => rfl
    | some field =>
      simp only [okOr_some, ok_bind, bind_assoc, pure_bind]

/-- The keys of a receipt, in the order in which the map is built. -/
def fieldNames : List String :=
  ["plan", "schema", "inputs", "policy", "runtime", "streams", "command", "outcome", "outputs",
    "boundary", "producer", "platform", "resources", "eligibility", "environment",
    "execution_id", "observations", "product_version", "assumptions", "output_root",
    "trusted_computing_base"]

/-- The keys in the order in which the fields are assembled. -/
def boundNames : List String :=
  ["assumptions", "boundary", "command", "eligibility", "environment", "execution_id", "inputs",
    "observations", "outcome", "output_root", "outputs", "plan", "platform", "policy",
    "producer", "product_version", "resources", "runtime", "schema", "streams",
    "trusted_computing_base"]

theorem encodeV2Binding_take {value : String → Value} {bytes : String → List UInt8}
    (h : ∀ name, encode (value name) = .ok (bytes name)) :
    (do
      let parts ← takeBindingParts (fieldNames.map fun name => (name, value name))
      encodeV2Binding (constructAndProjectReceiptBinding parts)) =
      (encodeBoundMap (boundNames.map fun name => (name, bytes name))).mapError
        fun _ => .canonicalEncoding := by
  have hencode : ∀ name, (encode (value name)).mapError (fun _ => ReceiptError.canonicalEncoding) =
      .ok (bytes name) := by
    intro name
    rw [h]
    rfl
  unfold takeBindingParts fieldNames
  simp only [List.map_cons, List.map_nil, takeCborField_cons, String.reduceEq, if_true, if_false,
    hencode, ok_bind, pure_bind]
  rfl

/-- The field with a name, or null. -/
def fieldNamed (fields : List (String × Value)) (name : String) : Value :=
  (lookup fields name).getD .null

theorem map_fst_canonicalV2Fields {receipt : ExecutionReceipt} {fields : List (String × Value)}
    (h : canonicalV2Fields receipt = .ok fields) : fields.map Prod.fst = fieldNames := by
  simp only [canonicalV2Fields, bind_eq_ok, pure_eq_ok] at h
  obtain ⟨resources, -, plan, -, rfl⟩ := h
  rfl

/-- The bytes of a receipt are the encoding of the map of its fields. -/
theorem canonicalV2Bytes_eq_ok {receipt : ExecutionReceipt} {fields : List (String × Value)}
    (hfields : canonicalV2Fields receipt = .ok fields) (hnodup : (Value.map fields).NoDup)
    (hlimits : Wire.WithinLimits (.map fields)) :
    canonicalV2Bytes receipt = .ok (Value.map fields).canon.serialize := by
  have hkeys := map_fst_canonicalV2Fields hfields
  have hfits : Wire.maxBytes < 2 ^ 64 := by decide
  rw [noDup_map] at hnodup
  have hmap : fields = fieldNames.map fun name => (name, fieldNamed fields name) := by
    rw [← hkeys]
    exact eq_map_lookup hnodup.1
  have hencode : ∀ name, encode (fieldNamed fields name) =
      .ok (fieldNamed fields name).canon.serialize := by
    intro name
    unfold fieldNamed
    cases hlookup : lookup fields name with
    | none => rfl
    | some value =>
      have hmem := mem_of_lookup hlookup
      have hsize := (hlimits.of_mem_map hmem).size
      exact encodeItem_eq_ok (hnodup.2 _ hmem) (fits_of_length_serialize (hsize.trans_lt hfits))
  -- The fields are assembled in another order than they were built in.
  have hperm : (fieldNames.map fun name => (name, fieldNamed fields name)).Perm
      (boundNames.map fun name => (name, fieldNamed fields name)) := by
    refine List.Perm.map _ ?_
    decide
  rw [← hmap] at hperm
  have hcanon := canon_map_perm hperm hnodup.1
  have hassembled : encodeBoundMap (boundNames.map fun name =>
      (name, (fieldNamed fields name).canon.serialize)) =
        .ok (Value.map fields).canon.serialize := by
    rw [hcanon, ← encodeBoundMap_encoded, List.map_map]
    · rfl
    · exact noDup_map.mpr ⟨(hperm.map Prod.fst).nodup_iff.mp hnodup.1,
        fun e he => hnodup.2 e (hperm.mem_iff.mpr he)⟩
    · exact Wire.withinLimits_canon.mp (hcanon ▸ Wire.withinLimits_canon.mpr hlimits)
  have hbinding := encodeV2Binding_take hencode
  rw [← hmap, hassembled] at hbinding
  rwa [canonicalV2Bytes, canonicalV2BindingParts, hfields]

end ProofboundRuntime.Core
