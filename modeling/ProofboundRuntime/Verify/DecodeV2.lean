import ProofboundRuntime.Lib.Text
import ProofboundRuntime.Lib.Cbor.ClosedMap
import ProofboundRuntime.Wire.Decoder
import ProofboundRuntime.Verify.Wire

/-!
# The version 2 receipt decoder

`decode_v2.rs`: a receipt is one deterministic CBOR map with exactly the
declared keys.  Every nested map is closed in the same way, and the decoder
reads the fields by name into the types of `decode.rs`.
-/

namespace ProofboundRuntime.Verify

open Cbor Result Wire

inductive CborError where
  | invalid
  | nonDeterministic
  | limitExceeded
deriving DecidableEq

def cborErrors : Errors CborError := ⟨.invalid, .nonDeterministic, .limitExceeded⟩

/-- `crate::cbor::decode`. -/
def cborDecode (input : List UInt8) : Except CborError Value := Wire.decode cborErrors input

def schema : String := "proofbound-runtime-execution-receipt/2"
def policyModel : String := "proofbound-runtime-linux-policy/2"
def maxResourceBytes : UInt64 := 1099511627776
def resourceQuantum : UInt64 := 65536

/-! ## Reading one value -/

/-- The entries of a map that has exactly the keys `names`. -/
def exactMap (value : Value) (names : List String) :
    Except DecodeError (List (String × Value)) :=
  match value with
  | .map map => do
    rejectIf (hasExactly map names = false) .invalidSchema
    pure map
  | _ => .error .invalidSchema

def field (map : List (String × Value)) (name : String) : Except DecodeError Value :=
  okOr (lookup map name) .invalidSchema

def array : Value → Except DecodeError (List Value)
  | .array values => .ok values
  | _ => .error .invalidSchema

def text : Value → Except DecodeError String
  | .text value => .ok value
  | _ => .error .invalidSchema

def unsigned : Value → Except DecodeError UInt64
  | .unsigned value => .ok value
  | _ => .error .invalidSchema

/-- A byte string of exactly `length` bytes. -/
def bytesExact (length : Nat) : Value → Except DecodeError (List UInt8)
  | .bytes bytes => do
    rejectIf (bytes.length ≠ length) .invalidSchema
    pure bytes
  | _ => .error .invalidSchema

/-- `u32::try_from(unsigned(value)?)`, without zero. -/
def nonzeroU32 (value : Value) : Except DecodeError UInt32 := do
  let value ← unsigned value
  rejectIf (2 ^ 32 ≤ value.toNat ∨ value.toUInt32 = 0) .invalidSchema
  pure value.toUInt32

/-- An `i32`, through `i64`. -/
def signedI32 (value : Value) : Except DecodeError Int := do
  let value : Int ←
    match value with
    | .unsigned value => do
      rejectIf (2 ^ 63 ≤ value.toNat) .invalidSchema
      pure (value.toNat : Int)
    | .negative argument => do
      rejectIf (2 ^ 63 ≤ argument.toNat) .invalidSchema
      pure (-1 - (argument.toNat : Int))
    | _ => .error .invalidSchema
  rejectIf (value < -2 ^ 31 ∨ 2 ^ 31 ≤ value) .invalidSchema
  pure value

/-- The digits of 16 bytes in groups of 8, 4, 4, 4 and 12. -/
def uuidText (bytes : List UInt8) : String :=
  Ascii.text (Ascii.group [8, 4, 4, 4] (Hex.ascii bytes))

theorem bytes_uuidText (bytes : List UInt8) :
    Utf8.bytes (uuidText bytes) = Ascii.group [8, 4, 4, 4] (Hex.ascii bytes) := by
  refine Ascii.bytes_text fun b hb => ?_
  rcases Ascii.mem_group hb with rfl | hmem
  · decide
  · exact Ascii.lt_of_isLowerHex (Hex.isLowerHex_ascii bytes b hmem)

def parseTextArray (value : Value) : Except DecodeError (List String) := do
  let values ← array value
  collect text values

/-! ## Artifacts -/

def artifactRole : String → Except DecodeError WireArtifactRole
  | "execution-plan" => .ok .executionPlan
  | "normalized-plan" => .ok .normalizedPlan
  | "compiled-policy" => .ok .compiledPolicy
  | "runtime-binary" => .ok .runtimeBinary
  | "launcher-binary" => .ok .launcherBinary
  | "verifier-binary" => .ok .verifierBinary
  | "runtime-executable" => .ok .runtimeExecutable
  | "runtime-loader-executable" => .ok .runtimeLoaderExecutable
  | "runtime-library" => .ok .runtimeLibrary
  | "working-directory" => .ok .workingDirectory
  | "project-input" => .ok .projectInput
  | "output-root" => .ok .outputRoot
  | "standard-output" => .ok .standardOutput
  | "standard-error" => .ok .standardError
  | "output-artifact" => .ok .outputArtifact
  | _ => .error .invalidSchema

def parseArtifact (value : Value) : Except DecodeError WireArtifact := do
  let map ← exactMap value ["mode", "role", "size", "sha256"]
  let mode ← unsigned (← field map "mode")
  -- `u16::try_from`, then the filter on the mode bits.
  rejectIf (2 ^ 16 ≤ mode.toNat ∨ 0o7777 < mode.toUInt16) .invalidSchema
  let role ← artifactRole (← text (← field map "role"))
  let sha256 ← bytesExact 32 (← field map "sha256")
  let size ← unsigned (← field map "size")
  pure
    { role := role
      sha256 := Hex.text sha256
      size := Decimal.text size.toNat
      mode := mode.toUInt16 }

def parseArtifacts (value : Value) : Except DecodeError (List WireArtifact) := do
  let values ← array value
  collect parseArtifact values

/-! ## The fields of a receipt -/

/-- The conditions on a memory and a swap limit. -/
def limitsInvalid (memory swap : UInt64) : Prop :=
  ¬(resourceQuantum ≤ memory ∧ memory ≤ maxResourceBytes) ∨ memory % resourceQuantum ≠ 0 ∨
    maxResourceBytes < swap ∨ swap % resourceQuantum ≠ 0

instance (memory swap : UInt64) : Decidable (limitsInvalid memory swap) :=
  inferInstanceAs (Decidable (_ ∨ _ ∨ _ ∨ _))

def parsePlan (value : Value) : Except DecodeError (WirePlan × WirePlanLimits) := do
  let map ← exactMap value ["id", "source", "normalized", "limits"]
  let limits ← exactMap (← field map "limits")
    ["processes", "wall_time_ms", "stdout_bytes", "stderr_bytes", "memory_bytes", "swap_bytes"]
  let processes ← nonzeroU32 (← field limits "processes")
  let wallTimeMs ← unsigned (← field limits "wall_time_ms")
  let memory ← unsigned (← field limits "memory_bytes")
  let swap ← unsigned (← field limits "swap_bytes")
  rejectIf (wallTimeMs = 0 ∨ limitsInvalid memory swap) .invalidSchema
  let id ← text (← field map "id")
  let source ← parseArtifact (← field map "source")
  let normalized ← parseArtifact (← field map "normalized")
  let stdoutBytes ← unsigned (← field limits "stdout_bytes")
  let stderrBytes ← unsigned (← field limits "stderr_bytes")
  pure
    ({ id := id, source := source, normalized := normalized },
      { processes := processes
        wallTimeMs := wallTimeMs
        stdoutBytes := stdoutBytes
        stderrBytes := stderrBytes
        memory := memory
        swap := swap })

def parsePolicy (value : Value) : Except DecodeError WirePolicy := do
  let map ← exactMap value ["identity", "model_version"]
  let modelVersion ← text (← field map "model_version")
  rejectIf (modelVersion ≠ policyModel) .invalidSchema
  let identity ← parseArtifact (← field map "identity")
  pure { identity := identity, modelVersion := modelVersion }

def architecture : String → Except DecodeError WireArchitecture
  | "x86_64" => .ok .x86_64
  | "aarch64" => .ok .aarch64
  | _ => .error .invalidSchema

def parsePlatform (value : Value) : Except DecodeError WirePlatform := do
  let map ← exactMap value
    ["architecture", "landlock_abi", "kernel_release", "operating_system", "seccomp_features",
      "cgroup_controllers"]
  let operatingSystem ← text (← field map "operating_system")
  rejectIf (operatingSystem ≠ "linux") .invalidSchema
  let architecture ← architecture (← text (← field map "architecture"))
  let landlockAbi ← nonzeroU32 (← field map "landlock_abi")
  let kernelRelease ← text (← field map "kernel_release")
  let seccompFeatures ← parseTextArray (← field map "seccomp_features")
  let cgroupControllers ← parseTextArray (← field map "cgroup_controllers")
  pure
    { operatingSystem := operatingSystem
      architecture := architecture
      kernelRelease := kernelRelease
      landlockAbi := landlockAbi
      seccompFeatures := seccompFeatures
      cgroupControllers := cgroupControllers }

def parseRuntime (value : Value) : Except DecodeError WireRuntime := do
  let map ← exactMap value ["runtime", "launcher"]
  let runtime ← parseArtifact (← field map "runtime")
  let launcher ← parseArtifact (← field map "launcher")
  pure { runtime := runtime, launcher := launcher }

/-- An artifact or `null`. -/
def parseLoader : Value → Except DecodeError (Option WireArtifact)
  | .null => .ok none
  | value => do
    let artifact ← parseArtifact value
    pure (some artifact)

def parseCommand (value : Value) : Except DecodeError WireCommand := do
  let map ← exactMap value ["loader", "executable", "arguments_sha256", "working_directory"]
  let loader ← parseLoader (← field map "loader")
  let executable ← parseArtifact (← field map "executable")
  let workingDirectory ← parseArtifact (← field map "working_directory")
  let argumentsSha256 ← bytesExact 32 (← field map "arguments_sha256")
  pure
    { executable := executable
      loader := loader
      workingDirectory := workingDirectory
      argumentsSha256 := Hex.text argumentsSha256 }

def wireBoundaryState : String → Except DecodeError WireBoundaryState
  | "installed" => .ok .installed
  | "incomplete" => .ok .incomplete
  | _ => .error .invalidSchema

def parseBoundary (value : Value) : Except DecodeError WireBoundary := do
  let map ← exactMap value ["state", "cgroup", "execution_id", "policy_sha256"]
  let state ← wireBoundaryState (← text (← field map "state"))
  let cgroup ← exactMap (← field map "cgroup") ["inode", "mount_id"]
  let executionId ← bytesExact 16 (← field map "execution_id")
  let policySha256 ← bytesExact 32 (← field map "policy_sha256")
  let mountId ← unsigned (← field cgroup "mount_id")
  let inode ← unsigned (← field cgroup "inode")
  pure
    { state := state
      executionId := uuidText executionId
      policySha256 := Hex.text policySha256
      cgroup :=
        { mountId := Decimal.text mountId.toNat, inode := Decimal.text inode.toNat } }

def parseObservations (value : Value) : Except DecodeError WireObservations := do
  let map ← exactMap value ["clock", "started_ns", "finished_ns"]
  let clock ← text (← field map "clock")
  rejectIf (clock ≠ "linux-monotonic") .invalidSchema
  let startedNs ← unsigned (← field map "started_ns")
  let finishedNs ← unsigned (← field map "finished_ns")
  pure
    { clock := clock
      startedNs := Decimal.text startedNs.toNat
      finishedNs := Decimal.text finishedNs.toNat }

def wireCapture : String → Except DecodeError WireCapture
  | "complete" => .ok .complete
  | "truncated" => .ok .truncated
  | _ => .error .invalidSchema

def parseStream (value : Value) : Except DecodeError WireStream := do
  let map ← exactMap value ["capture", "artifact"]
  let capture ← wireCapture (← text (← field map "capture"))
  let artifact ← parseArtifact (← field map "artifact")
  pure { artifact := artifact, capture := capture }

def parseStreams (value : Value) : Except DecodeError WireStreams := do
  let map ← exactMap value ["stderr", "stdout"]
  let stdout ← parseStream (← field map "stdout")
  let stderr ← parseStream (← field map "stderr")
  pure { stdout := stdout, stderr := stderr }

/-- An outcome that is only a kind. -/
def parseKind (value : Value) (outcome : WireOutcome) : Except DecodeError WireOutcome := do
  let _ ← exactMap value ["kind"]
  pure outcome

def parseOutcome (value : Value) : Except DecodeError WireOutcome := do
  let map ←
    match value with
    | .map map => pure map
    | _ => .error .invalidSchema
  match ← text (← field map "kind") with
  | "exited" => do
    let _ ← exactMap value ["kind", "code"]
    let code ← signedI32 (← field map "code")
    pure (.exited code)
  | "signaled" => do
    let _ ← exactMap value ["kind", "signal"]
    let signal ← nonzeroU32 (← field map "signal")
    pure (.signaled signal)
  | "timed-out" => parseKind value .timedOut
  | "denied" => parseKind value .denied
  | "launcher-failed" => parseKind value .launcherFailed
  | "incomplete" => parseKind value .incomplete
  | _ => .error .invalidSchema

def reason : String → Except DecodeError WireReason
  | "boundary-incomplete" => .ok .boundaryIncomplete
  | "exit-code-nonzero" => .ok .exitCodeNonzero
  | "process-signaled" => .ok .processSignaled
  | "timed-out" => .ok .timedOut
  | "denied" => .ok .denied
  | "launcher-failed" => .ok .launcherFailed
  | "execution-incomplete" => .ok .executionIncomplete
  | "stdout-truncated" => .ok .stdoutTruncated
  | "stderr-truncated" => .ok .stderrTruncated
  | "receipt-malformed" => .ok .receiptMalformed
  | "memory-high" => .ok .memoryHigh
  | "memory-max" => .ok .memoryMax
  | "memory-oom" => .ok .memoryOom
  | "memory-oom-kill" => .ok .memoryOomKill
  | "memory-oom-group-kill" => .ok .memoryOomGroupKill
  | "swap-max" => .ok .swapMax
  | "swap-fail" => .ok .swapFail
  | _ => .error .invalidSchema

def parseReasonArray (value : Value) : Except DecodeError (List WireReason) := do
  let values ← array value
  collect (fun value => do reason (← text value)) values

/-- The peaks and counters at the end of an execution. -/
structure TerminalResources where
  memoryPeak : UInt64
  swapPeak : UInt64
  memoryEvents : WireMemoryEvents
  swapEvents : WireSwapEvents
deriving DecidableEq

/-- What stands for the observations that are missing. -/
def TerminalResources.zero : TerminalResources :=
  { memoryPeak := 0
    swapPeak := 0
    memoryEvents := ⟨0, 0, 0, 0, 0, 0⟩
    swapEvents := ⟨0, 0⟩ }

def parseTerminal (value : Value) : Except DecodeError TerminalResources := do
  let terminal ← exactMap value
    ["swap_events", "memory_events", "swap_peak_bytes", "memory_peak_bytes"]
  let memoryMap ← exactMap (← field terminal "memory_events")
    ["low", "oom", "high", "max", "oom_kill", "oom_group_kill"]
  let swapMap ← exactMap (← field terminal "swap_events") ["max", "fail"]
  let memoryPeak ← unsigned (← field terminal "memory_peak_bytes")
  let swapPeak ← unsigned (← field terminal "swap_peak_bytes")
  let low ← unsigned (← field memoryMap "low")
  let high ← unsigned (← field memoryMap "high")
  let max ← unsigned (← field memoryMap "max")
  let oom ← unsigned (← field memoryMap "oom")
  let oomKill ← unsigned (← field memoryMap "oom_kill")
  let oomGroupKill ← unsigned (← field memoryMap "oom_group_kill")
  let swapMax ← unsigned (← field swapMap "max")
  let fail ← unsigned (← field swapMap "fail")
  pure
    { memoryPeak := memoryPeak
      swapPeak := swapPeak
      memoryEvents := ⟨low, high, max, oom, oomKill, oomGroupKill⟩
      swapEvents := ⟨swapMax, fail⟩ }

/-- `null`, or what `parseTerminal` reads. -/
def parseOptionalTerminal : Value → Except DecodeError (Option TerminalResources)
  | .null => .ok none
  | value => do
    let terminal ← parseTerminal value
    pure (some terminal)

/-- The resources with their terminal observations filled in. -/
def wireResources (processes : UInt32) (memory swap : UInt64)
    (terminal : Option TerminalResources) (limitEvents : List WireReason) : WireResources :=
  let observed := terminal.getD .zero
  { processes := processes
    memory := memory
    swap := swap
    memoryPeak := observed.memoryPeak
    swapPeak := observed.swapPeak
    memoryEvents := observed.memoryEvents
    swapEvents := observed.swapEvents
    limitEvents := limitEvents
    observationsComplete := terminal.isSome }

def parseResources (value : Value) : Except DecodeError WireResources := do
  let map ← exactMap value ["terminal", "configured", "limit_events"]
  let configured ← exactMap (← field map "configured")
    ["pids.max", "memory.max", "memory.oom.group", "memory.swap.max"]
  let processes ← nonzeroU32 (← field configured "pids.max")
  let memory ← unsigned (← field configured "memory.max")
  let swap ← unsigned (← field configured "memory.swap.max")
  let oomGroup ← unsigned (← field configured "memory.oom.group")
  rejectIf (limitsInvalid memory swap ∨ oomGroup ≠ 1) .invalidSchema
  let terminalValue ← field map "terminal"
  let limitEvents ← parseReasonArray (← field map "limit_events")
  let terminal ← parseOptionalTerminal terminalValue
  pure (wireResources processes memory swap terminal limitEvents)

def wireEligibilityStatus : String → Except DecodeError WireEligibilityStatus
  | "reusable" => .ok .reusable
  | "non-reusable" => .ok .nonReusable
  | _ => .error .invalidSchema

def parseEligibility (value : Value) : Except DecodeError WireEligibility := do
  let map ← exactMap value ["status", "reasons"]
  let status ← wireEligibilityStatus (← text (← field map "status"))
  let reasons ← parseReasonArray (← field map "reasons")
  pure { status := status, reasons := reasons }

def parseTcbEntry (value : Value) : Except DecodeError WireTcbEntry := do
  let map ← exactMap value ["role", "identity"]
  let role ← text (← field map "role")
  let identity ← text (← field map "identity")
  pure { role := role, identity := identity }

def parseTcb (value : Value) : Except DecodeError (List WireTcbEntry) := do
  let entries ← array value
  rejectIf (entries = []) .invalidSchema
  collect parseTcbEntry entries

/-! ## The inspection projection -/

/-- The counters that the projection spells as decimal text. -/
def decimalProjectionPath (path : List String) : Bool :=
  match path.getLast? with
  | none => false
  | some field =>
    ["size", "inode", "mount_id", "started_ns", "finished_ns", "memory.max", "memory.swap.max",
        "memory_peak_bytes", "swap_peak_bytes"].contains field ||
      path.any fun parent => parent == "memory_events" || parent == "swap_events"

mutual

/-- The JSON tree of a receipt, for inspection. -/
def project (path : List String) : Value → Except DecodeError Json
  | .unsigned value =>
    if decimalProjectionPath path then .ok (.string (Decimal.text value.toNat))
    else .ok (.number value.toNat)
  | .negative argument => do
    rejectIf (2 ^ 63 ≤ argument.toNat) .invalidSchema
    pure (.number (-1 - (argument.toNat : Int)))
  | .bytes bytes => .ok (.string ("hex:" ++ Hex.text bytes))
  | .text value => .ok (.string value)
  | .array values => do
    let values ← projectList path values
    pure (.array values)
  | .map entries => do
    let object ← projectEntries path entries []
    pure (.object object)
  | .bool value => .ok (.bool value)
  | .null => .ok .null

def projectList (path : List String) : List Value → Except DecodeError (List Json)
  | [] => .ok []
  | value :: values => do
    let json ← project path value
    let jsons ← projectList path values
    pure (json :: jsons)

def projectEntries (path : List String) :
    List (String × Value) → List (String × Json) → Except DecodeError (List (String × Json))
  | [], object => .ok object
  | (key, value) :: entries, object => do
    let json ← project (path ++ [key]) value
    projectEntries path entries (Json.insert key json object)

end

/-! ## The receipt -/

/-- The keys of a receipt. -/
def receiptNames : List String :=
  ["plan", "schema", "inputs", "policy", "runtime", "streams", "command", "outcome", "outputs",
    "boundary", "producer", "platform", "resources", "eligibility", "environment",
    "execution_id", "observations", "product_version", "assumptions", "output_root",
    "trusted_computing_base"]

/-- A recorded reuse has no reasons, and a recorded refusal has some. -/
def recorded (eligibility : WireEligibility) : Except DecodeError RecordedEligibility :=
  match eligibility.status with
  | .reusable =>
    if eligibility.reasons.isEmpty then .ok .reusable else .error .invalidSchema
  | .nonReusable =>
    if eligibility.reasons.isEmpty then .error .invalidSchema
    else .ok (.nonReusable eligibility.reasons)

def boundaryState : WireBoundaryState → BoundaryState
  | .installed => .installed
  | .incomplete => .incomplete

def outcomeState : WireOutcome → Except DecodeError OutcomeState
  | .exited code => .ok (.exited code)
  | .signaled signal => do
    rejectIf (signal = 0) .invalidSchema
    pure (.signaled signal)
  | .timedOut => .ok .timedOut
  | .denied => .ok .denied
  | .launcherFailed => .ok .launcherFailed
  | .incomplete => .ok .incomplete

def captureState : WireCapture → CaptureState
  | .complete => .complete
  | .truncated => .truncated

def decodeV2Receipt (input : List UInt8) : Except DecodeError DecodedReceipt := do
  let root ← (cborDecode input).mapError fun _ => .malformedCbor
  let top ← exactMap root receiptNames
  let schemaText ← text (← field top "schema")
  rejectIf (schemaText ≠ schema) .unsupportedVersion
  let (plan, planLimits) ← parsePlan (← field top "plan")
  let policy ← parsePolicy (← field top "policy")
  let platform ← parsePlatform (← field top "platform")
  let runtime ← parseRuntime (← field top "runtime")
  let command ← parseCommand (← field top "command")
  let inputs ← parseArtifacts (← field top "inputs")
  let environment ← parseTextArray (← field top "environment")
  let outputRoot ← parseArtifact (← field top "output_root")
  let boundary ← parseBoundary (← field top "boundary")
  let observations ← parseObservations (← field top "observations")
  let streams ← parseStreams (← field top "streams")
  let outcome ← parseOutcome (← field top "outcome")
  let outputs ← parseArtifacts (← field top "outputs")
  let producer ← parseArtifact (← field top "producer")
  let assumptions ← parseTextArray (← field top "assumptions")
  let trustedComputingBase ← parseTcb (← field top "trusted_computing_base")
  let resources ← parseResources (← field top "resources")
  let eligibility ← parseEligibility (← field top "eligibility")
  let recordedEligibility ← recorded eligibility
  let outcomeState ← outcomeState outcome
  let eligibilityInput : EligibilityInput :=
    { boundary := boundaryState boundary.state
      outcome := outcomeState
      stdout := captureState streams.stdout.capture
      stderr := captureState streams.stderr.capture
      structureState := if resources.observationsComplete then .valid else .malformed
      limitEvents := resources.limitCounters.map (· != 0) }
  let executionId ← bytesExact 16 (← field top "execution_id")
  let productVersion ← text (← field top "product_version")
  let value ← project [] root
  pure
    { value := value
      wire :=
        { schema := schema
          productVersion := productVersion
          executionId := uuidText executionId
          plan := plan
          policy := policy
          platform := platform
          runtime := runtime
          command := command
          inputs := inputs
          environment := environment
          outputRoot := outputRoot
          boundary := boundary
          observations := observations
          streams := streams
          outcome := outcome
          outputs := outputs
          eligibility := eligibility
          producer := producer
          assumptions := assumptions
          trustedComputingBase := trustedComputingBase }
      eligibilityInput := eligibilityInput
      recordedEligibility := recordedEligibility
      versionTwo := true
      resources := some resources
      planLimits := some planLimits }

end ProofboundRuntime.Verify
