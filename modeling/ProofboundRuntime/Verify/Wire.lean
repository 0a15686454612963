import ProofboundRuntime.Lib.Json
import ProofboundRuntime.Verify.Derive

/-!
# Decoded receipts

The types of `decode.rs`: what the verifier keeps of a receipt.  Digests and
execution identifiers are kept as lowercase hexadecimal text, and 64-bit
counters of a version 1 receipt as decimal text.
-/

namespace ProofboundRuntime.Verify

/-- The errors of decoding. -/
inductive DecodeError where
  | malformedJson
  | malformedCbor
  | invalidSchema
  | unsupportedVersion
deriving DecidableEq

/-- Where a receipt was made. -/
inductive WireArchitecture where
  | x86_64
  | aarch64
deriving DecidableEq

/-- `WireArtifactRole`, ordered as declared. -/
inductive WireArtifactRole where
  | executionPlan
  | normalizedPlan
  | compiledPolicy
  | runtimeBinary
  | launcherBinary
  | verifierBinary
  | runtimeExecutable
  | runtimeLoaderExecutable
  | runtimeLibrary
  | workingDirectory
  | projectInput
  | outputRoot
  | standardOutput
  | standardError
  | outputArtifact
deriving DecidableEq

instance : Ord WireArtifactRole := ⟨compareOn WireArtifactRole.ctorIdx⟩

instance : Std.TransOrd WireArtifactRole :=
  inferInstanceAs (Std.TransCmp (compareOn WireArtifactRole.ctorIdx))

/-- Whether the boundary was installed. -/
inductive WireBoundaryState where
  | installed
  | incomplete
deriving DecidableEq

/-- Whether a stream was kept whole. -/
inductive WireCapture where
  | complete
  | truncated
deriving DecidableEq

/-- How an execution ended. -/
inductive WireOutcome where
  | exited (code : Int)
  | signaled (signal : UInt32)
  | timedOut
  | denied
  | launcherFailed
  | incomplete
deriving DecidableEq

/-- The recorded decision. -/
inductive WireEligibilityStatus where
  | reusable
  | nonReusable
deriving DecidableEq

/-- Why it is not reusable. -/
inductive WireReason where
  | boundaryIncomplete
  | exitCodeNonzero
  | processSignaled
  | timedOut
  | denied
  | launcherFailed
  | executionIncomplete
  | stdoutTruncated
  | stderrTruncated
  | receiptMalformed
  | memoryHigh
  | memoryMax
  | memoryOom
  | memoryOomKill
  | memoryOomGroupKill
  | swapMax
  | swapFail
deriving DecidableEq

/-- An artifact, as texts. -/
structure WireArtifact where
  role : WireArtifactRole
  sha256 : String
  size : String
  mode : UInt16
deriving DecidableEq

/-- The plan of a receipt. -/
structure WirePlan where
  id : String
  source : WireArtifact
  normalized : WireArtifact
deriving DecidableEq

/-- The limits of the plan. -/
structure WirePlanLimits where
  processes : UInt32
  wallTimeMs : UInt64
  stdoutBytes : UInt64
  stderrBytes : UInt64
  memory : UInt64
  swap : UInt64
deriving DecidableEq

/-- The compiled policy. -/
structure WirePolicy where
  identity : WireArtifact
  modelVersion : String
deriving DecidableEq

/-- The host. -/
structure WirePlatform where
  operatingSystem : String
  architecture : WireArchitecture
  kernelRelease : String
  landlockAbi : UInt32
  seccompFeatures : List String
  cgroupControllers : List String
deriving DecidableEq

/-- The two binaries. -/
structure WireRuntime where
  runtime : WireArtifact
  launcher : WireArtifact
deriving DecidableEq

/-- What was executed. -/
structure WireCommand where
  executable : WireArtifact
  loader : Option WireArtifact
  workingDirectory : WireArtifact
  argumentsSha256 : String
deriving DecidableEq

/-- The control group. -/
structure WireCgroup where
  mountId : String
  inode : String
deriving DecidableEq

/-- The boundary and what it is for. -/
structure WireBoundary where
  state : WireBoundaryState
  executionId : String
  policySha256 : String
  cgroup : WireCgroup
deriving DecidableEq

/-- When it ran. -/
structure WireObservations where
  clock : String
  startedNs : String
  finishedNs : String
deriving DecidableEq

/-- A captured stream. -/
structure WireStream where
  artifact : WireArtifact
  capture : WireCapture
deriving DecidableEq

/-- Both streams. -/
structure WireStreams where
  stdout : WireStream
  stderr : WireStream
deriving DecidableEq

/-- The decision with its reasons. -/
structure WireEligibility where
  status : WireEligibilityStatus
  reasons : List WireReason
deriving DecidableEq

/-- One trusted part. -/
structure WireTcbEntry where
  role : String
  identity : String
deriving DecidableEq

/-- The array `memory_events`, by the names of its elements. -/
structure WireMemoryEvents where
  low : UInt64
  high : UInt64
  max : UInt64
  oom : UInt64
  oomKill : UInt64
  oomGroupKill : UInt64
deriving DecidableEq

/-- The array `swap_events`, by the names of its elements. -/
structure WireSwapEvents where
  max : UInt64
  fail : UInt64
deriving DecidableEq

/-- The limits and what was observed. -/
structure WireResources where
  processes : UInt32
  memory : UInt64
  swap : UInt64
  memoryPeak : UInt64
  swapPeak : UInt64
  memoryEvents : WireMemoryEvents
  swapEvents : WireSwapEvents
  limitEvents : List WireReason
  observationsComplete : Bool
deriving DecidableEq

/-- A receipt, as decoded. -/
structure WireReceipt where
  schema : String
  productVersion : String
  executionId : String
  plan : WirePlan
  policy : WirePolicy
  platform : WirePlatform
  runtime : WireRuntime
  command : WireCommand
  inputs : List WireArtifact
  environment : List String
  outputRoot : WireArtifact
  boundary : WireBoundary
  observations : WireObservations
  streams : WireStreams
  outcome : WireOutcome
  outputs : List WireArtifact
  eligibility : WireEligibility
  producer : WireArtifact
  assumptions : List String
  trustedComputingBase : List WireTcbEntry
deriving DecidableEq

/-- The recorded decision. -/
inductive RecordedEligibility where
  | reusable
  | nonReusable (reasons : List WireReason)
deriving DecidableEq

/-- A receipt with what is checked. -/
structure DecodedReceipt where
  value : Json
  wire : WireReceipt
  eligibilityInput : EligibilityInput
  recordedEligibility : RecordedEligibility
  versionTwo : Bool
  resources : Option WireResources
  planLimits : Option WirePlanLimits

/-- The counters whose events end reuse, in the order of the events. -/
def WireResources.limitCounters (resources : WireResources) : List UInt64 :=
  [resources.memoryEvents.high, resources.memoryEvents.max, resources.memoryEvents.oom,
    resources.memoryEvents.oomKill, resources.memoryEvents.oomGroupKill,
    resources.swapEvents.max, resources.swapEvents.fail]

end ProofboundRuntime.Verify
