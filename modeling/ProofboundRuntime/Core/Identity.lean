import ProofboundRuntime.Lib.Text

/-!
# Identities of artifacts and plans

`identity.rs`, and the identifier of a plan from `plan.rs`.  A value that its
constructor checks carries what was checked.
-/

namespace ProofboundRuntime.Core

/-- `ArtifactRole`, ordered as declared. -/
inductive ArtifactRole where
  | executionPlan
  | normalizedPlan
  | compiledPolicy
  | runtimeBinary
  | launcherBinary
  | verifierBinary
  | runtimeExecutable
  | runtimeLoaderExecutable
  | runtimeLibrary
  | workingDirectory
  | projectInput
  | outputRoot
  | standardOutput
  | standardError
  | outputArtifact
deriving DecidableEq

instance : Ord ArtifactRole := ⟨compareOn ArtifactRole.ctorIdx⟩

instance : Std.TransOrd ArtifactRole :=
  inferInstanceAs (Std.TransCmp (compareOn ArtifactRole.ctorIdx))

def ArtifactRole.asStr : ArtifactRole → String
  | .executionPlan => "execution-plan"
  | .normalizedPlan => "normalized-plan"
  | .compiledPolicy => "compiled-policy"
  | .runtimeBinary => "runtime-binary"
  | .launcherBinary => "launcher-binary"
  | .verifierBinary => "verifier-binary"
  | .runtimeExecutable => "runtime-executable"
  | .runtimeLoaderExecutable => "runtime-loader-executable"
  | .runtimeLibrary => "runtime-library"
  | .workingDirectory => "working-directory"
  | .projectInput => "project-input"
  | .outputRoot => "output-root"
  | .standardOutput => "standard-output"
  | .standardError => "standard-error"
  | .outputArtifact => "output-artifact"

abbrev Sha256Digest := Vector UInt8 32

inductive IdentityError where
  | unsupportedRole
  | digestLength
  | digestCharacter
  | modeRange
deriving DecidableEq

/-- Unix permission bits. -/
structure FileMode where
  get : UInt16
  get_le : get ≤ 0o7777
deriving DecidableEq

def FileMode.new (value : UInt16) : Except IdentityError FileMode :=
  if h : value ≤ 0o7777 then .ok ⟨value, h⟩ else .error .modeRange

structure ArtifactIdentity where
  role : ArtifactRole
  digest : Sha256Digest
  size : UInt64
  mode : FileMode
deriving DecidableEq

/-- The derived order of `ArtifactIdentity`: field by field. -/
def ArtifactIdentity.cmp (left right : ArtifactIdentity) : Ordering :=
  (compare left.role right.role).then <|
    (compare left.digest.toList right.digest.toList).then <|
      (compare left.size right.size).then <| compare left.mode.get right.mode.get

/-- `is_ascii_lowercase_or_digit`. -/
def isAsciiLowercaseOrDigit (byte : UInt8) : Bool :=
  Ascii.isLowercase byte || Ascii.isDigit byte

/-- What `PlanId::new` rejects. -/
def planIdInvalid (bytes : List UInt8) : Prop :=
  bytes = [] ∨ 128 < bytes.length ∨ bytes.head?.any isAsciiLowercaseOrDigit = false ∨
    bytes.getLast?.any isAsciiLowercaseOrDigit = false ∨
    (bytes.all fun byte =>
      isAsciiLowercaseOrDigit byte || byte == 0x2e || byte == 0x5f || byte == 0x2d) = false

instance (bytes : List UInt8) : Decidable (planIdInvalid bytes) :=
  inferInstanceAs (Decidable (_ ∨ _))

/-- The identifier of a plan. -/
structure PlanId where
  asStr : String
  valid : ¬planIdInvalid (Utf8.bytes asStr)
deriving DecidableEq

end ProofboundRuntime.Core
