import ProofboundRuntime.Core.Receipt

/-!
# Launcher messages

The messages of the private launcher protocol (`launcher.rs`).  A value that its
constructor checks carries what was checked: an `InstallRequest` is what
`InstallRequest::new` returns and nothing else.  A `BTreeMap` of texts is an
ordered map on their bytes.
-/

namespace ProofboundRuntime.Launcher

open ProofboundRuntime.Core Result

/-- `LauncherError`. -/
inductive LauncherError where
  | unsupportedOperatingSystem
  | channelCreationFailed
  | channelReadFailed
  | channelTimeout
  | channelWriteFailed
  | pauseFailed
  | eof
  | truncated
  | frameTooLarge
  | malformed
  | nonCanonical
  | duplicateKey
  | trailingData
  | unsupportedVersion
  | policyIdentityMismatch
  | cgroupIdentityMismatch
  | executionIdentityMismatch
  | seccompProgramMismatch
  | fileDescriptorInvalid
  | executableIdentityMismatch
  | privilegeInstallationFailed
  | landlockInstallationFailed
  | seccompInstallationFailed
  | workingDirectoryFailed
  | execPermissionDenied
  | execOperationNotPermitted
  | execNotFound
  | execFormatInvalid
  | execFailed
  | boundaryNotInstalled
  | acknowledgementMissing
  | execReleaseMissing
  | unexpectedMessage
deriving DecidableEq

/-- `MAX_COLLECTION_ITEMS`. -/
def maxCollectionItems : Nat := 4096

/-- `i32::MAX as u32`. -/
def maxDescriptor : UInt32 := 0x7fffffff

/-! ## Identities -/

structure LauncherIdentity where
  executionId : ExecutionId
  policyId : Sha256Digest
  cgroupId : CgroupIdentity
deriving DecidableEq

def LauncherIdentity.verify (self expected : LauncherIdentity) : Except LauncherError Unit := do
  rejectIf (self.executionId ≠ expected.executionId) .executionIdentityMismatch
  rejectIf (self.policyId ≠ expected.policyId) .policyIdentityMismatch
  rejectIf (self.cgroupId ≠ expected.cgroupId) .cgroupIdentityMismatch

def sampleIdentity : LauncherIdentity :=
  ⟨⟨#v[9, 8, 7, 6, 5, 4, 0x43, 2, 0x81, 0, 1, 2, 3, 4, 5, 6], by decide, by decide⟩,
    Vector.replicate 32 7, ⟨1, 2⟩⟩

/-! ## Filesystem rules -/

inductive LandlockAccess where
  | read
  | write
  | execute
deriving DecidableEq

/-- `access_rank`. -/
def accessRank : LandlockAccess → UInt8
  | .read => 0
  | .write => 1
  | .execute => 2

/-- `access_name`. -/
def accessName : LandlockAccess → String
  | .read => "read"
  | .write => "write"
  | .execute => "execute"

/-- `parse_access`. -/
def parseAccess (value : String) : Except LauncherError LandlockAccess :=
  if value = "read" then .ok .read
  else if value = "write" then .ok .write
  else if value = "execute" then .ok .execute
  else .error .malformed

/-- The order of `sort_unstable_by_key` on the ranks. -/
def accessCmp (a b : LandlockAccess) : Ordering := compare (accessRank a) (accessRank b)

instance : Std.TransCmp accessCmp := inferInstanceAs (Std.TransCmp (compareOn accessRank))

theorem accessCmp_eq_eq {a b : LandlockAccess} : accessCmp a b = .eq ↔ a = b := by
  cases a <;> cases b <;> decide

instance : Std.LawfulEqCmp accessCmp where
  compare_self := accessCmp_eq_eq.mpr rfl
  eq_of_compare := accessCmp_eq_eq.mp

/-- A rule with a nonempty set of accesses, in the order of their ranks. -/
structure LauncherFilesystemRule where
  descriptor : UInt32
  access : List LandlockAccess
  descriptor_le : descriptor ≤ maxDescriptor
  nonempty : access ≠ []
  strict : Sorting.Strict accessCmp access
deriving DecidableEq

def LauncherFilesystemRule.new (descriptor : UInt32) (access : List LandlockAccess) :
    Except LauncherError LauncherFilesystemRule :=
  if hrange : maxDescriptor < descriptor ∨ access = [] then .error .malformed
  else if hrepeats : Sorting.windowsAny (fun a b => a == b) (Sorting.sortBy accessCmp access) then
    .error .malformed
  else .ok
    { descriptor := descriptor
      access := Sorting.sortBy accessCmp access
      descriptor_le := by
        rw [not_or, UInt32.not_lt] at hrange
        exact hrange.1
      nonempty := by
        rw [not_or] at hrange
        intro hnil
        have hperm : (Sorting.sortBy accessCmp access).Perm access := Sorting.sortBy_perm access
        rw [hnil] at hperm
        exact hrange.2 hperm.nil_eq.symm
      strict := Sorting.strict_sortBy_of_windowsAny ((Bool.not_eq_true _).mp hrepeats) }

/-- The constructor gives a rule back. -/
theorem LauncherFilesystemRule.new_self (rule : LauncherFilesystemRule) :
    new rule.descriptor rule.access = .ok rule := by
  have hsort := rule.strict.sortBy_eq
  have hrepeats : Sorting.windowsAny (fun a b => a == b)
      (Sorting.sortBy accessCmp rule.access) = false := by
    rw [Sorting.windowsAny_sortBy (by simp)]
    exact rule.strict.pairwise_ne
  have hrange : ¬(maxDescriptor < rule.descriptor ∨ rule.access = []) := by
    rw [not_or, UInt32.not_lt]
    exact ⟨rule.descriptor_le, rule.nonempty⟩
  rw [new, dif_neg hrange, dif_neg (by rw [hrepeats]; decide)]
  obtain ⟨descriptor, access, _, _, _⟩ := rule
  simp only [Except.ok.injEq, mk.injEq, true_and]
  exact hsort

/-! ## Install requests -/

/-- A `BTreeMap<String, String>`. -/
abbrev Environment := Std.ExtTreeMap String String Utf8.cmp

/-- The arguments of `InstallRequest::new`. -/
structure InstallFields where
  identity : LauncherIdentity
  executableId : ArtifactIdentity
  executableFd : UInt32
  workingDirectoryFd : UInt32
  arguments : List String
  environment : Environment
  filesystem : List LauncherFilesystemRule
  seccompProgram : List UInt8
  closeFileDescriptorsFrom : UInt32
deriving DecidableEq

/-- The order of `sort_unstable_by_key` on the descriptors. -/
def ruleCmp (a b : LauncherFilesystemRule) : Ordering := compare a.descriptor b.descriptor

instance : Std.TransCmp ruleCmp :=
  inferInstanceAs (Std.TransCmp (compareOn LauncherFilesystemRule.descriptor))

/-- `value.as_bytes().contains(&byte)`. -/
def containsByte (value : String) (byte : UInt8) : Bool := (Utf8.bytes value).contains byte

namespace InstallFields

/-- The first check of the constructor. -/
def OutOfRange (f : InstallFields) : Prop :=
  f.executableId.role ≠ .runtimeExecutable ∨ f.executableFd < 3 ∨ f.workingDirectoryFd < 3 ∨
    maxDescriptor < f.executableFd ∨ maxDescriptor < f.workingDirectoryFd ∨
    maxDescriptor < f.closeFileDescriptorsFrom ∨ f.closeFileDescriptorsFrom < 3 ∨
    f.closeFileDescriptorsFrom ≤ f.executableFd ∨
    f.closeFileDescriptorsFrom ≤ f.workingDirectoryFd ∨ f.arguments = [] ∨
    maxCollectionItems < f.arguments.length ∨ maxCollectionItems < f.environment.size ∨
    f.filesystem = [] ∨ maxCollectionItems < f.filesystem.length ∨ f.seccompProgram = []

instance (f : InstallFields) : Decidable f.OutOfRange := inferInstanceAs (Decidable (_ ∨ _))

/-- The rule of the executable is closed. -/
def executableRuleIsClosed (f : InstallFields) : Bool :=
  f.filesystem.any fun rule =>
    rule.descriptor == f.executableFd && rule.access == [.read, .execute]

/-- The check of the sorted rules. -/
def RulesMalformed (f : InstallFields) : Prop :=
  Sorting.windowsAny (fun a b => a.descriptor == b.descriptor) f.filesystem = true ∨
    (f.filesystem.any fun rule =>
      rule.descriptor < 3 || f.closeFileDescriptorsFrom ≤ rule.descriptor) = true ∨
    f.executableRuleIsClosed = false

instance (f : InstallFields) : Decidable f.RulesMalformed := inferInstanceAs (Decidable (_ ∨ _))

/-- The check of the arguments and the environment. -/
def TextsMalformed (f : InstallFields) : Prop :=
  (f.arguments.any fun value => containsByte value 0) = true ∨
    (f.environment.toList.any fun (name, value) =>
      name.isEmpty || 255 < (Utf8.bytes name).length || containsByte name 0 ||
        containsByte name 0x3d || containsByte value 0) = true

instance (f : InstallFields) : Decidable f.TextsMalformed := inferInstanceAs (Decidable (_ ∨ _))

end InstallFields

/-- A request as its constructor leaves it. -/
structure InstallRequest extends InstallFields where
  inRange : ¬toInstallFields.OutOfRange
  strict : Sorting.Strict ruleCmp filesystem
  rules : ¬toInstallFields.RulesMalformed
  texts : ¬toInstallFields.TextsMalformed
deriving DecidableEq

/-- The fields with their rules in order. -/
def InstallFields.ordered (f : InstallFields) : InstallFields where
  __ := f
  filesystem := Sorting.sortBy ruleCmp f.filesystem

/-- Only the number of rules matters for the ranges. -/
theorem InstallFields.outOfRange_ordered {f : InstallFields} :
    f.ordered.OutOfRange ↔ f.OutOfRange := by
  have hperm : (Sorting.sortBy ruleCmp f.filesystem).Perm f.filesystem := Sorting.sortBy_perm _
  have hnil : Sorting.sortBy ruleCmp f.filesystem = [] ↔ f.filesystem = [] := by
    rw [← List.length_eq_zero_iff, ← List.length_eq_zero_iff, hperm.length_eq]
  simp only [OutOfRange, ordered, hperm.length_eq, hnil]

theorem ruleCmp_eq_eq (a b : LauncherFilesystemRule) :
    (a.descriptor == b.descriptor) = false ↔ ruleCmp a b ≠ .eq := by
  simp [ruleCmp]

theorem InstallFields.strict_ordered {f : InstallFields} (h : ¬f.ordered.RulesMalformed) :
    Sorting.Strict ruleCmp f.ordered.filesystem := by
  have hrepeats := (Bool.not_eq_true _).mp (not_or.mp h).1
  exact Sorting.strict_sortBy ((Sorting.windowsAny_sortBy ruleCmp_eq_eq).mp hrepeats)

def InstallRequest.new (f : InstallFields) : Except LauncherError InstallRequest :=
  if hrange : f.OutOfRange then .error .malformed
  else if hrules : f.ordered.RulesMalformed then .error .malformed
  else if htexts : f.ordered.TextsMalformed then .error .malformed
  else .ok ⟨f.ordered, InstallFields.outOfRange_ordered.not.mpr hrange,
    InstallFields.strict_ordered hrules, hrules, htexts⟩

/-- The constructor gives a request back. -/
theorem InstallRequest.new_self (request : InstallRequest) :
    new request.toInstallFields = .ok request := by
  have hordered : request.toInstallFields.ordered = request.toInstallFields := by
    rw [InstallFields.ordered, request.strict.sortBy_eq]
  have hrules := request.rules
  have htexts := request.texts
  rw [← hordered] at hrules htexts
  rw [new, dif_neg request.inRange, dif_neg hrules, dif_neg htexts]
  obtain ⟨fields, _, _, _, _⟩ := request
  rwa [Except.ok.injEq, mk.injEq]

/-! ## The other messages -/

inductive LauncherStage where
  | decode
  | identity
  | fileDescriptors
  | privileges
  | noNewPrivileges
  | landlock
  | seccomp
  | acknowledgement
  | exec
deriving DecidableEq

def LauncherStage.asStr : LauncherStage → String
  | .decode => "decode"
  | .identity => "identity"
  | .fileDescriptors => "file-descriptors"
  | .privileges => "privileges"
  | .noNewPrivileges => "no-new-privileges"
  | .landlock => "landlock"
  | .seccomp => "seccomp"
  | .acknowledgement => "acknowledgement"
  | .exec => "exec"

def LauncherStage.parse (value : String) : Except LauncherError LauncherStage :=
  if value = "decode" then .ok .decode
  else if value = "identity" then .ok .identity
  else if value = "file-descriptors" then .ok .fileDescriptors
  else if value = "privileges" then .ok .privileges
  else if value = "no-new-privileges" then .ok .noNewPrivileges
  else if value = "landlock" then .ok .landlock
  else if value = "seccomp" then .ok .seccomp
  else if value = "acknowledgement" then .ok .acknowledgement
  else if value = "exec" then .ok .exec
  else .error .malformed

@[simp] theorem LauncherStage.parse_asStr (stage : LauncherStage) :
    parse stage.asStr = .ok stage := by
  cases stage <;> rfl

@[simp] theorem parseAccess_accessName (access : LandlockAccess) :
    parseAccess (accessName access) = .ok access := by
  cases access <;> rfl

/-- What `LauncherFailure::new` rejects. -/
def errorCodeMalformed (errorCode : String) : Prop :=
  errorCode.isEmpty = true ∨ 128 < (Utf8.bytes errorCode).length ∨ containsByte errorCode 0 = true

instance (errorCode : String) : Decidable (errorCodeMalformed errorCode) :=
  inferInstanceAs (Decidable (_ ∨ _))

/-- `LauncherError::code`. -/
def LauncherError.code : LauncherError → String
  | .unsupportedOperatingSystem => "launcher.os.unsupported"
  | .channelCreationFailed => "launcher.channel.creation-failed"
  | .channelReadFailed => "launcher.channel.read-failed"
  | .channelTimeout => "launcher.channel.timeout"
  | .channelWriteFailed => "launcher.channel.write-failed"
  | .pauseFailed => "launcher.pause.failed"
  | .eof => "launcher.protocol.eof"
  | .truncated => "launcher.protocol.truncated"
  | .frameTooLarge => "launcher.protocol.frame-too-large"
  | .malformed => "launcher.protocol.malformed"
  | .nonCanonical => "launcher.protocol.non-canonical"
  | .duplicateKey => "launcher.protocol.duplicate-key"
  | .trailingData => "launcher.protocol.trailing-data"
  | .unsupportedVersion => "launcher.protocol.unsupported-version"
  | .policyIdentityMismatch => "launcher.identity.policy-mismatch"
  | .cgroupIdentityMismatch => "launcher.identity.cgroup-mismatch"
  | .executionIdentityMismatch => "launcher.identity.execution-mismatch"
  | .seccompProgramMismatch => "launcher.identity.seccomp-program-mismatch"
  | .fileDescriptorInvalid => "launcher.file-descriptor.invalid"
  | .executableIdentityMismatch => "launcher.identity.executable-mismatch"
  | .privilegeInstallationFailed => "launcher.privileges.installation-failed"
  | .landlockInstallationFailed => "launcher.landlock.installation-failed"
  | .seccompInstallationFailed => "launcher.seccomp.installation-failed"
  | .workingDirectoryFailed => "launcher.working-directory.failed"
  | .execPermissionDenied => "launcher.exec.permission-denied"
  | .execOperationNotPermitted => "launcher.exec.operation-not-permitted"
  | .execNotFound => "launcher.exec.not-found"
  | .execFormatInvalid => "launcher.exec.format-invalid"
  | .execFailed => "launcher.exec.failed"
  | .boundaryNotInstalled => "launcher.sequence.boundary-not-installed"
  | .acknowledgementMissing => "launcher.sequence.acknowledgement-missing"
  | .execReleaseMissing => "launcher.sequence.exec-release-missing"
  | .unexpectedMessage => "launcher.sequence.unexpected-message"

theorem LauncherError.code_wellFormed (error : LauncherError) :
    ¬errorCodeMalformed error.code := by
  cases error <;> decide

structure LauncherFailure where
  identity : LauncherIdentity
  stage : LauncherStage
  errorCode : String
  valid : ¬errorCodeMalformed errorCode
deriving DecidableEq

def LauncherFailure.new (identity : LauncherIdentity) (stage : LauncherStage)
    (errorCode : String) : Except LauncherError LauncherFailure :=
  if h : errorCodeMalformed errorCode then .error .malformed
  else .ok ⟨identity, stage, errorCode, h⟩

@[simp] theorem LauncherFailure.new_self (failure : LauncherFailure) :
    new failure.identity failure.stage failure.errorCode = .ok failure :=
  dif_neg failure.valid

structure BoundaryInstalled where
  identity : LauncherIdentity
deriving DecidableEq

structure ExecRelease where
  identity : LauncherIdentity
deriving DecidableEq

def ExecRelease.verify (self : ExecRelease) (expected : LauncherIdentity) :
    Except LauncherError Unit :=
  self.identity.verify expected

inductive LauncherMessage where
  | install (request : InstallRequest)
  | boundaryInstalled (installed : BoundaryInstalled)
  | execRelease (release : ExecRelease)
  | failure (failure : LauncherFailure)
deriving DecidableEq

end ProofboundRuntime.Launcher
