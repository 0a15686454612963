import ProofboundRuntime.Lib.Program
import ProofboundRuntime.Linux.Seccomp
import ProofboundRuntime.Launcher.Message

/-!
# The launcher

`run_launcher` of `launcher.rs` on a system that answers as it likes: any message is received,
and any operation fails.  An `execveat` comes after the complete launch of a verified request
(`Guarded`), and a failure is reported (`Reported`).
-/

namespace ProofboundRuntime.Launcher.Run

open ProofboundRuntime.Core ProofboundRuntime.Linux Program Result

/-! ## The system -/

inductive PrivilegeError where
  | unsupportedOperatingSystem
  | inspectionUnavailable
  | rootIdentity
  | identityMismatch
  | identityDrift
  | ambientClearFailed
  | capabilityDropFailed
  | capabilityVerificationFailed
  | noNewPrivilegesInstallFailed
  | noNewPrivilegesVerificationFailed

/-- The operations of the launcher. -/
inductive Call where
  | pauseCurrentProcess
  | receive
  | send (message : LauncherMessage)
  | markDeclaredDescriptorsCloseOnExec (descriptors : List Int32)
  | revalidateInheritedExecutable (descriptor : UInt32) (expected : ArtifactIdentity)
  | closeDescriptorsExcept (keep : List Int32)
  | lockPrivileges
  | duplicateRuleDescriptors (descriptors : List Int32)
  | installLandlock (abi : UInt32) (rules : List (Int32 × LandlockAccess))
  | installDenyNetwork (architecture : Architecture)
  | changeDirectory (descriptor : Int32)
  | execveat (descriptor : Int32) (arguments environment : List (List UInt8))

/-- The error of `execveat` is its number. -/
abbrev Failure : Call → Type
  | .receive | .send _ => LauncherError
  | .lockPrivileges => PrivilegeError
  | .installDenyNetwork _ => SeccompError
  | .execveat .. => Option Int32
  | _ => Unit

/-- A boundary of seccomp is its program. -/
abbrev Value : Call → Type
  | .receive => LauncherMessage
  | .duplicateRuleDescriptors _ => List Int32
  | .installDenyNetwork _ => List UInt8
  | _ => Unit

abbrev Answer (c : Call) : Type := Except (Failure c) (Value c)

abbrev Launching := Program Call Answer LauncherError

abbrev Past := History Call Answer

/-- A call whose value is checked. -/
def ask {α : Type} (c : Call) (check : Value c → Except (Failure c) α) :
    Program Call Answer (Failure c) α := do
  lift ((← perform c) >>= check)

/-! ## The sequence of a launch -/

inductive SequenceState where
  | installValidated
  | boundariesInstalled
  | acknowledged
  | execReleased
  | execAuthorized

inductive SequenceEvent where
  | boundariesInstalled
  | acknowledgementEmitted
  | execReleaseValidated
  | execAuthorized

def advanceSequence : SequenceState → SequenceEvent → Except LauncherError SequenceState
  | .installValidated, .boundariesInstalled => .ok .boundariesInstalled
  | .boundariesInstalled, .acknowledgementEmitted => .ok .acknowledged
  | .acknowledged, .execReleaseValidated => .ok .execReleased
  | .execReleased, .execAuthorized => .ok .execAuthorized
  | .installValidated, .acknowledgementEmitted => .error .boundaryNotInstalled
  | .installValidated, .execAuthorized | .boundariesInstalled, .execAuthorized =>
    .error .acknowledgementMissing
  | .acknowledged, .execAuthorized => .error .execReleaseMissing
  | _, _ => .error .unexpectedMessage

/-- The types from `PreparedLauncher` to `ExecAuthorization`, which have these fields. -/
structure Launch where
  request : InstallRequest
  sequence : SequenceState

def receiveInstallRequest (expected : LauncherIdentity) : Launching Launch :=
  ask .receive fun message => do
    let .install request := message | .error .unexpectedMessage
    request.identity.verify expected
    pure ⟨request, .installValidated⟩

namespace Launch

def advance (self : Launch) (event : SequenceEvent) : Except LauncherError Launch := do
  pure ⟨self.request, ← advanceSequence self.sequence event⟩

def recordBoundaryInstalled (self : Launch) (program : List UInt8) :
    Except LauncherError Launch := do
  rejectIf (self.request.seccompProgram ≠ program) .seccompProgramMismatch
  self.advance .boundariesInstalled

def acknowledge (self : Launch) : Launching Launch :=
  ask (.send (.boundaryInstalled ⟨self.request.identity⟩)) fun _ =>
    self.advance .acknowledgementEmitted

def receiveExecRelease (self : Launch) : Launching Launch :=
  ask .receive fun message => do
    let .execRelease release := message | .error .unexpectedMessage
    release.verify self.request.identity
    self.advance .execReleaseValidated

def authorizeExec (self : Launch) : Except LauncherError Launch := self.advance .execAuthorized

end Launch

/-! ## The launcher -/

/-- `CString::new` for each text. -/
def cStrings : List String → Except LauncherError (List (List UInt8)) :=
  collect fun value => do
    rejectIf (containsByte value 0) .malformed
    pure (Utf8.bytes value)

def buildArguments (request : InstallRequest) : Except LauncherError (List (List UInt8)) :=
  cStrings request.arguments

def buildEnvironment (request : InstallRequest) : Except LauncherError (List (List UInt8)) :=
  cStrings (request.environment.toList.map fun (name, value) => name ++ "=" ++ value)

def ruleDescriptors (request : InstallRequest) : List Int32 :=
  request.filesystem.map (·.descriptor.toInt32)

def declaredDescriptors (request : InstallRequest) : List Int32 :=
  request.executableFd.toInt32 :: request.workingDirectoryFd.toInt32 :: ruleDescriptors request

def landlockRules (request : InstallRequest) (duplicates : List Int32) :
    List (Int32 × LandlockAccess) :=
  (duplicates.zip request.filesystem).flatMap fun (copy, rule) => rule.access.map (copy, ·)

def stageForProtocolError : LauncherError → LauncherStage
  | .policyIdentityMismatch | .cgroupIdentityMismatch | .executionIdentityMismatch
  | .executableIdentityMismatch | .seccompProgramMismatch => .identity
  | _ => .decode

def privilegeStage : PrivilegeError → LauncherStage
  | .noNewPrivilegesInstallFailed | .noNewPrivilegesVerificationFailed => .noNewPrivileges
  | _ => .privileges

/-- The errors of `execveat` by their numbers. -/
def execError : Option Int32 → LauncherError
  | some 13 => .execPermissionDenied
  | some 1 => .execOperationNotPermitted
  | some 2 => .execNotFound
  | some 8 => .execFormatInvalid
  | _ => .execFailed

/-- The arguments of `run_launcher` and the numbers of the denied system calls. -/
structure Setup where
  channel : Int32
  expected : LauncherIdentity
  architecture : Architecture
  landlockAbi : UInt32
  numbers : List UInt32

namespace Setup

variable (s : Setup)

def reportFailure {α : Type} (stage : LauncherStage) (error : LauncherError) : Launching α :=
  match LauncherFailure.new s.expected stage error.code with
  | .ok failure => do
    let _ ← perform (.send (.failure failure))
    fail error
  | .error _ => fail error

/-- `map_err` with `report_failure`. -/
def reporting {ε α : Type} (stage : ε → LauncherStage) (error : ε → LauncherError)
    (x : Program Call Answer ε α) : Launching α :=
  x.onError fun e => s.reportFailure (stage e) (error e)

def check {α : Type} (stage : LauncherStage) (x : Except LauncherError α) : Launching α :=
  s.reporting (fun _ => stage) id (lift x)

def call (stage : LauncherStage) (error : LauncherError) (c : Call) : Launching (Value c) :=
  s.reporting (fun _ => stage) (fun _ => error) (ask c .ok)

def runLauncher : Launching Unit := do
  (ask .pauseCurrentProcess .ok).onError fun _ => fail .pauseFailed
  let prepared ← s.reporting stageForProtocolError id (receiveInstallRequest s.expected)
  let request := prepared.request
  s.check .fileDescriptors (rejectIf (s.channel < 0) .fileDescriptorInvalid)
  let program ← s.reporting (fun _ => .seccomp) (fun _ => .seccompInstallationFailed)
    (lift (compileDenyNetworkProgram s.numbers s.architecture))
  s.check .identity (rejectIf (request.seccompProgram ≠ program) .seccompProgramMismatch)
  s.call .fileDescriptors .fileDescriptorInvalid
    (.markDeclaredDescriptorsCloseOnExec (declaredDescriptors request))
  s.call .identity .executableIdentityMismatch
    (.revalidateInheritedExecutable request.executableFd request.executableId)
  let arguments ← s.check .exec (buildArguments request)
  let environment ← s.check .exec (buildEnvironment request)
  s.call .fileDescriptors .fileDescriptorInvalid
    (.closeDescriptorsExcept (declaredDescriptors request ++ [s.channel]))
  s.reporting privilegeStage (fun _ => .privilegeInstallationFailed) (ask .lockPrivileges .ok)
  let duplicates ← s.call .fileDescriptors .fileDescriptorInvalid
    (.duplicateRuleDescriptors (ruleDescriptors request))
  s.call .landlock .landlockInstallationFailed
    (.installLandlock s.landlockAbi (landlockRules request duplicates))
  let seccomp ← s.call .seccomp .seccompInstallationFailed (.installDenyNetwork s.architecture)
  let installed ← s.check .acknowledgement (prepared.recordBoundaryInstalled seccomp)
  let acknowledged ← s.reporting (fun _ => .acknowledgement) id installed.acknowledge
  let released ← s.reporting (fun _ => .exec) id acknowledged.receiveExecRelease
  let authorization ← s.check .exec released.authorizeExec
  let request := authorization.request
  s.call .identity .executableIdentityMismatch
    (.revalidateInheritedExecutable request.executableFd request.executableId)
  s.call .exec .workingDirectoryFailed (.changeDirectory request.workingDirectoryFd.toInt32)
  s.reporting (fun _ => .exec) execError
    (ask (.execveat request.executableFd.toInt32 arguments environment) .ok)
  pure ()

/-! ## What precedes `execveat` -/

/-- The calls of a complete launch of a request. -/
def launch (request : InstallRequest) (duplicates : List Int32) : Past := [
  ⟨.pauseCurrentProcess, .ok ()⟩,
  ⟨.receive, .ok (.install request)⟩,
  ⟨.markDeclaredDescriptorsCloseOnExec (declaredDescriptors request), .ok ()⟩,
  ⟨.revalidateInheritedExecutable request.executableFd request.executableId, .ok ()⟩,
  ⟨.closeDescriptorsExcept (declaredDescriptors request ++ [s.channel]), .ok ()⟩,
  ⟨.lockPrivileges, .ok ()⟩,
  ⟨.duplicateRuleDescriptors (ruleDescriptors request), .ok duplicates⟩,
  ⟨.installLandlock s.landlockAbi (landlockRules request duplicates), .ok ()⟩,
  ⟨.installDenyNetwork s.architecture, .ok request.seccompProgram⟩,
  ⟨.send (.boundaryInstalled ⟨request.identity⟩), .ok ()⟩,
  ⟨.receive, .ok (.execRelease ⟨request.identity⟩)⟩,
  ⟨.revalidateInheritedExecutable request.executableFd request.executableId, .ok ()⟩,
  ⟨.changeDirectory request.workingDirectoryFd.toInt32, .ok ()⟩]

/-- An `execveat` is the one of a launched request. -/
def Guarded : Past → Prop
  | ⟨.execveat descriptor arguments environment, _⟩ :: past => ∃ request duplicates,
    past = (s.launch request duplicates).reverse ∧ request.identity = s.expected ∧
    compileDenyNetworkProgram s.numbers s.architecture = .ok request.seccompProgram ∧
    descriptor = request.executableFd.toInt32 ∧
    buildArguments request = .ok arguments ∧ buildEnvironment request = .ok environment
  | _ => True

/-- The last call reports an error other than of the pause. -/
def Reported (result : Except LauncherError Unit) (past : Past) : Prop :=
  ∀ e, result = .error e → e ≠ .pauseFailed → ∃ stage sent, past.head? =
    some ⟨.send (.failure ⟨s.expected, stage, e.code, e.code_wellFormed⟩), sent⟩

abbrev Safe (answer : Past → (c : Call) → Answer c) : Launching Unit → Past → Prop :=
  Throughout (record answer) s.Guarded s.Reported

variable {s} {answer : Past → (c : Call) → Answer c} {past : Past} {ε α : Type}
  {f : α → Launching Unit} {stage : ε → LauncherStage} {error : ε → LauncherError}

theorem safe_reporting {x : Program Call Answer ε α}
    (h : Throughout (record answer) s.Guarded (fun result past =>
      s.Guarded past ∧ ∀ a, result = .ok a → s.Safe answer (f a) past) x past) :
    s.Safe answer (s.reporting stage error x >>= f) past := by
  rw [Safe, throughout_bind, reporting, onError, throughout_attempt_bind]
  obtain ⟨hall, hlast, hok⟩ := h
  refine ⟨hall, ?_⟩
  cases hresult : (run (record answer) x past).1 with
  | ok a => exact (throughout_pure a).mpr ⟨hlast, hok a hresult⟩
  | error e =>
    show Throughout _ _ _ (s.reportFailure (stage e) (error e)) _
    unfold reportFailure LauncherFailure.new
    rw [dif_neg (error e).code_wellFormed]
    refine throughout_call.mpr ⟨hlast, (throughout_fail _).mpr ⟨trivial, ?_⟩⟩
    intro e' he' _
    cases he'
    exact ⟨_, _, rfl⟩

theorem safe_lift {x : Except ε α} (h : ∀ a, x = .ok a → s.Safe answer (f a) past)
    (hpast : s.Guarded past := by trivial) :
    s.Safe answer (s.reporting stage error (lift x) >>= f) past :=
  safe_reporting ((throughout_done x).mpr ⟨hpast, hpast, h⟩)

variable {c : Call} {stage : Failure c → LauncherStage} {error : Failure c → LauncherError}

theorem safe_ask {check : Value c → Except (Failure c) α}
    (h : ∀ v a, check v = .ok a → s.Safe answer (f a) (⟨c, .ok v⟩ :: past))
    (hpast : s.Guarded past := by trivial)
    (hcall : ∀ a, s.Guarded (⟨c, a⟩ :: past) := by exact fun _ => trivial) :
    s.Safe answer (s.reporting stage error (ask c check) >>= f) past := by
  refine safe_reporting (throughout_call.mpr ⟨hpast, (throughout_done _).mpr
    ⟨hcall _, hcall _, ?_⟩⟩)
  intro a ha
  obtain ⟨v, hv, hcheck⟩ := bind_eq_ok.mp ha
  have hnext := h v a hcheck
  rwa [← hv] at hnext

theorem safe_call {f : Value c → Launching Unit}
    (h : ∀ v, s.Safe answer (f v) (⟨c, .ok v⟩ :: past)) (hpast : s.Guarded past := by trivial)
    (hcall : ∀ a, s.Guarded (⟨c, a⟩ :: past) := by exact fun _ => trivial) :
    s.Safe answer (s.reporting stage error (ask c .ok) >>= f) past :=
  safe_ask (fun v _ hv => Except.ok.inj hv ▸ h v) hpast hcall

theorem verify_eq_ok {self expected : LauncherIdentity} {u : Unit} :
    self.verify expected = .ok u ↔ self = expected := by
  cases self
  cases expected
  simp [LauncherIdentity.verify]

/-- Whatever the answers are, the launcher is safe. -/
theorem safe_runLauncher : s.Safe answer s.runLauncher [] := by
  refine throughout_call.mpr ⟨trivial, ?_⟩
  dsimp only [record]
  cases answer [] .pauseCurrentProcess with
  | error e =>
    refine (throughout_done _).mpr ⟨trivial, ?_⟩
    intro e he hpause
    cases he
    exact (hpause rfl).elim
  | ok _ =>
  -- from here on the request is verified
  refine safe_ask fun message prepared hprepared => ?_
  obtain ⟨request, rfl, hidentity, rfl⟩ : ∃ request, message = .install request ∧
      request.identity = s.expected ∧ prepared = ⟨request, .installValidated⟩ := by
    cases message <;> simp [verify_eq_ok] at hprepared ⊢
    exact ⟨hprepared.1, hprepared.2.symm⟩
  refine safe_lift fun _ _ => safe_lift fun program hprogram => safe_lift fun _ hsame => ?_
  rw [rejectIf_eq_ok, not_not] at hsame
  subst hsame
  refine safe_call fun _ => safe_call fun _ => ?_
  refine safe_lift fun arguments harguments => safe_lift fun environment henvironment => ?_
  refine safe_call fun _ => safe_call fun _ => safe_call fun duplicates => ?_
  refine safe_call fun _ => safe_call fun seccomp => safe_lift fun installed hinstalled => ?_
  obtain ⟨rfl, rfl⟩ : request.seccompProgram = seccomp ∧
      installed = ⟨request, .boundariesInstalled⟩ := by
    simp [Launch.recordBoundaryInstalled, Launch.advance, advanceSequence] at hinstalled
    exact ⟨hinstalled.1, hinstalled.2.symm⟩
  refine safe_ask fun _ acknowledged hacknowledged => ?_
  cases hacknowledged
  refine safe_ask fun message released hreleased => ?_
  obtain ⟨rfl, rfl⟩ : message = .execRelease ⟨request.identity⟩ ∧
      released = ⟨request, .execReleased⟩ := by
    cases message <;> simp [ExecRelease.verify, verify_eq_ok, Launch.advance, advanceSequence]
      at hreleased ⊢
    exact ⟨congrArg ExecRelease.mk hreleased.1, hreleased.2.symm⟩
  refine safe_lift fun authorization hauthorization => ?_
  cases hauthorization
  have hguarded : ∀ result, s.Guarded (⟨.execveat request.executableFd.toInt32 arguments
      environment, result⟩ :: (s.launch request duplicates).reverse) := fun _ =>
    ⟨request, duplicates, rfl, hidentity, hprogram, rfl, harguments, henvironment⟩
  refine safe_call fun _ => safe_call fun _ => safe_call (fun _ => ?_) trivial hguarded
  exact (throughout_pure ()).mpr ⟨hguarded _, by simp [Reported]⟩

/-- A system that lets the request through. -/
def granting (request : InstallRequest) (past : Past) : (c : Call) → Answer c
  | .receive =>
    .ok (if past.length ≤ 1 then .install request else .execRelease ⟨request.identity⟩)
  | .duplicateRuleDescriptors descriptors => .ok descriptors
  | .installDenyNetwork _ => .ok request.seccompProgram
  | .pauseCurrentProcess | .send _ | .markDeclaredDescriptorsCloseOnExec _
  | .revalidateInheritedExecutable .. | .closeDescriptorsExcept _ | .lockPrivileges
  | .installLandlock .. | .changeDirectory _ | .execveat .. => .ok ()

theorem cStrings_of_forall {texts : List String} (h : ∀ text ∈ texts, ¬containsByte text 0 = true) :
    ∃ strings, cStrings texts = .ok strings := by
  refine exists_collect fun text htext => ⟨Utf8.bytes text, ?_⟩
  rw [rejectIf_false (h text htext)]
  rfl

/-- A request that is let through is executed. -/
theorem run_granting (request : InstallRequest) (hidentity : request.identity = s.expected)
    (hchannel : ¬s.channel < 0)
    (hprogram : compileDenyNetworkProgram s.numbers s.architecture = .ok request.seccompProgram) :
    ∃ arguments environment, run (record (granting request)) s.runLauncher [] =
      (.ok (), ⟨.execveat request.executableFd.toInt32 arguments environment, .ok ()⟩ ::
        (s.launch request (ruleDescriptors request)).reverse) := by
  obtain ⟨harguments, henvironment⟩ := not_or.mp request.texts
  simp only [List.any_eq_true, not_exists, not_and] at harguments
  obtain ⟨arguments, harguments⟩ : ∃ arguments, buildArguments request = .ok arguments :=
    cStrings_of_forall harguments
  obtain ⟨environment, henvironment⟩ : ∃ environment, buildEnvironment request = .ok environment := by
    refine cStrings_of_forall fun text htext => ?_
    obtain ⟨⟨name, value⟩, hmem, rfl⟩ := List.mem_map.mp htext
    simp only [List.any_eq_true, not_exists, not_and, Bool.or_eq_true, not_or, containsByte,
      List.contains_iff_mem] at henvironment
    obtain ⟨⟨⟨-, hname⟩, -⟩, hvalue⟩ := henvironment (name, value) hmem
    simp only [containsByte, List.contains_iff_mem, Utf8.bytes_append, List.mem_append, not_or]
    exact ⟨⟨hname, by decide⟩, hvalue⟩
  have hverify : request.identity.verify s.expected = .ok () := verify_eq_ok.mpr hidentity
  have hsame : request.identity.verify request.identity = .ok () := verify_eq_ok.mpr rfl
  refine ⟨arguments, environment, ?_⟩
  simp [runLauncher, reporting, check, call, ask, onError, receiveInstallRequest, record, granting,
    run, perform, attempt, lift, Bind.bind, Program.bind, Except.bind, hverify, hsame,
    hprogram, rejectIf, hchannel, harguments, henvironment, Pure.pure,
    Launch.recordBoundaryInstalled, Launch.advance, advanceSequence, Launch.acknowledge,
    Launch.receiveExecRelease, ExecRelease.verify, Launch.authorizeExec, Except.pure, launch]

/-- A request to execute descriptor 3, with one denied system call. -/
def sampleRequest : InstallRequest where
  identity := sampleIdentity
  executableId := ⟨.runtimeExecutable, Vector.replicate 32 8, 4096, ⟨0o711, by decide⟩⟩
  executableFd := 3
  workingDirectoryFd := 4
  arguments := ["sh"]
  environment := .ofList [("PATH", "/bin")] _
  filesystem := [⟨3, [.read, .execute], by decide, by decide, by decide⟩]
  seccompProgram := (compileDenyNetworkProgram [41] .x86_64).toOption.getD []
  closeFileDescriptorsFrom := 5
  inRange := by decide +kernel
  strict := by decide
  rules := by decide
  texts := by decide +kernel

example : ∃ (s : Setup) (arguments environment : List (List UInt8)),
    run (record (granting sampleRequest)) s.runLauncher [] = (.ok (),
      ⟨.execveat 3 arguments environment, .ok ()⟩ :: (s.launch sampleRequest [3]).reverse) :=
  ⟨⟨5, sampleIdentity, .x86_64, 3, [41]⟩, run_granting sampleRequest rfl (by decide) rfl⟩

end Setup

end ProofboundRuntime.Launcher.Run
