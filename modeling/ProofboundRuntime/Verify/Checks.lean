import ProofboundRuntime.Verify.Identity

/-!
# What the checks of the verifier check

One equivalence for each check of `identity.rs` that has a loop or a search:
what holds of a receipt exactly when the check passes.
-/

namespace ProofboundRuntime.Verify

open Result Sorting

/-! ## Sets and lists -/

instance : Std.TransCmp artifactOrder :=
  inferInstanceAs (Std.TransCmp (compareLex (compareOn WireArtifact.role)
    (compareLex (compareOn fun artifact : WireArtifact => Utf8.bytes artifact.sha256)
      (compareLex (compareOn sizeValue) (compareOn WireArtifact.mode)))))

instance : Std.TransCmp tcbCmp :=
  inferInstanceAs (Std.TransCmp (compareLex (compareOn Prod.fst)
    (compareOn fun entry : TcbRole × String => Utf8.bytes entry.2)))

theorem isGE_eq_false {o : Ordering} : o.isGE = false ↔ o = .lt := by
  cases o <;> simp

theorem validateStringSet_eq_ok {values : List String} :
    validateStringSet values = .ok () ↔ (∀ value ∈ values, value ≠ "") ∧
      Strict Utf8.cmp values := by
  rw [validateStringSet, rejectIf_eq_ok, not_or, Bool.not_eq_true, Bool.not_eq_true,
    strict_iff_windowsAny fun _ _ => isGE_eq_false]
  simp

theorem validateArtifacts_eq_ok {roleAllowed : WireArtifactRole → Bool}
    {artifacts : List WireArtifact} :
    validateArtifacts roleAllowed artifacts = .ok () ↔
      ∀ artifact ∈ artifacts, validateArtifact artifact = .ok () ∧
        roleAllowed artifact.role = true := by
  induction artifacts with
  | nil => simp [validateArtifacts]
  | cons artifact artifacts ih =>
    simp only [validateArtifacts, check_bind_eq_ok, rejectIf_eq_ok, Bool.not_eq_false, ih,
      List.forall_mem_cons, and_assoc]

instance : Std.LawfulEqOrd WireArtifactRole where
  eq_of_compare {a b} h := by cases a <;> cases b <;> first | rfl | cases h

/-- Artifacts are in the order of role, digest, size and mode. -/
def WireArtifact.Before (left right : WireArtifact) : Prop :=
  let size (artifact : WireArtifact) := Decimal.value (Utf8.bytes artifact.size)
  compare left.role right.role = .lt ∨ left.role = right.role ∧
    (Utf8.cmp left.sha256 right.sha256 = .lt ∨ left.sha256 = right.sha256 ∧
      (size left < size right ∨ size left = size right ∧ left.mode < right.mode))

theorem sizeValue_of_validateArtifact {artifact : WireArtifact}
    (h : validateArtifact artifact = .ok ()) :
    sizeValue artifact = Decimal.value (Utf8.bytes artifact.size) := by
  simp only [validateArtifact, bind_eq_ok] at h
  obtain ⟨_, -, size, hsize, -⟩ := h
  rw [sizeValue, hsize]
  simp only [parseDecimal, check_bind_eq_ok, pure_eq_ok] at hsize
  exact hsize.2.2.symm

theorem strict_artifactOrder_iff {artifacts : List WireArtifact}
    (h : ∀ artifact ∈ artifacts, validateArtifact artifact = .ok ()) :
    Strict artifactOrder artifacts ↔ artifacts.Pairwise WireArtifact.Before := by
  refine List.Pairwise.iff_of_mem fun hleft hright => ?_
  simp only [artifactOrder, sizeValue_of_validateArtifact, h _ hleft, h _ hright,
    Ordering.then_eq_lt, WireArtifact.Before, Std.LawfulEqCmp.compare_eq_iff_eq,
    Std.compare_eq_lt]

/-- A list of artifacts passes exactly when every artifact does and the list is
strictly increasing. -/
theorem validateArtifactList_eq_ok {roleAllowed : WireArtifactRole → Bool}
    {artifacts : List WireArtifact} :
    validateArtifactList artifacts roleAllowed = .ok () ↔
      (∀ artifact ∈ artifacts, validateArtifact artifact = .ok () ∧
        roleAllowed artifact.role = true) ∧ artifacts.Pairwise WireArtifact.Before := by
  have horder : ∀ left right, (artifactOrder left right != .lt) = false ↔
      artifactOrder left right = .lt := by
    simp
  simp only [validateArtifactList, check_bind_eq_ok, validateArtifacts_eq_ok, rejectIf_eq_ok,
    Bool.not_eq_true, strict_iff_windowsAny horder]
  exact and_congr_right fun h => strict_artifactOrder_iff fun artifact ha => (h artifact ha).1

/-- In a strictly increasing list binary search finds what is there. -/
theorem requireAssumptions_eq_ok {assumptions required : List String}
    (hstrict : Strict Utf8.cmp assumptions) :
    requireAssumptions assumptions required = .ok () ↔ ∀ r ∈ required, r ∈ assumptions := by
  induction required with
  | nil => simp [requireAssumptions]
  | cons r required ih =>
    simp only [requireAssumptions, check_bind_eq_ok, rejectIf_eq_ok,
      not_isNone_binarySearchBy hstrict, ih,
      List.forall_mem_cons]

/-! ## The trusted computing base -/

def TcbRole.asStr : TcbRole → String
  | .hostHardwareFirmware => "host-hardware-firmware"
  | .linuxKernel => "linux-kernel"
  | .landlock => "landlock"
  | .seccomp => "seccomp"
  | .cgroupV2 => "cgroup-v2"
  | .noNewPrivileges => "no-new-privileges"
  | .filesystem => "filesystem"
  | .runtimeBinary => "runtime-binary"
  | .launcherBinary => "launcher-binary"
  | .rustToolchain => "rust-toolchain"
  | .cryptographicDigest => "cryptographic-digest"
  | .runtimeExecutable => "runtime-executable"
  | .runtimeLoaderExecutable => "runtime-loader-executable"
  | .runtimeLibrary => "runtime-library"

variable {role : TcbRole}

@[simp] theorem parseTcbRole_eq_ok {entry : WireTcbEntry} :
    parseTcbRole entry = .ok role ↔ entry.role = role.asStr := by
  constructor
  · intro h
    unfold parseTcbRole at h
    split at h <;> cases h <;> assumption
  · intro h
    rw [parseTcbRole, h]
    cases role <;> rfl

theorem TcbRole.asStr_injective : Function.Injective TcbRole.asStr := by
  intro role role' h
  have hrole : parseTcbRole ⟨role.asStr, ""⟩ = .ok role := parseTcbRole_eq_ok.mpr rfl
  have hrole' : parseTcbRole ⟨role.asStr, ""⟩ = .ok role' := parseTcbRole_eq_ok.mpr h
  exact Except.ok.inj (hrole.symm.trans hrole')

/-- The roles that the inventory of a receipt must have. -/
def requiredTcbRoles (wire : WireReceipt) : List TcbRole :=
  alwaysRequiredTcbRoles ++
    (if wire.command.loader.isSome then [.runtimeLoaderExecutable] else []) ++
    (if wire.inputs.any fun artifact => artifact.role == .runtimeLibrary then [.runtimeLibrary]
      else [])

theorem parseTcbEntries_eq_ok {entries : List WireTcbEntry} {parsed : List (TcbRole × String)} :
    parseTcbEntries entries = .ok parsed ↔
      entries = parsed.map (fun e => ⟨e.1.asStr, e.2⟩) ∧ ∀ e ∈ parsed, e.2 ≠ "" := by
  refine collect_eq_ok_iff_eq_map fun {entry e} => ?_
  cases entry
  cases e
  simp only [rejectIf_eq_ok, bind_eq_ok, exists_const, parseTcbRole_eq_ok, pure_eq_ok,
    Prod.mk.injEq, WireTcbEntry.mk.injEq]
  constructor
  · rintro ⟨hne, role, hrole, rfl, rfl⟩
    exact ⟨⟨hrole, rfl⟩, hne⟩
  · rintro ⟨⟨hrole, rfl⟩, hne⟩
    exact ⟨hne, _, hrole, rfl, rfl⟩

variable {entries : List (TcbRole × String)}

theorem requireTcbRole_eq_ok :
    requireTcbRole entries role = .ok () ↔ ∃ e ∈ entries, e.1 = role := by
  rw [requireTcbRole, rejectIf_eq_ok, Bool.not_eq_false, List.any_eq_true]
  simp only [beq_iff_eq]

theorem requireTcbRoles_eq_ok {roles : List TcbRole} :
    requireTcbRoles entries roles = .ok () ↔ ∀ role ∈ roles, ∃ e ∈ entries, e.1 = role := by
  induction roles with
  | nil => simp [requireTcbRoles]
  | cons role roles ih =>
    rw [requireTcbRoles, check_bind_eq_ok, requireTcbRole_eq_ok, ih, List.forall_mem_cons]

theorem requireTcbRoleIf_eq_ok {condition : Bool} :
    requireTcbRoleIf condition entries role = .ok () ↔
      ∀ r ∈ (if condition then [role] else []), ∃ e ∈ entries, e.1 = r := by
  unfold requireTcbRoleIf
  split
  · rw [requireTcbRole_eq_ok, List.forall_mem_singleton]
  · simp

/-- The inventory passes exactly when its entries have known roles and are
strictly increasing, and every required role is there. -/
theorem validateTcb_eq_ok {wire : WireReceipt} :
    validateTcb wire = .ok () ↔ wire.trustedComputingBase ≠ [] ∧
      ∃ parsed : List (TcbRole × String),
        (wire.trustedComputingBase = parsed.map (fun e => ⟨e.1.asStr, e.2⟩) ∧
          ∀ e ∈ parsed, e.2 ≠ "") ∧ Strict tcbCmp parsed ∧
          ∀ role ∈ requiredTcbRoles wire, ∃ e ∈ parsed, e.1 = role := by
  rw [validateTcb, check_bind_eq_ok, rejectIf_eq_ok, bind_eq_ok]
  simp only [check_bind_eq_ok, parseTcbEntries_eq_ok, rejectIf_eq_ok, Bool.not_eq_true,
    strict_iff_windowsAny fun _ _ => isGE_eq_false, requireTcbRoles_eq_ok,
    requireTcbRoleIf_eq_ok, requiredTcbRoles, List.forall_mem_append, and_assoc]

/-! ## Eligibility -/

/-- What a receipt with the derived eligibility records. -/
def EligibilityDecision.recorded : EligibilityDecision → RecordedEligibility
  | .reusable => .reusable
  | .nonReusable reasons => .nonReusable (reasons.map reasonFromFailure)

theorem validateEligibility_eq_ok {d : DecodedReceipt} :
    validateEligibility d = .ok () ↔
      d.recordedEligibility = (deriveEligibility d.eligibilityInput).recorded := by
  unfold validateEligibility
  cases d.recordedEligibility <;> cases deriveEligibility d.eligibilityInput <;>
    simp [EligibilityDecision.recorded]

end ProofboundRuntime.Verify
