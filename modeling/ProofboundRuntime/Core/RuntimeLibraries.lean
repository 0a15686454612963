import ProofboundRuntime.Lib.Lexical
import ProofboundRuntime.Core.Normalize
import ProofboundRuntime.Core.Plan

/-!
# Runtime-library paths of a plan

`append_runtime_library_paths` looks for `.` and `..` among the components of a path,
where repeated and trailing separators and inner `.` parts are gone already.  It keeps the
text, and the normaliser compares texts.  So two texts of one lexical path are two
authorities, unless every text is its own normal form: `runtimeLibraries_canonical_iff`.
The check of `NetworkSupportPath::new`, over the parts of the text, finds these texts.
-/

namespace ProofboundRuntime.Core.Plan

open Cbor Result

/-! ## What the parser reads -/

theorem lookup_eraseP_of_ne {key name : String} (hne : key ≠ name) (map : CborMap) :
    lookup (map.eraseP fun entry => entry.1 == key) name = lookup map name := by
  induction map with
  | nil => rfl
  | cons entry map ih =>
    obtain ⟨key', value⟩ := entry
    by_cases hkey : key' = key
    · have hfirst : ((key', value).1 == key) = true := beq_iff_eq.mpr hkey
      rw [List.eraseP_cons, hfirst, cond_true, lookup_cons, if_neg]
      exact fun heq => hne (hkey.symm.trans heq)
    · have hlater : ((key', value).1 == key) = false := beq_false_of_ne hkey
      rw [List.eraseP_cons, hlater, cond_false, lookup_cons, lookup_cons, ih]

variable {value : Value}

theorem take_eq_ok {map map' : CborMap} {key : String} :
    take map key = .ok (value, map') ↔ lookup map key = some value ∧
      (map.eraseP fun entry => entry.1 == key) = map' := by
  rw [take, bind_eq_ok]
  simp only [okOr_eq_ok, pure_eq_ok, Prod.mk.injEq]
  constructor
  · rintro ⟨value', hvalue, rfl, hmap⟩
    exact ⟨hvalue, hmap⟩
  · rintro ⟨hvalue, hmap⟩
    exact ⟨value, hvalue, rfl, hmap⟩

theorem takeAs_eq_ok {α : Type} {convert : Value → Except PlanError α} {map map' : CborMap}
    {key : String} {a : α} :
    takeAs convert map key = .ok (a, map') ↔ ∃ value, lookup map key = some value ∧
      convert value = .ok a ∧ (map.eraseP fun entry => entry.1 == key) = map' := by
  simp only [takeAs, bind_eq_ok, Prod.exists, take_eq_ok, pure_eq_ok, Prod.mk.injEq]
  constructor
  · rintro ⟨value, rest, ⟨hvalue, rfl⟩, a', ha, rfl, hmap⟩
    exact ⟨value, hvalue, ha, hmap⟩
  · rintro ⟨value, hvalue, ha, hmap⟩
    exact ⟨value, _, ⟨hvalue, rfl⟩, a, ha, rfl, hmap⟩

theorem cborMap_eq_ok {map : CborMap} : cborMap value = .ok map ↔ value = .map map := by
  cases value <;> simp [cborMap]

/-- What is under the key, when the item is a map. -/
def member (value : Value) (key : String) : Option Value :=
  match value with
  | .map entries => lookup entries key
  | _ => none

/-- The texts under `runtime_read` of the authority of a plan. -/
def runtimeReadTexts (input : List UInt8) : List String :=
  (do
    let plan ← (WireV2.decode input).toOption
    let authority ← member plan "authority"
    let runtimeRead ← member authority "runtime_read"
    (cborTextArray runtimeRead).toOption).getD []

theorem runtimeRead_of_parseAuthority {fields : AuthorityFields}
    (h : parseAuthority value = .ok fields) :
    ∃ runtimeRead, member value "runtime_read" = some runtimeRead ∧
      cborTextArray runtimeRead = .ok fields.runtimeRead := by
  simp only [parseAuthority, bind_eq_ok, cborMap_eq_ok, Prod.exists, takeAs_eq_ok,
    take_eq_ok] at h
  obtain ⟨entries, rfl, network, _, ⟨-, rfl⟩, _, _, ⟨_, -, -, rfl⟩, environment, -, read, _,
    ⟨_, -, -, rfl⟩, runtimeRead, _, ⟨value, hlookup, htexts, rfl⟩, write, _, ⟨_, -, -, rfl⟩,
    execute, _, ⟨_, -, -, rfl⟩, h⟩ := h
  rw [lookup_eraseP_of_ne (by decide), lookup_eraseP_of_ne (by decide),
    lookup_eraseP_of_ne (by decide)] at hlookup
  simp only [pure_eq_ok] at h
  obtain ⟨_, -, _, -, _, -, rfl⟩ := h
  exact ⟨value, hlookup, htexts⟩

/-- The paths of a plan without a service session come from the fields that were read. -/
theorem paths_of_parseExecutionPlanContractV2 {isIpAddr : String → Bool} {input : List UInt8}
    {plan : ExecutionPlan} (h : parseExecutionPlanContractV2 isIpAddr input = .ok (.deny plan)) :
    ∃ executable read write execute,
      planPaths executable read (runtimeReadTexts input) write execute =
        .ok plan.authority.paths := by
  simp only [parseExecutionPlanContractV2, bind_eq_ok, mapError_eq_ok, cborMap_eq_ok,
    Prod.exists, takeAs_eq_ok] at h
  obtain ⟨value, hdecode, root, rfl, schema, _, ⟨_, -, -, rfl⟩, _, -, id, _, ⟨_, -, -, rfl⟩,
    planId, -, command, _, ⟨_, -, -, rfl⟩, fields, _, ⟨authority, hlookup, hfields, rfl⟩,
    network, -, limits, _, ⟨_, -, -, rfl⟩, _, -, paths, hpaths, h⟩ := h
  rw [lookup_eraseP_of_ne (by decide), lookup_eraseP_of_ne (by decide),
    lookup_eraseP_of_ne (by decide)] at hlookup
  obtain ⟨runtimeRead, hruntimeRead, htexts⟩ := runtimeRead_of_parseAuthority hfields
  have hread : runtimeReadTexts input = fields.runtimeRead := by
    have hmember : member (.map root) "authority" = some authority := hlookup
    simp only [runtimeReadTexts, hdecode, Except.toOption, Option.bind_eq_bind, Option.bind_some,
      hmember, hruntimeRead, htexts, Option.getD_some]
  rw [pure_eq_ok] at h
  cases network with
  | deny =>
    cases h
    rw [hread]
    exact ⟨_, _, _, _, hpaths⟩
  | service session => cases h

/-! ## Runtime libraries among the paths -/

variable {entry : PathAuthority}

theorem role_of_mem_appendPaths {paths : List String} {access : FileAccess} {role : PathRole}
    {entries : List PathAuthority} (h : appendPaths paths access role = .ok entries)
    (hentry : entry ∈ entries) : entry.role = role := by
  obtain ⟨path, -, hpath⟩ := (mem_of_collect h).mp hentry
  simp only [bind_eq_ok, pure_eq_ok] at hpath
  obtain ⟨_, -, rfl⟩ := hpath
  rfl

theorem runtimeLibraryPath_eq_ok {text : String} (h : runtimeLibraryPath text = .ok entry) :
    entry.path.asStr = text ∧ entry.access = .read ∧ entry.role = .runtimeLibrary ∧
      Path.isAbsolute (Utf8.bytes text) = true := by
  simp only [runtimeLibraryPath, bind_eq_ok, orAuthority, mapError_eq_ok,
    AuthorityPath.new_eq_ok] at h
  obtain ⟨path, rfl, h⟩ := h
  simp only [rejectIf_eq_ok, pure_eq_ok, not_or] at h
  obtain ⟨_, ⟨habsolute, -⟩, rfl⟩ := h
  exact ⟨rfl, rfl, rfl, by simpa using habsolute⟩

/-- The runtime libraries of a plan are those whose texts were read. -/
theorem mem_runtimeLibraries {executable : AuthorityPath}
    {read runtimeRead write execute : List String} {paths : List PathAuthority}
    (h : planPaths executable read runtimeRead write execute = .ok paths) :
    entry ∈ paths ∧ entry.role = .runtimeLibrary ↔
      ∃ text ∈ runtimeRead, runtimeLibraryPath text = .ok entry := by
  simp only [planPaths, bind_eq_ok, pure_eq_ok] at h
  obtain ⟨readPaths, hread, libraries, hlibraries, writePaths, hwrite, executePaths, hexecute,
    _, -, rfl⟩ := h
  rw [← mem_of_collect hlibraries]
  simp only [List.mem_append]
  constructor
  · rintro ⟨((hmem | hmem) | hmem) | hmem, hrole⟩
    · simp [role_of_mem_appendPaths hread hmem] at hrole
    · exact hmem
    · simp [role_of_mem_appendPaths hwrite hmem] at hrole
    · simp [role_of_mem_appendPaths hexecute hmem] at hrole
  · intro hmem
    refine ⟨.inl (.inl (.inr hmem)), ?_⟩
    obtain ⟨text, -, htext⟩ := (mem_of_collect hlibraries).mp hmem
    exact (runtimeLibraryPath_eq_ok htext).2.2.1

/-- Every text that was read is that of a runtime library. -/
theorem exists_runtimeLibrary {executable : AuthorityPath}
    {read runtimeRead write execute : List String} {paths : List PathAuthority}
    (h : planPaths executable read runtimeRead write execute = .ok paths) {text : String}
    (htext : text ∈ runtimeRead) : ∃ entry, runtimeLibraryPath text = .ok entry := by
  simp only [planPaths, bind_eq_ok, pure_eq_ok] at h
  obtain ⟨_, -, libraries, hlibraries, -⟩ := h
  obtain ⟨entry, -, hentry⟩ := exists_of_collect hlibraries htext
  exact ⟨entry, hentry⟩

/-! ## Canonical authorities -/

/-- The path is absolute and its own lexical normal form. -/
def IsCanonicalPath (path : AuthorityPath) : Prop :=
  Path.isAbsolute (Utf8.bytes path.asStr) = true ∧
    Path.normalForm (Utf8.bytes path.asStr) = Utf8.bytes path.asStr

instance (path : AuthorityPath) : Decidable (IsCanonicalPath path) :=
  inferInstanceAs (Decidable (_ ∧ _))

/-- Every runtime library of a plan has a canonical path, and no two runtime libraries of
the normalized authority have one lexical path. -/
def RuntimeLibrariesCanonical (plan : AuthorityPlan) : Prop :=
  (∀ entry ∈ plan.paths, entry.role = .runtimeLibrary → IsCanonicalPath entry.path) ∧
  ∀ authority, normalizeAuthority plan = .ok authority →
    ∀ entry ∈ authority.paths, ∀ entry' ∈ authority.paths,
      entry.role = .runtimeLibrary → entry'.role = .runtimeLibrary → entry ≠ entry' →
        Path.normalForm (Utf8.bytes entry.path.asStr) ≠
          Path.normalForm (Utf8.bytes entry'.path.asStr)

theorem parseExecutionPlanForExecution_eq_ok {tomlFromStr : String → Option Toml}
    {isIpAddr : String → Bool} {input : List UInt8} {plan : ExecutionPlan}
    (h : parseExecutionPlanForExecution tomlFromStr isIpAddr input = .ok plan) :
    parseExecutionPlanContractV2 isIpAddr input = .ok (.deny plan) := by
  rw [parseExecutionPlanForExecution, check_bind_eq_ok, bind_eq_ok] at h
  obtain ⟨-, parsed, hparsed, h⟩ := h
  rw [hparsed]
  cases parsed with
  | deny plan' =>
    cases h
    rfl
  | service session => cases h

/-- The runtime libraries of a plan that is accepted are canonical exactly when every
text under `runtime_read` is one that `NetworkSupportPath::new` takes. -/
theorem runtimeLibraries_canonical_iff {tomlFromStr : String → Option Toml}
    {isIpAddr : String → Bool} {input : List UInt8} {plan : ExecutionPlan}
    (h : parseExecutionPlanForExecution tomlFromStr isIpAddr input = .ok plan) :
    RuntimeLibrariesCanonical plan.authority ↔
      ∀ text ∈ runtimeReadTexts input, NetworkSupportPath.accepts text = true := by
  obtain ⟨executable, read, write, execute, hpaths⟩ :=
    paths_of_parseExecutionPlanContractV2 (parseExecutionPlanForExecution_eq_ok h)
  constructor
  · rintro ⟨hcanonical, -⟩ text htext
    obtain ⟨entry, hentry⟩ := exists_runtimeLibrary hpaths htext
    obtain ⟨hmem, hrole⟩ := (mem_runtimeLibraries hpaths).mpr ⟨text, htext, hentry⟩
    have hpath := hcanonical entry hmem hrole
    rwa [IsCanonicalPath, (runtimeLibraryPath_eq_ok hentry).1, ← Path.isNormal_iff] at hpath
  · intro haccepts
    have hcanonical : ∀ entry ∈ plan.authority.paths, entry.role = .runtimeLibrary →
        IsCanonicalPath entry.path := by
      intro entry hmem hrole
      obtain ⟨text, htext, hentry⟩ := (mem_runtimeLibraries hpaths).mp ⟨hmem, hrole⟩
      rw [IsCanonicalPath, (runtimeLibraryPath_eq_ok hentry).1, ← Path.isNormal_iff]
      exact haccepts text htext
    refine ⟨hcanonical, ?_⟩
    intro authority hauthority entry hmem entry' hmem' hrole hrole' hne hsame
    obtain ⟨authority', hrun, hnormalized⟩ := isNormalized_normalizeAuthority plan.authority
    rw [hauthority] at hrun
    cases hrun
    rw [hnormalized.mem_paths] at hmem hmem'
    -- A canonical path is known from its normal form, and the rest is the same.
    rw [(hcanonical entry hmem hrole).2, (hcanonical entry' hmem' hrole').2] at hsame
    obtain ⟨text, -, hentry⟩ := (mem_runtimeLibraries hpaths).mp ⟨hmem, hrole⟩
    obtain ⟨text', -, hentry'⟩ := (mem_runtimeLibraries hpaths).mp ⟨hmem', hrole'⟩
    have htext : text = text' := by
      rw [← (runtimeLibraryPath_eq_ok hentry).1, ← (runtimeLibraryPath_eq_ok hentry').1]
      exact Utf8.bytes_inj.mp hsame
    rw [htext, hentry'] at hentry
    exact hne (Except.ok.inj hentry).symm

/-- A plan that denies the network, with these texts under `runtime_read`. -/
def samplePlanValue (runtimeRead : List String) : Value :=
  .map [
    ("schema", .text planSchemaV2),
    ("id", .text "sample"),
    ("command", .map [
      ("executable", .text "bin/tool"),
      ("working_directory", .text "."),
      ("arguments", .array [])]),
    ("authority", .map [
      ("network", .text "deny"),
      ("environment", .array []),
      ("read", .array []),
      ("runtime_read", .array (runtimeRead.map .text)),
      ("write", .array [.text "out"]),
      ("execute", .array [.text "bin/tool"])]),
    ("limits", .map [
      ("processes", .unsigned 2),
      ("wall_time_ms", .unsigned 1000),
      ("stdout_bytes", .unsigned 4096),
      ("stderr_bytes", .unsigned 4096),
      ("memory_bytes", .unsigned 65536),
      ("swap_bytes", .unsigned 0)])]

def samplePlanBytes (runtimeRead : List String) : List UInt8 :=
  (samplePlanValue runtimeRead).canon.serialize

/-- The samples are no text, so the TOML reader is not asked, and name no service. -/
def sampleParse (runtimeRead : List String) : Except PlanError ExecutionPlan :=
  parseExecutionPlanForExecution (fun _ => none) (fun _ => false) (samplePlanBytes runtimeRead)

theorem runtimeLibraries_canonical_sample : ∃ plan,
    parseExecutionPlanForExecution (fun _ => none) (fun _ => false)
      (samplePlanBytes ["/lib", "/usr/lib"]) = .ok plan ∧
      RuntimeLibrariesCanonical plan.authority := by
  have hok : (sampleParse ["/lib", "/usr/lib"]).toOption.isSome = true := by decide +kernel
  obtain ⟨plan, hplan⟩ := Option.isSome_iff_exists.mp hok
  have hparse := toOption_eq_some.mp hplan
  refine ⟨plan, hparse, (runtimeLibraries_canonical_iff hparse).mpr ?_⟩
  decide +kernel

/-- Two texts of one lexical path are two authorities, one of them not canonical. -/
def TwoTexts (authority : NormalizedAuthority) : Prop :=
  ∃ entry ∈ authority.paths, ∃ entry' ∈ authority.paths,
    entry.role = .runtimeLibrary ∧ entry'.role = .runtimeLibrary ∧
    entry.path.asStr = "/lib" ∧ entry'.path.asStr = "/lib/" ∧ ¬IsCanonicalPath entry'.path ∧
    Path.normalForm (Utf8.bytes entry.path.asStr) = Path.normalForm (Utf8.bytes entry'.path.asStr)

instance (authority : NormalizedAuthority) : Decidable (TwoTexts authority) :=
  inferInstanceAs (Decidable (∃ _, _ ∧ _))

/-- A plan with the runtime libraries `/lib` and `/lib/` is accepted. -/
theorem runtimeLibraries_trailing_separator : ∃ plan authority,
    parseExecutionPlanForExecution (fun _ => none) (fun _ => false)
      (samplePlanBytes ["/lib", "/lib/"]) = .ok plan ∧
      normalizeAuthority plan.authority = .ok authority ∧ TwoTexts authority := by
  have hok : ((sampleParse ["/lib", "/lib/"]).toOption.any fun plan =>
      (normalizeAuthority plan.authority).toOption.any fun authority =>
        decide (TwoTexts authority)) = true := by
    decide +kernel
  obtain ⟨plan, hplan, hplan'⟩ := (Option.any_eq_true _ _).mp hok
  obtain ⟨authority, hauthority, htwo⟩ := (Option.any_eq_true _ _).mp hplan'
  exact ⟨plan, authority, toOption_eq_some.mp hplan, toOption_eq_some.mp hauthority,
    of_decide_eq_true htwo⟩

end ProofboundRuntime.Core.Plan
