import ProofboundRuntime.Wire.DecoderSpec
import ProofboundRuntime.Verify.Grammar

/-!
# The receipts that the decoder accepts

The parsers of the fields are put together to

* `decodeV2Receipt_eq_ok`: the decoder accepts the encodings of receipt facts
  within the limits of the codec, and returns what it keeps of them;
* `decodeV2Receipt_unique`: what it keeps determines the bytes.
-/

namespace ProofboundRuntime.Verify

open Cbor Result Wire

/-! ## The inspection projection -/

/-- The projection of a value succeeds on every path. -/
def Projectable (value : Value) : Prop := ∀ path, ∃ json, project path value = .ok json

theorem projectable_array {values : List Value} (h : ∀ value ∈ values, Projectable value) :
    Projectable (.array values) := by
  intro path
  have hlist : ∃ jsons, projectList path values = .ok jsons := by
    induction values with
    | nil => exact ⟨[], rfl⟩
    | cons value values ih =>
      rw [List.forall_mem_cons] at h
      obtain ⟨json, hjson⟩ := h.1 path
      obtain ⟨jsons, hjsons⟩ := ih h.2
      exact ⟨json :: jsons, by rw [projectList, hjson, ok_bind, hjsons, ok_bind]; rfl⟩
  obtain ⟨jsons, hjsons⟩ := hlist
  exact ⟨.array jsons, by rw [project, hjsons, ok_bind]; rfl⟩

theorem projectable_map {entries : List (String × Value)}
    (h : ∀ e ∈ entries, Projectable e.2) : Projectable (.map entries) := by
  intro path
  have hentries : ∀ object, ∃ members, projectEntries path entries object = .ok members := by
    induction entries with
    | nil => exact fun object => ⟨object, rfl⟩
    | cons e entries ih =>
      intro object
      rw [List.forall_mem_cons] at h
      obtain ⟨json, hjson⟩ := h.1 (path ++ [e.1])
      obtain ⟨members, hmembers⟩ := ih h.2 (Json.insert e.1 json object)
      exact ⟨members, by rw [projectEntries, hjson, ok_bind, hmembers]⟩
  obtain ⟨members, hmembers⟩ := hentries []
  exact ⟨.object members, by rw [project, hmembers, ok_bind]; rfl⟩

/-- A value that has a canonical form, which can be projected. -/
structure Clean (value : Value) : Prop where
  noDup : value.NoDup
  projectable : Projectable value.canon

theorem clean_map {members : List (String × Value)} (hnodup : (members.map Prod.fst).Nodup)
    (h : ∀ e ∈ members, Clean e.2) : Clean (.map members) where
  noDup := noDup_map.mpr ⟨hnodup, fun e he => (h e he).noDup⟩
  projectable := by
    rw [canon_map]
    apply projectable_map
    intro e he
    obtain ⟨member, hmember, rfl⟩ := List.mem_map.mp (Sorting.mem_sortBy.mp he)
    exact (h member hmember).projectable

theorem clean_array {values : List Value} (h : ∀ value ∈ values, Clean value) :
    Clean (.array values) where
  noDup := noDup_array.mpr fun value hvalue => (h value hvalue).noDup
  projectable := by
    rw [canon_array]
    apply projectable_array
    intro value hvalue
    obtain ⟨item, hitem, rfl⟩ := List.mem_map.mp hvalue
    exact (h item hitem).projectable

@[simp] theorem clean_unsigned (n : UInt64) : Clean (.unsigned n) where
  noDup := trivial
  projectable := by
    intro path
    rw [canon_unsigned, project]
    split <;> exact ⟨_, rfl⟩

@[simp] theorem clean_text (s : String) : Clean (.text s) := ⟨trivial, fun _ => ⟨_, rfl⟩⟩

@[simp] theorem clean_bytes (b : List UInt8) : Clean (.bytes b) := ⟨trivial, fun _ => ⟨_, rfl⟩⟩

@[simp] theorem clean_null : Clean .null := ⟨trivial, fun _ => ⟨_, rfl⟩⟩

theorem clean_encodeInt {n : Int} (h : -2 ^ 31 ≤ n) : Clean (encodeInt n) := by
  unfold encodeInt
  split
  · exact clean_unsigned _
  · refine ⟨trivial, fun path => ?_⟩
    have hnat : (UInt64.ofNat (-1 - n).toNat).toNat < 2 ^ 63 := by
      rw [UInt64.toNat_ofNat', Nat.mod_eq_of_lt (by omega)]
      omega
    exact ⟨_, by rw [canon_negative, project, rejectIf_false (Nat.not_le.mpr hnat)]; rfl⟩

/-! ## The encodings of facts are clean -/

@[simp] theorem clean_texts (texts : List String) : Clean (encodeTexts texts) :=
  clean_array (by simp)

@[simp] theorem ArtifactFacts.clean (a : ArtifactFacts) : Clean a.encode :=
  clean_map (by simp) (by simp)

@[simp] theorem clean_artifacts (artifacts : List ArtifactFacts) :
    Clean (encodeArtifacts artifacts) :=
  clean_array (by simp)

@[simp] theorem PlanFacts.clean (p : PlanFacts) : Clean p.encode :=
  clean_map (by simp) (by simp [encodeLimits, clean_map])

@[simp] theorem PlatformFacts.clean (p : PlatformFacts) : Clean p.encode :=
  clean_map (by simp) (by simp)

@[simp] theorem CommandFacts.clean (c : CommandFacts) : Clean c.encode := by
  have hloader : Clean (encodeLoader c.loader) := by
    cases c.loader with
    | none => exact clean_null
    | some a => exact a.clean
  exact clean_map (by simp) (by simp [hloader])

@[simp] theorem BoundaryFacts.clean (b : BoundaryFacts) : Clean b.encode :=
  clean_map (by simp) (by simp [clean_map])

@[simp] theorem StreamsFacts.clean (s : StreamsFacts) : Clean s.encode :=
  clean_map (by simp) (by simp [StreamFacts.encode, clean_map])

@[simp] theorem OutcomeFacts.clean (o : OutcomeFacts) : Clean (encodeOutcome o.outcome) := by
  have hvalid := o.valid
  cases houtcome : o.outcome with
  | exited code =>
    rw [houtcome] at hvalid
    exact clean_map (by simp) (by simp [clean_encodeInt hvalid.1])
  | _ => exact clean_map (by simp) (by simp)

@[simp] theorem ResourceFacts.clean (r : ResourceFacts) : Clean r.encode := by
  have hterminal : Clean (encodeTerminal r.terminal) := by
    cases r.terminal with
    | none => exact clean_null
    | some t => exact clean_map (by simp) (by simp [clean_map])
  exact clean_map (by simp) (by simp [hterminal, encodeReasons, clean_map])

@[simp] theorem TcbFacts.clean (t : TcbFacts) : Clean t.encode :=
  clean_array (by simp [WireTcbEntry.encode, clean_map])

theorem ReceiptFacts.clean (r : ReceiptFacts) : Clean r.encode :=
  clean_map (by simp) (by
    simp [encodePolicy, RuntimeFacts.encode, WireEligibility.encode, encodeReasons,
      ObservationFacts.encode, clean_map])

/-! ## The decoder -/

theorem recorded_eq_ok (r : ReceiptFacts) :
    recorded r.eligibility = .ok r.recordedEligibility := by
  have hvalid := r.eligibility_valid
  unfold WireEligibility.Valid at hvalid
  unfold recorded ReceiptFacts.recordedEligibility
  cases hstatus : r.eligibility.status with
  | reusable => simp [hvalid.mp hstatus]
  | nonReusable =>
    have hne : r.eligibility.reasons ≠ [] := by
      intro hnil
      simp [hvalid.mpr hnil] at hstatus
    simp [hne]

theorem valid_of_recorded {eligibility : WireEligibility} {recordedEligibility}
    (h : recorded eligibility = .ok recordedEligibility) : eligibility.Valid := by
  unfold WireEligibility.Valid
  unfold recorded at h
  split at h
  next hstatus =>
    split at h
    next hempty => simp [hstatus, List.isEmpty_iff.mp hempty]
    next => cases h
  next hstatus =>
    split at h
    next => cases h
    next hempty => simp [hstatus, List.isEmpty_iff.not.mp hempty]

theorem outcomeState_eq_ok {outcome : WireOutcome} {state : OutcomeState} (h : outcome.Valid) :
    outcomeState outcome = .ok state ↔ ReceiptFacts.outcomeState outcome = state := by
  cases outcome with
  | signaled signal =>
    have hne : signal ≠ 0 := h
    simp [outcomeState, ReceiptFacts.outcomeState, hne]
  | _ => simp [outcomeState, ReceiptFacts.outcomeState]

theorem decodeV2Receipt_encode (r : ReceiptFacts) (hlimits : WithinLimits r.encode.canon)
    {value : Json} (hvalue : project [] r.encode.canon = .ok value) :
    decodeV2Receipt r.encode.canon.serialize = .ok (r.decoded value) := by
  have hdecode : cborDecode r.encode.canon.serialize = .ok r.encode.canon :=
    decode_eq_ok.mpr ⟨canonical_canon r.clean.noDup, rfl, hlimits⟩
  have hexecution : bytesExact 16 (.bytes r.executionId.toList) = .ok r.executionId.toList :=
    bytesExact_eq_ok.mpr ⟨_, rfl, rfl⟩
  unfold decodeV2Receipt
  simp only [hdecode, Except.mapError, ok_bind, hvalue]
  rw [ReceiptFacts.encode, exactMap_canon (by rfl)]
  simp [field_sorted, text, hexecution, parsePlan_parses.complete, parsePolicy_parses.complete,
    parsePlatform_parses.complete, parseRuntime_parses.complete, parseCommand_parses.complete,
    parseArtifacts_parses.complete, parseTextArray_parses.complete,
    parseArtifact_parses.complete, parseBoundary_parses.complete,
    parseObservations_parses.complete, parseStreams_parses.complete,
    parseOutcome_parses.complete, parseTcb_parses.complete, parseResources_parses.complete,
    parseEligibility_parses.complete, recorded_eq_ok,
    (outcomeState_eq_ok r.outcome.valid).mpr rfl]
  rfl

theorem exists_facts_of_decodeV2Receipt {input : List UInt8} {d : DecodedReceipt}
    (h : decodeV2Receipt input = .ok d) :
    ∃ r : ReceiptFacts, r.encode.canon.serialize = input ∧ WithinLimits r.encode.canon ∧
      ∃ value, project [] r.encode.canon = .ok value ∧ r.decoded value = d := by
  unfold decodeV2Receipt at h
  obtain ⟨root, hroot, htop⟩ := bind_eq_ok.mp h
  rw [mapError_eq_ok] at hroot
  obtain ⟨hcanonical, hserialize, hlimits⟩ := decode_eq_ok.mp hroot
  obtain ⟨map, values, hrest, hclosed, hfield, hcanon⟩ :=
    exactMap_sound hcanonical (by decide) htop
  simp only [receiptNames, List.forall_mem_cons] at hfield
  simp only [hfield, ok_bind] at hrest
  obtain ⟨_, hschema, hrest⟩ := bind_eq_ok.mp hrest
  rw [text_eq_ok] at hschema
  obtain ⟨_, hsupported, hrest⟩ := bind_eq_ok.mp hrest
  rw [rejectIf_eq_ok, ne_eq, not_not] at hsupported
  obtain ⟨plan, hplan, hrest⟩ := parsePlan_parses.bind_sound (hcanon "plan" (by decide)) hrest
  obtain ⟨policy, hpolicy, hrest⟩ :=
    parsePolicy_parses.bind_sound (hcanon "policy" (by decide)) hrest
  obtain ⟨platform, hplatform, hrest⟩ :=
    parsePlatform_parses.bind_sound (hcanon "platform" (by decide)) hrest
  obtain ⟨runtime, hruntime, hrest⟩ :=
    parseRuntime_parses.bind_sound (hcanon "runtime" (by decide)) hrest
  obtain ⟨command, hcommand, hrest⟩ :=
    parseCommand_parses.bind_sound (hcanon "command" (by decide)) hrest
  obtain ⟨inputs, hinputs, hrest⟩ :=
    parseArtifacts_parses.bind_sound (hcanon "inputs" (by decide)) hrest
  obtain ⟨environment, henvironment, hrest⟩ :=
    parseTextArray_parses.bind_sound (hcanon "environment" (by decide)) hrest
  obtain ⟨outputRoot, houtputRoot, hrest⟩ :=
    parseArtifact_parses.bind_sound (hcanon "output_root" (by decide)) hrest
  obtain ⟨boundary, hboundary, hrest⟩ :=
    parseBoundary_parses.bind_sound (hcanon "boundary" (by decide)) hrest
  obtain ⟨observations, hobservations, hrest⟩ :=
    parseObservations_parses.bind_sound (hcanon "observations" (by decide)) hrest
  obtain ⟨streams, hstreams, hrest⟩ :=
    parseStreams_parses.bind_sound (hcanon "streams" (by decide)) hrest
  obtain ⟨outcome, houtcome, hrest⟩ :=
    parseOutcome_parses.bind_sound (hcanon "outcome" (by decide)) hrest
  obtain ⟨outputs, houtputs, hrest⟩ :=
    parseArtifacts_parses.bind_sound (hcanon "outputs" (by decide)) hrest
  obtain ⟨producer, hproducer, hrest⟩ :=
    parseArtifact_parses.bind_sound (hcanon "producer" (by decide)) hrest
  obtain ⟨assumptions, hassumptions, hrest⟩ :=
    parseTextArray_parses.bind_sound (hcanon "assumptions" (by decide)) hrest
  obtain ⟨tcb, htcb, hrest⟩ :=
    parseTcb_parses.bind_sound (hcanon "trusted_computing_base" (by decide)) hrest
  obtain ⟨resources, hresources, hrest⟩ :=
    parseResources_parses.bind_sound (hcanon "resources" (by decide)) hrest
  obtain ⟨eligibility, heligibility, hrest⟩ :=
    parseEligibility_parses.bind_sound (hcanon "eligibility" (by decide)) hrest
  obtain ⟨recordedEligibility, hrecorded, hrest⟩ := bind_eq_ok.mp hrest
  obtain ⟨state, hstate, hrest⟩ := bind_eq_ok.mp hrest
  obtain ⟨_, hbytes, hrest⟩ := bind_eq_ok.mp hrest
  obtain ⟨executionId, hexecution, rfl⟩ := bytesExact_eq_ok.mp hbytes
  obtain ⟨productVersion, hversion, hrest⟩ := bind_eq_ok.mp hrest
  rw [text_eq_ok] at hversion
  obtain ⟨value, hvalue, hd⟩ := bind_eq_ok.mp hrest
  have hvalid : eligibility.Valid := valid_of_recorded hrecorded
  let r : ReceiptFacts :=
    ⟨productVersion, executionId, plan, policy, platform, runtime, command, inputs, environment,
      outputRoot, boundary, observations, streams, outcome, outputs, eligibility, producer,
      assumptions, tcb, resources, hvalid⟩
  have hencode : r.encode.canon = root := by
    rw [hclosed]
    simp only [r, ReceiptFacts.encode, canon_map, sorted, closed, receiptNames, List.map_cons,
      List.map_nil, canon_text, canon_bytes, hschema, hsupported, hplan, hpolicy, hplatform, hruntime,
      hcommand, hinputs, henvironment, houtputRoot, hboundary, hobservations, hstreams, houtcome,
      houtputs, hproducer, hassumptions, htcb, hresources, heligibility, hexecution, hversion]
  have hsame : r.recordedEligibility = recordedEligibility :=
    Except.ok.inj ((recorded_eq_ok r).symm.trans hrecorded)
  have hstate := (outcomeState_eq_ok outcome.valid).mp hstate
  subst hstate hsame
  refine ⟨r, ?_, ?_, value, ?_, ?_⟩
  · rw [hencode, hserialize]
  · rwa [hencode]
  · rw [hencode, hvalue]
  · rwa [pure_eq_ok] at hd

/-- The decoder accepts the encodings of receipt facts within the limits of the
codec, and returns what it keeps of the facts. -/
theorem decodeV2Receipt_eq_ok {input : List UInt8} {d : DecodedReceipt} :
    decodeV2Receipt input = .ok d ↔
      ∃ r : ReceiptFacts, r.encode.canon.serialize = input ∧ WithinLimits r.encode.canon ∧
        ∃ value, project [] r.encode.canon = .ok value ∧ r.decoded value = d := by
  constructor
  · exact exists_facts_of_decodeV2Receipt
  · rintro ⟨r, rfl, hlimits, value, hvalue, rfl⟩
    exact decodeV2Receipt_encode r hlimits hvalue

/-! ## What is kept determines the receipt -/

theorem uuidText_inj {n : Nat} {a b : Vector UInt8 n} (h : uuidText a.toList = uuidText b.toList) :
    a = b := by
  have hbytes := congrArg Utf8.bytes h
  rw [bytes_uuidText, bytes_uuidText] at hbytes
  exact Vector.toList_inj.mp (Hex.ascii_injective (Ascii.group_inj (by simp) hbytes))

theorem hexText_inj {n : Nat} {a b : Vector UInt8 n}
    (h : Hex.text a.toList = Hex.text b.toList) : a = b :=
  Vector.toList_inj.mp (Hex.text_injective h)

theorem decimalText_inj {a b : UInt64} (h : Decimal.text a.toNat = Decimal.text b.toNat) :
    a = b :=
  UInt64.toNat_inj.mp (Decimal.text_injective h)

theorem ArtifactFacts.wire_injective : Function.Injective ArtifactFacts.wire := by
  intro a b h
  cases a
  cases b
  simp only [wire, WireArtifact.mk.injEq] at h
  simp only [ArtifactFacts.mk.injEq]
  exact ⟨h.1, hexText_inj h.2.1, decimalText_inj h.2.2.1, h.2.2.2⟩

theorem PlanFacts.wire_injective : Function.Injective PlanFacts.wire := by
  intro p q h
  cases p
  cases q
  simp only [wire, Prod.mk.injEq, WirePlan.mk.injEq, ArtifactFacts.wire_injective.eq_iff] at h
  simp only [PlanFacts.mk.injEq]
  exact ⟨h.1.1, h.1.2.1, h.1.2.2, h.2⟩

theorem PlatformFacts.wire_injective : Function.Injective PlatformFacts.wire := by
  intro p q h
  cases p
  cases q
  simp only [wire, WirePlatform.mk.injEq] at h
  simp only [PlatformFacts.mk.injEq]
  exact ⟨h.2.1, h.2.2.2.1, h.2.2.1, h.2.2.2.2.1, h.2.2.2.2.2⟩

theorem CommandFacts.wire_injective : Function.Injective CommandFacts.wire := by
  intro c d h
  cases c
  cases d
  simp only [wire, WireCommand.mk.injEq, ArtifactFacts.wire_injective.eq_iff,
    (Option.map_injective ArtifactFacts.wire_injective).eq_iff] at h
  simp only [CommandFacts.mk.injEq]
  exact ⟨h.2.1, h.1, hexText_inj h.2.2.2, h.2.2.1⟩

theorem BoundaryFacts.wire_injective : Function.Injective BoundaryFacts.wire := by
  intro b c h
  cases b
  cases c
  simp only [wire, WireBoundary.mk.injEq, WireCgroup.mk.injEq] at h
  simp only [BoundaryFacts.mk.injEq]
  exact ⟨h.1, decimalText_inj h.2.2.2.2, decimalText_inj h.2.2.2.1, uuidText_inj h.2.1,
    hexText_inj h.2.2.1⟩

theorem ObservationFacts.wire_injective : Function.Injective ObservationFacts.wire := by
  intro o p h
  cases o
  cases p
  simp only [wire, WireObservations.mk.injEq] at h
  simp only [ObservationFacts.mk.injEq]
  exact ⟨decimalText_inj h.2.1, decimalText_inj h.2.2⟩

theorem StreamsFacts.wire_injective : Function.Injective StreamsFacts.wire := by
  have hstream : Function.Injective StreamFacts.wire := by
    intro s t h
    cases s
    cases t
    simp only [StreamFacts.wire, WireStream.mk.injEq, ArtifactFacts.wire_injective.eq_iff] at h
    simp only [StreamFacts.mk.injEq]
    exact ⟨h.2, h.1⟩
  intro s t h
  cases s
  cases t
  simp only [wire, WireStreams.mk.injEq, hstream.eq_iff] at h
  simp only [StreamsFacts.mk.injEq]
  exact h

/-- Missing observations are told from observed zeros by the flag. -/
theorem ResourceFacts.wire_injective : Function.Injective ResourceFacts.wire := by
  intro r s h
  cases r with
  | mk processes memory swap terminal events hne hvalid =>
  cases s with
  | mk processes' memory' swap' terminal' events' hne' hvalid' =>
  simp only [wire, wireResources, WireResources.mk.injEq] at h
  simp only [ResourceFacts.mk.injEq]
  refine ⟨h.1, h.2.1, h.2.2.1, ?_, h.2.2.2.2.2.2.2.1⟩
  cases terminal with
  | none =>
    cases terminal' with
    | none => rfl
    | some t => simp at h
  | some t =>
    cases terminal' with
    | none => simp at h
    | some u =>
      cases t
      cases u
      simpa using ⟨h.2.2.2.1, h.2.2.2.2.1, h.2.2.2.2.2.1, h.2.2.2.2.2.2.1⟩

theorem ReceiptFacts.eq_of_kept {r s : ReceiptFacts} (hwire : r.wire = s.wire)
    (hlimits : r.plan.limits = s.plan.limits)
    (hresources : r.resources.wire = s.resources.wire) : r = s := by
  have hartifacts := List.map_injective_iff.mpr ArtifactFacts.wire_injective
  simp only [wire, WireReceipt.mk.injEq, wirePolicy, WirePolicy.mk.injEq, RuntimeFacts.wire,
    WireRuntime.mk.injEq, ArtifactFacts.wire_injective.eq_iff, hartifacts.eq_iff,
    PlatformFacts.wire_injective.eq_iff, CommandFacts.wire_injective.eq_iff,
    BoundaryFacts.wire_injective.eq_iff, ObservationFacts.wire_injective.eq_iff,
    StreamsFacts.wire_injective.eq_iff] at hwire
  obtain ⟨-, hversion, hexecution, hplan, ⟨hpolicy, -⟩, hplatform, ⟨hruntime, hlauncher⟩,
    hcommand, hinputs, henvironment, houtputRoot, hboundary, hobservations, hstreams, houtcome,
    houtputs, heligibility, hproducer, hassumptions, htcb⟩ := hwire
  have hplan : r.plan = s.plan := PlanFacts.wire_injective (Prod.ext hplan hlimits)
  have hexecution := uuidText_inj hexecution
  have hresources := ResourceFacts.wire_injective hresources
  cases r with
  | mk _ _ _ _ _ runtime _ _ _ _ _ _ _ outcome _ _ _ _ tcb =>
  cases s with
  | mk _ _ _ _ _ runtime' _ _ _ _ _ _ _ outcome' _ _ _ _ tcb' =>
  cases runtime
  cases runtime'
  cases outcome
  cases outcome'
  cases tcb
  cases tcb'
  simp_all

/-! ## A receipt -/

theorem sampleMode_le : (0o644 : UInt16) ≤ 0o7777 := by decide

def sampleArtifact (role : WireArtifactRole) : ArtifactFacts :=
  ⟨role, Vector.replicate 32 0, 0, 0o644, sampleMode_le⟩

def sampleExecutionId : Vector UInt8 16 := #v[1, 0, 0, 0, 0, 0, 0x40, 0, 0x80, 0, 0, 0, 0, 0, 0, 0]

def sampleStream (role : WireArtifactRole) : StreamFacts :=
  { capture := .complete, artifact := sampleArtifact role }

/-- A receipt of an execution that exited with code 0 and counted no event. -/
def sampleReceipt : ReceiptFacts where
  productVersion := "0.2.0"
  executionId := sampleExecutionId
  plan :=
    { id := "plan"
      source := sampleArtifact .executionPlan
      normalized := sampleArtifact .normalizedPlan
      limits := ⟨1, 1, 0, 0, 65536, 0⟩
      processes_ne := by decide
      limits_valid := by decide }
  policy := sampleArtifact .compiledPolicy
  platform :=
    { architecture := .x86_64
      landlockAbi := 1
      kernelRelease := "6"
      seccompFeatures := []
      cgroupControllers := []
      landlockAbi_ne := by decide }
  runtime := ⟨sampleArtifact .runtimeBinary, sampleArtifact .launcherBinary⟩
  command :=
    { loader := none
      executable := sampleArtifact .runtimeExecutable
      argumentsSha256 := Vector.replicate 32 0
      workingDirectory := sampleArtifact .workingDirectory }
  inputs := [sampleArtifact .projectInput]
  environment := []
  outputRoot := sampleArtifact .outputRoot
  boundary :=
    { state := .installed
      inode := 0
      mountId := 0
      executionId := sampleExecutionId
      policySha256 := Vector.replicate 32 0 }
  observations := ⟨0, 0⟩
  streams := ⟨sampleStream .standardOutput, sampleStream .standardError⟩
  outcome := ⟨.exited 0, by decide, by decide⟩
  outputs := []
  eligibility := ⟨.reusable, []⟩
  producer := sampleArtifact .runtimeBinary
  assumptions := ["PBR-HOST-AX-002", "PBR-LINUX-AX-001", "PBR-TOOLCHAIN-AX-003"]
  trustedComputingBase :=
    { entries :=
        [⟨"host-hardware-firmware", "h"⟩, ⟨"linux-kernel", "k"⟩, ⟨"landlock", "l"⟩,
          ⟨"seccomp", "s"⟩, ⟨"cgroup-v2", "c"⟩, ⟨"no-new-privileges", "n"⟩,
          ⟨"filesystem", "f"⟩, ⟨"runtime-binary", "r"⟩, ⟨"launcher-binary", "l"⟩,
          ⟨"rust-toolchain", "t"⟩, ⟨"cryptographic-digest", "d"⟩, ⟨"runtime-executable", "e"⟩]
      entries_ne := by decide }
  resources :=
    { processes := 1
      memory := 65536
      swap := 0
      terminal := some .zero
      limitEvents := []
      processes_ne := by decide
      limits_valid := by decide }
  eligibility_valid := by simp [WireEligibility.Valid]

theorem sampleReceipt_withinLimits : WithinLimits sampleReceipt.encode.canon := by
  constructor
  · rw [length_serialize_canon]
    decide +kernel
  · rw [depth_canon]
    decide +kernel
  · rw [items_canon]
    decide +kernel

theorem decodeV2Receipt_sample :
    ∃ value, decodeV2Receipt sampleReceipt.encode.canon.serialize =
      .ok (sampleReceipt.decoded value) := by
  obtain ⟨value, hvalue⟩ := sampleReceipt.clean.projectable []
  exact ⟨value, decodeV2Receipt_encode _ sampleReceipt_withinLimits hvalue⟩

/-! ## Receipts are not malleable -/

/-- Two byte strings from which the decoder keeps the same receipt, plan limits
and resources are one byte string. -/
theorem decodeV2Receipt_unique {b b' : List UInt8} {d d' : DecodedReceipt}
    (h : decodeV2Receipt b = .ok d) (h' : decodeV2Receipt b' = .ok d')
    (hwire : d.wire = d'.wire) (hlimits : d.planLimits = d'.planLimits)
    (hresources : d.resources = d'.resources) : b = b' := by
  obtain ⟨r, rfl, -, value, -, rfl⟩ := decodeV2Receipt_eq_ok.mp h
  obtain ⟨r', rfl, -, value', -, rfl⟩ := decodeV2Receipt_eq_ok.mp h'
  have hsame : r = r' :=
    ReceiptFacts.eq_of_kept hwire (Option.some.inj hlimits) (Option.some.inj hresources)
  rw [hsame]

theorem decodeV2Receipt_unique_sample :
    ∃ d, decodeV2Receipt sampleReceipt.encode.canon.serialize = .ok d ∧
      ∀ b d', decodeV2Receipt b = .ok d' → d'.wire = d.wire → d'.planLimits = d.planLimits →
        d'.resources = d.resources → b = sampleReceipt.encode.canon.serialize := by
  obtain ⟨value, hdecode⟩ := decodeV2Receipt_sample
  refine ⟨_, hdecode, fun b d' hb hwire hlimits hresources => ?_⟩
  exact decodeV2Receipt_unique hb hdecode hwire hlimits hresources

end ProofboundRuntime.Verify
