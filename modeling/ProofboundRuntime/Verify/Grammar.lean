import ProofboundRuntime.Lib.Cbor.Grammar
import ProofboundRuntime.Verify.Facts

/-!
# The fields that the decoder accepts

Every parser of the decoder reads exactly the canonical encodings of the facts
it is for, and returns what the decoder keeps of them: each `parseX_parses`
below says so.  A proof of one starts from the closed map that the parser
checks (`exactMap_sound`) and reads its fields.
-/

namespace ProofboundRuntime.Verify

open Cbor Result Wire

/-! ## Reading one value -/

variable {value : Value}

@[simp] theorem array_eq_ok {values : List Value} :
    array value = .ok values ↔ value = .array values := by
  cases value <;> simp [array]

variable {s : String}

@[simp] theorem text_eq_ok : text value = .ok s ↔ value = .text s := by
  cases value <;> simp [text]

@[simp] theorem unsigned_eq_ok {n : UInt64} : unsigned value = .ok n ↔ value = .unsigned n := by
  cases value <;> simp [unsigned]

theorem bytesExact_eq_ok {length : Nat} {bytes : List UInt8} :
    bytesExact length value = .ok bytes ↔
      ∃ v : Vector UInt8 length, value = .bytes v.toList ∧ v.toList = bytes := by
  constructor
  · intro h
    cases value with
    | bytes b =>
      simp only [bytesExact, bind_eq_ok, rejectIf_eq_ok, pure_eq_ok, ne_eq, not_not,
        exists_const] at h
      obtain ⟨hlength, rfl⟩ := h
      exact ⟨⟨b.toArray, by simpa using hlength⟩, rfl, rfl⟩
    | _ => simp [bytesExact] at h
  · rintro ⟨v, rfl, rfl⟩
    simp [bytesExact, rejectIf_false]

theorem toUInt64_toUInt32 {n : UInt64} (h : n.toNat < 2 ^ 32) : n.toUInt32.toUInt64 = n := by
  apply UInt64.toNat_inj.mp
  rw [UInt32.toNat_toUInt64, UInt64.toNat_toUInt32, Nat.mod_eq_of_lt h]

theorem toUInt64_toUInt16 {n : UInt64} (h : n.toNat < 2 ^ 16) : n.toUInt16.toUInt64 = n := by
  apply UInt64.toNat_inj.mp
  rw [UInt16.toNat_toUInt64, UInt64.toNat_toUInt16, Nat.mod_eq_of_lt h]

@[simp] theorem nonzeroU32_eq_ok {n : UInt32} :
    nonzeroU32 value = .ok n ↔ value = .unsigned n.toUInt64 ∧ n ≠ 0 := by
  simp only [nonzeroU32, bind_eq_ok, unsigned_eq_ok, rejectIf_eq_ok, pure_eq_ok, exists_const,
    not_or, Nat.not_le]
  constructor
  · rintro ⟨m, rfl, hm, rfl⟩
    rw [toUInt64_toUInt32 hm.1]
    exact ⟨rfl, hm.2⟩
  · intro h
    have hn : n.toUInt64.toUInt32 = n := UInt32.toUInt32_toUInt64 n
    have hlt : n.toUInt64.toNat < 2 ^ 32 := by
      rw [UInt32.toNat_toUInt64]
      exact n.toNat_lt
    exact ⟨n.toUInt64, h.1, ⟨hlt, by rw [hn]; exact h.2⟩, hn⟩

/-! ## Closed maps -/

variable {names : List String} {members : List (String × Value)}

theorem exactMap_sorted (hkeys : members.map Prod.fst = names) :
    exactMap (.map (sorted members)) names = .ok (sorted members) := by
  rw [exactMap, hasExactly_sorted hkeys]
  rfl

theorem exactMap_canon (hkeys : members.map Prod.fst = names) :
    exactMap (Value.map members).canon names = .ok (sorted members) := by
  rw [canon_map, exactMap_sorted hkeys]

theorem field_sorted (hnodup : (members.map Prod.fst).Nodup) (name : String) :
    field (sorted members) name = okOr ((lookup members name).map Value.canon) .invalidSchema := by
  rw [field, lookup_sorted hnodup]

/-- The canonical map with the keys `names`. -/
def closed (names : List String) (values : String → Value) : Value :=
  .map (Sorting.sortBy entryCmp (names.map fun name => (name, values name)))

theorem canon_eq_closed {values : String → Value} (hkeys : members.map Prod.fst = names)
    (h : ∀ member ∈ members, member.2.canon = values member.1) :
    (Value.map members).canon = closed names values := by
  rw [canon_map, sorted, closed, ← hkeys, List.map_map]
  exact congrArg (Value.map <| Sorting.sortBy entryCmp ·)
    (List.map_congr_left fun member hmember => Prod.ext rfl (h member hmember))

variable {map : List (String × Value)}

/-- What a map with exactly the keys `names` consists of. -/
theorem closed_of_hasExactly (hcanonical : (Value.map map).Canonical) (hnodup : names.Nodup)
    (h : hasExactly map names = true) :
    ∃ values, .map map = closed names values ∧
      (∀ name ∈ names, field map name = .ok (values name)) ∧
      ∀ name ∈ names, (values name).Canonical := by
  obtain ⟨values, hmap, hvalues⟩ := exists_values hcanonical hnodup h
  refine ⟨values, congrArg Value.map hmap, ?_, fun name hname => (hvalues name hname).2⟩
  intro name hname
  rw [field, (hvalues name hname).1, okOr_some]

theorem exactMap_eq_ok :
    exactMap value names = .ok map ↔ value = .map map ∧ hasExactly map names = true := by
  cases value with
  | map entries =>
    simp only [exactMap, bind_eq_ok, rejectIf_eq_ok, pure_eq_ok, exists_const,
      Bool.not_eq_false, Value.map.injEq]
    constructor <;> intro h
    · exact ⟨h.2, h.2 ▸ h.1⟩
    · exact ⟨h.1 ▸ h.2, h.1⟩
  | _ => simp [exactMap]

/-- A parser that starts with the check of a closed map reads its values. -/
theorem exactMap_sound {β : Type} {b : β} {rest : List (String × Value) → Except DecodeError β}
    (hcanonical : value.Canonical) (hnodup : names.Nodup)
    (h : (exactMap value names >>= rest) = .ok b) :
    ∃ map values, rest map = .ok b ∧ value = closed names values ∧
      (∀ name ∈ names, field map name = .ok (values name)) ∧
      ∀ name ∈ names, (values name).Canonical := by
  obtain ⟨map, hmap, hrest⟩ := bind_eq_ok.mp h
  obtain ⟨rfl, hexactly⟩ := exactMap_eq_ok.mp hmap
  obtain ⟨values, hvalues⟩ := closed_of_hasExactly hcanonical hnodup hexactly
  exact ⟨map, values, hrest, hvalues⟩

/-! ## Arrays -/

theorem array_parses {α β : Type} {parse : Value → Except DecodeError β} {encode : α → Value}
    {view : α → β} (h : Parses parse encode view) :
    Parses (fun value => array value >>= collect parse) (fun as => .array (as.map encode))
      (List.map view) where
  complete as := by
    rw [canon_array, List.map_map]
    exact h.collect_complete as
  sound := by
    intro value bs hcanonical hparse
    obtain ⟨values, hvalues, hcollect⟩ := bind_eq_ok.mp hparse
    rw [array_eq_ok] at hvalues
    subst hvalues
    obtain ⟨as, rfl, rfl⟩ := h.collect_sound (canonical_array.mp hcanonical) hcollect
    exact ⟨as, by rw [canon_array, List.map_map]; rfl, rfl⟩

theorem text_parses : Parses text Value.text id where
  complete _ := rfl
  sound := by
    intro value s _ h
    rw [text_eq_ok] at h
    exact ⟨s, h.symm, rfl⟩

theorem parseTextArray_parses : Parses parseTextArray encodeTexts id := by
  have h := array_parses text_parses
  rwa [List.map_id_fun] at h

@[simp] theorem reason_eq_ok {r : WireReason} : reason s = .ok r ↔ s = r.asStr := by
  constructor
  · unfold reason
    split <;> rintro ⟨⟩ <;> rfl
  · rintro rfl
    cases r <;> rfl

theorem parseReasonArray_parses : Parses parseReasonArray encodeReasons id := by
  have h : Parses (fun value => do reason (← text value))
      (fun r : WireReason => .text r.asStr) id :=
    { complete := fun r => reason_eq_ok.mpr rfl
      sound := by
        intro value r _ h
        simp only [bind_eq_ok, text_eq_ok, reason_eq_ok] at h
        obtain ⟨_, rfl, rfl⟩ := h
        exact ⟨r, rfl, rfl⟩ }
  have harray := array_parses h
  rw [List.map_id_fun] at harray
  have hencode : encodeReasons = fun rs => .array (rs.map fun r => .text r.asStr) := by
    funext rs
    rw [encodeReasons, encodeTexts, List.map_map]
    rfl
  rwa [hencode]

/-! ## Artifacts -/

@[simp] theorem artifactRole_eq_ok {role : WireArtifactRole} :
    artifactRole s = .ok role ↔ s = role.asStr := by
  constructor
  · unfold artifactRole
    split <;> rintro ⟨⟩ <;> rfl
  · rintro rfl
    cases role <;> rfl

theorem parseArtifact_parses : Parses parseArtifact ArtifactFacts.encode ArtifactFacts.wire where
  complete a := by
    have hmode : a.mode.toUInt64.toUInt16 = a.mode := UInt16.toUInt16_toUInt64 a.mode
    have hlt : a.mode.toNat < 65536 := a.mode.toNat_lt
    have hsha256 : bytesExact 32 (.bytes a.sha256.toList) = .ok a.sha256.toList :=
      bytesExact_eq_ok.mpr ⟨a.sha256, rfl, rfl⟩
    unfold parseArtifact ArtifactFacts.encode
    simp [exactMap_canon, field_sorted, unsigned, text, hsha256, hmode, hlt, a.mode_le,
      ArtifactFacts.wire]
  sound := by
    intro value x hcanonical h
    unfold parseArtifact at h
    obtain ⟨map, values, hrest, rfl, hfield, -⟩ := exactMap_sound hcanonical (by decide) h
    simp only [List.forall_mem_cons] at hfield
    simp only [hfield, ok_bind, bind_eq_ok, unsigned_eq_ok, text_eq_ok, artifactRole_eq_ok,
      bytesExact_eq_ok, rejectIf_eq_ok, pure_eq_ok, exists_const, not_or, Nat.not_le] at hrest
    obtain ⟨mode, hmode, hrange, _, hrole, role, rfl, _, ⟨sha256, hsha256, rfl⟩, size, hsize,
      rfl⟩ := hrest
    refine ⟨⟨role, sha256, size, mode.toUInt16, UInt16.not_lt.mp hrange.2⟩, ?_, rfl⟩
    simp only [ArtifactFacts.encode, canon_map, sorted, closed, List.map_cons, List.map_nil,
      canon_unsigned, canon_text, canon_bytes, toUInt64_toUInt16 hrange.1, hmode, hrole, hsha256,
      hsize]

theorem parseArtifacts_parses :
    Parses parseArtifacts encodeArtifacts (List.map ArtifactFacts.wire) :=
  array_parses parseArtifact_parses

/-! ## The fields of a receipt -/

theorem parsePlan_parses : Parses parsePlan PlanFacts.encode PlanFacts.wire where
  complete p := by
    have hprocesses : nonzeroU32 (.unsigned p.limits.processes.toUInt64) =
        .ok p.limits.processes := nonzeroU32_eq_ok.mpr ⟨rfl, p.processes_ne⟩
    unfold parsePlan PlanFacts.encode encodeLimits
    simp [exactMap_canon, field_sorted, unsigned, text, hprocesses, rejectIf_false p.limits_valid,
      parseArtifact_parses.complete, PlanFacts.wire]
  sound := by
    intro value x hcanonical h
    unfold parsePlan at h
    obtain ⟨map, values, hplan, rfl, hfield, hcanon⟩ := exactMap_sound hcanonical (by decide) h
    rw [hfield "limits" (by decide), ok_bind] at hplan
    obtain ⟨limits, members, hrest, hlimits, hmember, -⟩ :=
      exactMap_sound (hcanon "limits" (by decide)) (by decide) hplan
    simp only [List.forall_mem_cons] at hfield hmember
    simp only [hfield, hmember, ok_bind, bind_eq_ok, unsigned_eq_ok, text_eq_ok,
      nonzeroU32_eq_ok, rejectIf_eq_ok, pure_eq_ok, exists_const,
      parseArtifact_parses.eq_ok_iff (hcanon "source" (by decide)),
      parseArtifact_parses.eq_ok_iff (hcanon "normalized" (by decide))] at hrest
    obtain ⟨processes, ⟨hprocesses, hne⟩, wallTimeMs, hwall, memory, hmemory, swap, hswap,
      hvalid, id, hid, _, ⟨source, hsource, rfl⟩, _, ⟨normalized, hnormalized, rfl⟩,
      stdoutBytes, hstdout, stderrBytes, hstderr, rfl⟩ := hrest
    refine ⟨⟨id, source, normalized,
      ⟨processes, wallTimeMs, stdoutBytes, stderrBytes, memory, swap⟩, hne, hvalid⟩, ?_, rfl⟩
    simp only [PlanFacts.encode, encodeLimits, canon_map, sorted, closed, List.map_cons,
      List.map_nil, canon_text, canon_unsigned, hid, hsource, hnormalized, hlimits, hprocesses,
      hwall, hstdout, hstderr, hmemory, hswap]

theorem parsePolicy_parses : Parses parsePolicy encodePolicy wirePolicy where
  complete identity := by
    unfold parsePolicy encodePolicy
    simp [exactMap_canon, field_sorted, text, parseArtifact_parses.complete, wirePolicy]
  sound := by
    intro value x hcanonical h
    unfold parsePolicy at h
    obtain ⟨map, values, hrest, rfl, hfield, hcanon⟩ := exactMap_sound hcanonical (by decide) h
    simp only [List.forall_mem_cons] at hfield
    simp only [hfield, ok_bind, bind_eq_ok, text_eq_ok, rejectIf_eq_ok, pure_eq_ok, exists_const,
      not_not, ne_eq, parseArtifact_parses.eq_ok_iff (hcanon "identity" (by decide))] at hrest
    obtain ⟨_, hmodel, rfl, _, ⟨identity, hidentity, rfl⟩, rfl⟩ := hrest
    exact ⟨identity, canon_eq_closed rfl (by simp [hidentity, hmodel]), rfl⟩

@[simp] theorem architecture_eq_ok {a : WireArchitecture} :
    architecture s = .ok a ↔ s = a.asStr := by
  constructor
  · unfold architecture
    split <;> rintro ⟨⟩ <;> rfl
  · rintro rfl
    cases a <;> rfl

theorem parsePlatform_parses : Parses parsePlatform PlatformFacts.encode PlatformFacts.wire where
  complete p := by
    have habi : nonzeroU32 (.unsigned p.landlockAbi.toUInt64) = .ok p.landlockAbi :=
      nonzeroU32_eq_ok.mpr ⟨rfl, p.landlockAbi_ne⟩
    unfold parsePlatform PlatformFacts.encode
    simp [exactMap_canon, field_sorted, text, habi, parseTextArray_parses.complete,
      PlatformFacts.wire]
  sound := by
    intro value x hcanonical h
    unfold parsePlatform at h
    obtain ⟨map, values, hrest, rfl, hfield, hcanon⟩ := exactMap_sound hcanonical (by decide) h
    simp only [List.forall_mem_cons] at hfield
    simp only [hfield, ok_bind, bind_eq_ok, text_eq_ok, architecture_eq_ok, nonzeroU32_eq_ok,
      rejectIf_eq_ok, pure_eq_ok, exists_const, not_not, ne_eq,
      parseTextArray_parses.eq_ok_iff (hcanon "seccomp_features" (by decide)),
      parseTextArray_parses.eq_ok_iff (hcanon "cgroup_controllers" (by decide))] at hrest
    obtain ⟨_, hsystem, rfl, _, harchitecture, architecture, rfl, landlockAbi,
      ⟨hlandlock, hne⟩, kernelRelease, hkernel, _, ⟨seccomp, hseccomp, rfl⟩, _,
      ⟨cgroup, hcgroup, rfl⟩, rfl⟩ := hrest
    refine ⟨⟨architecture, landlockAbi, kernelRelease, seccomp, cgroup, hne⟩, ?_, rfl⟩
    simp only [PlatformFacts.encode, canon_map, sorted, closed, List.map_cons, List.map_nil,
      canon_text, canon_unsigned, hsystem, harchitecture, hlandlock, hkernel, hseccomp, hcgroup]

theorem parseRuntime_parses : Parses parseRuntime RuntimeFacts.encode RuntimeFacts.wire where
  complete r := by
    unfold parseRuntime RuntimeFacts.encode
    simp [exactMap_canon, field_sorted, parseArtifact_parses.complete, RuntimeFacts.wire]
  sound := by
    intro value x hcanonical h
    unfold parseRuntime at h
    obtain ⟨map, values, hrest, rfl, hfield, hcanon⟩ := exactMap_sound hcanonical (by decide) h
    simp only [List.forall_mem_cons] at hfield
    simp only [hfield, ok_bind, bind_eq_ok, pure_eq_ok,
      parseArtifact_parses.eq_ok_iff (hcanon "runtime" (by decide)),
      parseArtifact_parses.eq_ok_iff (hcanon "launcher" (by decide))] at hrest
    obtain ⟨_, ⟨runtime, hruntime, rfl⟩, _, ⟨launcher, hlauncher, rfl⟩, rfl⟩ := hrest
    exact ⟨⟨runtime, launcher⟩, canon_eq_closed rfl (by simp [hruntime, hlauncher]), rfl⟩

theorem parseLoader_parses :
    Parses parseLoader encodeLoader (Option.map ArtifactFacts.wire) where
  complete loader := by
    cases loader with
    | none => rfl
    | some a =>
      have h := parseArtifact_parses.complete a
      rw [ArtifactFacts.encode, canon_map] at h
      simp [encodeLoader, ArtifactFacts.encode, canon_map, parseLoader, h]
  sound := by
    intro value x hcanonical h
    unfold parseLoader at h
    split at h
    · cases h
      exact ⟨none, rfl, rfl⟩
    · simp only [bind_eq_ok, pure_eq_ok, parseArtifact_parses.eq_ok_iff hcanonical] at h
      obtain ⟨_, ⟨a, ha, rfl⟩, rfl⟩ := h
      exact ⟨some a, ha, rfl⟩

theorem parseCommand_parses : Parses parseCommand CommandFacts.encode CommandFacts.wire where
  complete c := by
    have harguments : bytesExact 32 (.bytes c.argumentsSha256.toList) =
        .ok c.argumentsSha256.toList := bytesExact_eq_ok.mpr ⟨_, rfl, rfl⟩
    unfold parseCommand CommandFacts.encode
    simp [exactMap_canon, field_sorted, parseArtifact_parses.complete,
      parseLoader_parses.complete, harguments, CommandFacts.wire]
  sound := by
    intro value x hcanonical h
    unfold parseCommand at h
    obtain ⟨map, values, hrest, rfl, hfield, hcanon⟩ := exactMap_sound hcanonical (by decide) h
    simp only [List.forall_mem_cons] at hfield
    simp only [hfield, ok_bind, bind_eq_ok, bytesExact_eq_ok, pure_eq_ok,
      parseLoader_parses.eq_ok_iff (hcanon "loader" (by decide)),
      parseArtifact_parses.eq_ok_iff (hcanon "executable" (by decide)),
      parseArtifact_parses.eq_ok_iff (hcanon "working_directory" (by decide))] at hrest
    obtain ⟨_, ⟨loader, hloader, rfl⟩, _, ⟨executable, hexecutable, rfl⟩, _,
      ⟨directory, hdirectory, rfl⟩, _, ⟨arguments, harguments, rfl⟩, rfl⟩ := hrest
    refine ⟨⟨loader, executable, arguments, directory⟩, canon_eq_closed rfl ?_, rfl⟩
    simp [hloader, hexecutable, hdirectory, harguments]

@[simp] theorem wireBoundaryState_eq_ok {state : WireBoundaryState} :
    wireBoundaryState s = .ok state ↔ s = state.asStr := by
  constructor
  · unfold wireBoundaryState
    split <;> rintro ⟨⟩ <;> rfl
  · rintro rfl
    cases state <;> rfl

theorem parseBoundary_parses : Parses parseBoundary BoundaryFacts.encode BoundaryFacts.wire where
  complete b := by
    have hexecution : bytesExact 16 (.bytes b.executionId.toList) = .ok b.executionId.toList :=
      bytesExact_eq_ok.mpr ⟨_, rfl, rfl⟩
    have hpolicy : bytesExact 32 (.bytes b.policySha256.toList) = .ok b.policySha256.toList :=
      bytesExact_eq_ok.mpr ⟨_, rfl, rfl⟩
    unfold parseBoundary BoundaryFacts.encode
    simp [exactMap_canon, field_sorted, text, unsigned, hexecution, hpolicy, BoundaryFacts.wire]
  sound := by
    intro value x hcanonical h
    unfold parseBoundary at h
    obtain ⟨map, values, hboundary, rfl, hfield, hcanon⟩ :=
      exactMap_sound hcanonical (by decide) h
    simp only [hfield "state" (by decide), hfield "cgroup" (by decide), ok_bind] at hboundary
    obtain ⟨_, hstate, hnamed⟩ := bind_eq_ok.mp hboundary
    obtain ⟨state, hname, hinner⟩ := bind_eq_ok.mp hnamed
    rw [wireBoundaryState_eq_ok] at hname
    subst hname
    rw [text_eq_ok] at hstate
    obtain ⟨cgroup, members, hrest, hcgroup, hmember, -⟩ :=
      exactMap_sound (hcanon "cgroup" (by decide)) (by decide) hinner
    simp only [List.forall_mem_cons] at hfield hmember
    simp only [hfield, hmember, ok_bind, bind_eq_ok, unsigned_eq_ok, bytesExact_eq_ok,
      pure_eq_ok] at hrest
    obtain ⟨_, ⟨executionId, hexecution, rfl⟩, _, ⟨policy, hpolicy, rfl⟩, mountId, hmount,
      inode, hinode, rfl⟩ := hrest
    refine ⟨⟨state, inode, mountId, executionId, policy⟩, ?_, rfl⟩
    simp only [BoundaryFacts.encode, canon_map, sorted, closed, List.map_cons, List.map_nil,
      canon_text, canon_bytes, canon_unsigned, hstate, hcgroup, hexecution, hpolicy, hmount,
      hinode]

theorem parseObservations_parses :
    Parses parseObservations ObservationFacts.encode ObservationFacts.wire where
  complete o := by
    unfold parseObservations ObservationFacts.encode
    simp [exactMap_canon, field_sorted, text, unsigned, ObservationFacts.wire]
  sound := by
    intro value x hcanonical h
    unfold parseObservations at h
    obtain ⟨map, values, hrest, rfl, hfield, -⟩ := exactMap_sound hcanonical (by decide) h
    simp only [List.forall_mem_cons] at hfield
    simp only [hfield, ok_bind, bind_eq_ok, text_eq_ok, unsigned_eq_ok, rejectIf_eq_ok,
      pure_eq_ok, exists_const, not_not, ne_eq] at hrest
    obtain ⟨_, hclock, rfl, started, hstarted, finished, hfinished, rfl⟩ := hrest
    exact ⟨⟨started, finished⟩, canon_eq_closed rfl (by simp [hclock, hstarted, hfinished]), rfl⟩

@[simp] theorem wireCapture_eq_ok {capture : WireCapture} :
    wireCapture s = .ok capture ↔ s = capture.asStr := by
  constructor
  · unfold wireCapture
    split <;> rintro ⟨⟩ <;> rfl
  · rintro rfl
    cases capture <;> rfl

theorem parseStream_parses : Parses parseStream StreamFacts.encode StreamFacts.wire where
  complete s := by
    unfold parseStream StreamFacts.encode
    simp [exactMap_canon, field_sorted, text, parseArtifact_parses.complete, StreamFacts.wire]
  sound := by
    intro value x hcanonical h
    unfold parseStream at h
    obtain ⟨map, values, hrest, rfl, hfield, hcanon⟩ := exactMap_sound hcanonical (by decide) h
    simp only [List.forall_mem_cons] at hfield
    simp only [hfield, ok_bind, bind_eq_ok, text_eq_ok, wireCapture_eq_ok, pure_eq_ok,
      parseArtifact_parses.eq_ok_iff (hcanon "artifact" (by decide))] at hrest
    obtain ⟨_, hcapture, capture, rfl, _, ⟨artifact, hartifact, rfl⟩, rfl⟩ := hrest
    exact ⟨⟨capture, artifact⟩, canon_eq_closed rfl (by simp [hcapture, hartifact]), rfl⟩

theorem parseStreams_parses : Parses parseStreams StreamsFacts.encode StreamsFacts.wire where
  complete s := by
    unfold parseStreams StreamsFacts.encode
    simp [exactMap_canon, field_sorted, parseStream_parses.complete, StreamsFacts.wire]
  sound := by
    intro value x hcanonical h
    unfold parseStreams at h
    obtain ⟨map, values, hrest, rfl, hfield, hcanon⟩ := exactMap_sound hcanonical (by decide) h
    simp only [List.forall_mem_cons] at hfield
    simp only [hfield, ok_bind, bind_eq_ok, pure_eq_ok,
      parseStream_parses.eq_ok_iff (hcanon "stdout" (by decide)),
      parseStream_parses.eq_ok_iff (hcanon "stderr" (by decide))] at hrest
    obtain ⟨_, ⟨stdout, hstdout, rfl⟩, _, ⟨stderr, hstderr, rfl⟩, rfl⟩ := hrest
    exact ⟨⟨stdout, stderr⟩, canon_eq_closed rfl (by simp [hstdout, hstderr]), rfl⟩

/-! ## Outcomes -/

@[simp] theorem canon_encodeInt (n : Int) : (encodeInt n).canon = encodeInt n := by
  unfold encodeInt
  split <;> rfl

theorem encodeInt_eq_unsigned {n : Int} {m : UInt64} (hn : n < 2 ^ 31) :
    .unsigned m = encodeInt n ↔ n = m.toNat := by
  unfold encodeInt
  split
  next h =>
    have hnat : (UInt64.ofNat n.toNat).toNat = n.toNat := by
      rw [UInt64.toNat_ofNat', Nat.mod_eq_of_lt (by omega)]
    rw [Value.unsigned.injEq, ← UInt64.toNat_inj, hnat]
    omega
  next h =>
    simp only [reduceCtorEq, false_iff]
    omega

theorem encodeInt_eq_negative {n : Int} {m : UInt64} (hn : -2 ^ 31 ≤ n) :
    .negative m = encodeInt n ↔ n = -1 - (m.toNat : Int) := by
  unfold encodeInt
  split
  next h =>
    simp only [reduceCtorEq, false_iff]
    omega
  next h =>
    have hnat : (UInt64.ofNat (-1 - n).toNat).toNat = (-1 - n).toNat := by
      rw [UInt64.toNat_ofNat', Nat.mod_eq_of_lt (by omega)]
    rw [Value.negative.injEq, ← UInt64.toNat_inj, hnat]
    omega

theorem signedI32_eq_ok {n : Int} :
    signedI32 value = .ok n ↔ value = encodeInt n ∧ -2 ^ 31 ≤ n ∧ n < 2 ^ 31 := by
  cases value with
  | unsigned m =>
    simp only [signedI32, bind_eq_ok, rejectIf_eq_ok, pure_eq_ok, exists_const]
    constructor
    · rintro ⟨hm, _, rfl, hrange, rfl⟩
      exact ⟨(encodeInt_eq_unsigned (by omega)).mpr rfl, by omega, by omega⟩
    · intro h
      have hn := (encodeInt_eq_unsigned h.2.2).mp h.1
      exact ⟨by omega, m.toNat, rfl, by omega, hn.symm⟩
  | negative m =>
    simp only [signedI32, bind_eq_ok, rejectIf_eq_ok, pure_eq_ok, exists_const]
    constructor
    · rintro ⟨hm, _, rfl, hrange, rfl⟩
      exact ⟨(encodeInt_eq_negative (by omega)).mpr rfl, by omega, by omega⟩
    · intro h
      have hn := (encodeInt_eq_negative h.2.1).mp h.1
      exact ⟨by omega, -1 - (m.toNat : Int), rfl, by omega, hn.symm⟩
  | _ =>
    unfold encodeInt
    simp only [signedI32, error_bind, reduceCtorEq, false_iff]
    intro h
    split at h <;> cases h.1

theorem bind_exactMap_map {β : Type} {b : β} {rest : List (String × Value) → Except DecodeError β}
    (h : (exactMap (.map map) names >>= rest) = .ok b) :
    hasExactly map names = true ∧ rest map = .ok b := by
  obtain ⟨entries, hentries, hrest⟩ := bind_eq_ok.mp h
  obtain ⟨heq, hexactly⟩ := exactMap_eq_ok.mp hentries
  cases heq
  exact ⟨hexactly, hrest⟩

/-- A map with the only key `kind`. -/
theorem closed_kind {kind : String} (hcanonical : (Value.map map).Canonical)
    (hexactly : hasExactly map ["kind"] = true) (hkind : field map "kind" = .ok (.text kind)) :
    (Value.map [("kind", .text kind)]).canon = .map map := by
  obtain ⟨values, hclosed, hfield, -⟩ := closed_of_hasExactly hcanonical (by decide) hexactly
  have hvalue : values "kind" = .text kind := by
    have := hfield "kind" (by decide)
    rw [hkind, Except.ok.injEq] at this
    exact this.symm
  rw [hclosed]
  simp only [canon_map, sorted, closed, List.map_cons, List.map_nil, canon_text, hvalue]

/-- A map with the keys `kind` and `name`. -/
theorem closed_kind_field {kind name : String} (hcanonical : (Value.map map).Canonical)
    (hne : "kind" ≠ name) (hexactly : hasExactly map ["kind", name] = true)
    (hkind : field map "kind" = .ok (.text kind)) :
    ∃ value, field map name = .ok value ∧ ∀ item : Value, item.canon = value →
      (Value.map [("kind", .text kind), (name, item)]).canon = .map map := by
  obtain ⟨values, hclosed, hfield, -⟩ :=
    closed_of_hasExactly hcanonical (by simp [hne]) hexactly
  simp only [List.forall_mem_cons, hkind, Except.ok.injEq] at hfield
  refine ⟨values name, hfield.2.1, fun item hitem => ?_⟩
  rw [hclosed]
  simp only [canon_map, sorted, closed, List.map_cons, List.map_nil, canon_text, hitem,
    ← hfield.1]

theorem parseKind_sound {kind : String} {outcome x : WireOutcome}
    (hcanonical : (Value.map map).Canonical) (hkind : field map "kind" = .ok (.text kind))
    (h : parseKind (.map map) outcome = .ok x) :
    outcome = x ∧ (Value.map [("kind", .text kind)]).canon = .map map := by
  unfold parseKind at h
  obtain ⟨hexactly, hrest⟩ := bind_exactMap_map h
  exact ⟨pure_eq_ok.mp hrest, closed_kind hcanonical hexactly hkind⟩

theorem parseOutcome_parses :
    Parses parseOutcome (fun o : OutcomeFacts => encodeOutcome o.outcome)
      OutcomeFacts.outcome where
  complete o := by
    have hvalid := o.valid
    cases houtcome : o.outcome with
    | exited code =>
      rw [houtcome] at hvalid
      have hcode : signedI32 (encodeInt code) = .ok code := signedI32_eq_ok.mpr ⟨rfl, hvalid⟩
      simp [parseOutcome, encodeOutcome, canon_map, field_sorted, exactMap_sorted, text, hcode]
    | signaled signal =>
      rw [houtcome] at hvalid
      have hsignal : nonzeroU32 (.unsigned signal.toUInt64) = .ok signal :=
        nonzeroU32_eq_ok.mpr ⟨rfl, hvalid⟩
      simp [parseOutcome, encodeOutcome, canon_map, field_sorted, exactMap_sorted, text, hsignal]
    | _ =>
      simp [parseOutcome, encodeOutcome, canon_map, field_sorted, exactMap_sorted, text,
        parseKind]
  sound := by
    intro value x hcanonical h
    unfold parseOutcome at h
    cases value with
    | map map =>
      simp only [bind_eq_ok, pure_eq_ok, exists_eq_left', text_eq_ok] at h
      obtain ⟨_, hkind, kind, rfl, hrest⟩ := h
      split at hrest
      · obtain ⟨hexactly, hcode⟩ := bind_exactMap_map hrest
        obtain ⟨item, hitem, hmap⟩ :=
          closed_kind_field hcanonical (by decide) hexactly hkind
        simp only [hitem, ok_bind, bind_eq_ok, signedI32_eq_ok, pure_eq_ok] at hcode
        obtain ⟨code, ⟨rfl, hrange⟩, rfl⟩ := hcode
        exact ⟨⟨.exited code, hrange⟩, hmap _ (canon_encodeInt code), rfl⟩
      · obtain ⟨hexactly, hsignal⟩ := bind_exactMap_map hrest
        obtain ⟨item, hitem, hmap⟩ :=
          closed_kind_field hcanonical (by decide) hexactly hkind
        simp only [hitem, ok_bind, bind_eq_ok, nonzeroU32_eq_ok, pure_eq_ok] at hsignal
        obtain ⟨signal, ⟨rfl, hne⟩, rfl⟩ := hsignal
        exact ⟨⟨.signaled signal, hne⟩, hmap _ rfl, rfl⟩
      · obtain ⟨rfl, hmap⟩ := parseKind_sound hcanonical hkind hrest
        exact ⟨⟨.timedOut, trivial⟩, hmap, rfl⟩
      · obtain ⟨rfl, hmap⟩ := parseKind_sound hcanonical hkind hrest
        exact ⟨⟨.denied, trivial⟩, hmap, rfl⟩
      · obtain ⟨rfl, hmap⟩ := parseKind_sound hcanonical hkind hrest
        exact ⟨⟨.launcherFailed, trivial⟩, hmap, rfl⟩
      · obtain ⟨rfl, hmap⟩ := parseKind_sound hcanonical hkind hrest
        exact ⟨⟨.incomplete, trivial⟩, hmap, rfl⟩
      · cases hrest
    | _ => simp at h

/-! ## Resources, eligibility and the trusted computing base -/

theorem parseTerminal_parses : Parses parseTerminal TerminalResources.encode id where
  complete t := by
    unfold parseTerminal TerminalResources.encode
    simp [exactMap_canon, field_sorted, unsigned]
  sound := by
    intro value x hcanonical h
    unfold parseTerminal at h
    obtain ⟨map, values, hterminal, rfl, hfield, hcanon⟩ :=
      exactMap_sound hcanonical (by decide) h
    rw [hfield "memory_events" (by decide), ok_bind] at hterminal
    obtain ⟨memory, memoryValues, hinner, hmemory, hmemoryField, -⟩ :=
      exactMap_sound (hcanon "memory_events" (by decide)) (by decide) hterminal
    rw [hfield "swap_events" (by decide), ok_bind] at hinner
    obtain ⟨swap, swapValues, hrest, hswap, hswapField, -⟩ :=
      exactMap_sound (hcanon "swap_events" (by decide)) (by decide) hinner
    simp only [List.forall_mem_cons] at hfield hmemoryField hswapField
    simp only [hfield, hmemoryField, hswapField, ok_bind, bind_eq_ok, unsigned_eq_ok,
      pure_eq_ok] at hrest
    obtain ⟨memoryPeak, hmemoryPeak, swapPeak, hswapPeak, low, hlow, high, hhigh, max, hmax, oom,
      hoom, oomKill, hoomKill, oomGroupKill, hoomGroupKill, swapMax, hswapMax, fail, hfail,
      rfl⟩ := hrest
    refine ⟨_, ?_, rfl⟩
    simp only [TerminalResources.encode, canon_map, sorted, closed, List.map_cons, List.map_nil,
      canon_unsigned, hmemory, hswap, hmemoryPeak, hswapPeak, hlow, hhigh, hmax, hoom, hoomKill,
      hoomGroupKill, hswapMax, hfail]

theorem parseOptionalTerminal_parses : Parses parseOptionalTerminal encodeTerminal id where
  complete terminal := by
    cases terminal with
    | none => rfl
    | some t =>
      have h := parseTerminal_parses.complete t
      rw [TerminalResources.encode, canon_map] at h
      simp [encodeTerminal, TerminalResources.encode, canon_map, parseOptionalTerminal, h]
  sound := by
    intro value x hcanonical h
    unfold parseOptionalTerminal at h
    split at h
    · cases h
      exact ⟨none, rfl, rfl⟩
    · simp only [bind_eq_ok, pure_eq_ok, parseTerminal_parses.eq_ok_iff hcanonical] at h
      obtain ⟨_, ⟨t, ht, rfl⟩, rfl⟩ := h
      exact ⟨some t, ht, rfl⟩

theorem parseResources_parses : Parses parseResources ResourceFacts.encode ResourceFacts.wire where
  complete r := by
    have hprocesses : nonzeroU32 (.unsigned r.processes.toUInt64) = .ok r.processes :=
      nonzeroU32_eq_ok.mpr ⟨rfl, r.processes_ne⟩
    unfold parseResources ResourceFacts.encode
    simp [exactMap_canon, field_sorted, unsigned, hprocesses, r.limits_valid,
      parseReasonArray_parses.complete, parseOptionalTerminal_parses.complete,
      ResourceFacts.wire]
  sound := by
    intro value x hcanonical h
    unfold parseResources at h
    obtain ⟨map, values, hresources, rfl, hfield, hcanon⟩ :=
      exactMap_sound hcanonical (by decide) h
    rw [hfield "configured" (by decide), ok_bind] at hresources
    obtain ⟨configured, members, hrest, hconfigured, hmember, -⟩ :=
      exactMap_sound (hcanon "configured" (by decide)) (by decide) hresources
    simp only [List.forall_mem_cons] at hfield hmember
    simp only [hfield, hmember, ok_bind, bind_eq_ok, unsigned_eq_ok, nonzeroU32_eq_ok,
      rejectIf_eq_ok, pure_eq_ok, exists_const, not_or, not_not, ne_eq,
      parseReasonArray_parses.eq_ok_iff (hcanon "limit_events" (by decide)),
      parseOptionalTerminal_parses.eq_ok_iff (hcanon "terminal" (by decide))] at hrest
    obtain ⟨processes, ⟨hprocesses, hne⟩, memory, hmemory, swap, hswap, oomGroup, hoomGroup,
      ⟨hvalid, rfl⟩, _, ⟨limitEvents, hlimitEvents, rfl⟩, _, ⟨terminal, hterminal, rfl⟩,
      rfl⟩ := hrest
    refine ⟨⟨processes, memory, swap, terminal, limitEvents, hne, hvalid⟩, ?_, rfl⟩
    simp only [ResourceFacts.encode, canon_map, sorted, closed, List.map_cons, List.map_nil,
      canon_unsigned, hconfigured, hprocesses, hmemory, hswap, hoomGroup, hlimitEvents,
      hterminal]

@[simp] theorem wireEligibilityStatus_eq_ok {status : WireEligibilityStatus} :
    wireEligibilityStatus s = .ok status ↔ s = status.asStr := by
  constructor
  · unfold wireEligibilityStatus
    split <;> rintro ⟨⟩ <;> rfl
  · rintro rfl
    cases status <;> rfl

theorem parseEligibility_parses : Parses parseEligibility WireEligibility.encode id where
  complete e := by
    have hstatus : wireEligibilityStatus e.status.asStr = .ok e.status :=
      wireEligibilityStatus_eq_ok.mpr rfl
    unfold parseEligibility WireEligibility.encode
    simp [exactMap_canon, field_sorted, text, hstatus, parseReasonArray_parses.complete]
  sound := by
    intro value x hcanonical h
    unfold parseEligibility at h
    obtain ⟨map, values, hrest, rfl, hfield, hcanon⟩ := exactMap_sound hcanonical (by decide) h
    simp only [List.forall_mem_cons] at hfield
    simp only [hfield, ok_bind, bind_eq_ok, text_eq_ok, wireEligibilityStatus_eq_ok, pure_eq_ok,
      parseReasonArray_parses.eq_ok_iff (hcanon "reasons" (by decide))] at hrest
    obtain ⟨_, hstatus, status, rfl, _, ⟨reasons, hreasons, rfl⟩, rfl⟩ := hrest
    exact ⟨⟨status, reasons⟩, canon_eq_closed rfl (by simp [hstatus, hreasons]), rfl⟩

theorem parseTcbEntry_parses : Parses parseTcbEntry WireTcbEntry.encode id where
  complete entry := by
    unfold parseTcbEntry WireTcbEntry.encode
    simp [exactMap_canon, field_sorted, text]
  sound := by
    intro value x hcanonical h
    unfold parseTcbEntry at h
    obtain ⟨map, values, hrest, rfl, hfield, -⟩ := exactMap_sound hcanonical (by decide) h
    simp only [List.forall_mem_cons] at hfield
    simp only [hfield, ok_bind, bind_eq_ok, text_eq_ok, pure_eq_ok] at hrest
    obtain ⟨role, hrole, identity, hidentity, rfl⟩ := hrest
    exact ⟨⟨role, identity⟩, canon_eq_closed rfl (by simp [hrole, hidentity]), rfl⟩

theorem parseTcb_parses : Parses parseTcb TcbFacts.encode TcbFacts.entries where
  complete t := by
    have hcollect := parseTcbEntry_parses.collect_complete t.entries
    rw [List.map_id] at hcollect
    simp [parseTcb, TcbFacts.encode, canon_array, array, t.entries_ne, Function.comp_def,
      hcollect]
  sound := by
    intro value x hcanonical h
    simp only [parseTcb, bind_eq_ok, array_eq_ok, rejectIf_eq_ok, exists_const] at h
    obtain ⟨values, rfl, hne, hcollect⟩ := h
    obtain ⟨entries, rfl, rfl⟩ :=
      parseTcbEntry_parses.collect_sound (canonical_array.mp hcanonical) hcollect
    rw [List.map_eq_nil_iff] at hne
    refine ⟨⟨entries, hne⟩, ?_, (List.map_id entries).symm⟩
    rw [TcbFacts.encode, canon_array, List.map_map]
    rfl

end ProofboundRuntime.Verify
