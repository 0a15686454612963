import ProofboundRuntime.Core.Permissive

/-!
# Policies are known from their bytes

The bytes of a policy are the encoding of an item.  Two items with one encoding are the
same in canonical order (`WireV2.canon_eq_of_encode`), and a map of a policy has the same
keys for every policy, so its values agree key by key.  For each record of a policy there
is one lemma that its item determines it, up to the policy as a whole.
-/

namespace ProofboundRuntime.Core

open Cbor Result

/-! ## The encoder -/

namespace WireV2

open Wire

theorem fits_of_encodeItem {value : Value} {output : List UInt8}
    (h : encodeItem value = .ok output) : value.Fits := by
  induction value generalizing output with
  | bytes value => exact (encodeBytes_eq_ok.mp h).1
  | text value => exact (encodeText_eq_ok.mp h).1
  | array values ih =>
    simp only [encodeItem, bind_eq_ok, encodeLength_eq_ok] at h
    obtain ⟨_, ⟨hlength, -⟩, items, hitems, -⟩ := h
    refine ⟨hlength, fitsList_iff.mpr fun value hvalue => ?_⟩
    obtain ⟨item, hitem⟩ := exists_ok_of_encodeItems hitems value hvalue
    exact ih value hvalue hitem
  | map entries ih =>
    simp only [encodeItem, encodeSorted, bind_eq_ok, encodeKeys_eq_ok, encodeLength_eq_ok] at h
    obtain ⟨keys, ⟨hkeys, rfl⟩, _, -, _, ⟨hlength, -⟩, items, hitems, -⟩ := h
    rw [(Sorting.sortBy_perm _).length_eq, List.length_map] at hlength
    refine ⟨hlength, fitsEntries_iff.mpr fun e he => ⟨hkeys e he, ?_⟩⟩
    obtain ⟨item, hitem⟩ := exists_ok_of_assemble hitems (textItem e.1, encodeItem e.2)
      (Sorting.mem_sortBy.mpr (List.mem_map_of_mem he))
    exact ih e he hitem
  | _ => trivial

/-- What is encoded has lengths that fit, and its encoding is the serialization in order. -/
theorem encodeItem_sound {value : Value} {output : List UInt8}
    (h : encodeItem value = .ok output) : value.Fits ∧ value.canon.serialize = output := by
  have hfits := fits_of_encodeItem h
  have hencode := encodeItem_eq_ok (noDup_of_encodeItem h) hfits
  exact ⟨hfits, Except.ok.inj (hencode.symm.trans h)⟩

/-- Items with one encoding are the same in canonical order. -/
theorem canon_eq_of_encode {a b : Value} {output : List UInt8} (ha : encode a = .ok output)
    (hb : encode b = .ok output) : a.canon = b.canon := by
  obtain ⟨hfits, hserialize⟩ := encodeItem_sound ha
  obtain ⟨hfits', hserialize'⟩ := encodeItem_sound hb
  exact selfDelimiting_serialize.inj (fits_canon hfits) (fits_canon hfits')
    (hserialize.trans hserialize'.symm)

end WireV2

/-! ## Records -/

/-- The item of a value, up to the order of its maps, determines the value. -/
def Determines {α : Type} (item : α → Value) : Prop :=
  Function.Injective fun a => (item a).canon

theorem Determines.array_inj {α : Type} {item : α → Value} (h : Determines item) {as bs : List α}
    (heq : (Value.array (as.map item)).canon = (Value.array (bs.map item)).canon) : as = bs := by
  rw [canon_array, canon_array, Value.array.injEq, List.map_map, List.map_map] at heq
  exact List.map_injective_iff.mpr h heq

theorem pathRoleName_injective : Function.Injective pathRoleName := by
  intro a b h
  cases a <;> cases b <;> first | rfl | exact absurd h (by decide)

theorem fileAccessName_injective : Function.Injective fileAccessName := by
  intro a b h
  cases a <;> cases b <;> first | rfl | exact absurd h (by decide)

theorem minimumVersionName_injective : Function.Injective minimumVersionName := by
  intro a b h
  cases a <;> cases b <;> first | rfl | exact absurd h (by decide)

theorem AuthorityPath.asStr_inj {a b : AuthorityPath} : a.asStr = b.asStr ↔ a = b := by
  constructor
  · intro h
    cases a
    cases b
    cases h
    rfl
  · exact congrArg AuthorityPath.asStr

theorem determines_ruleValue : Determines ruleValue := by
  intro a b h
  have hvalues := canon_map_inj ["path", "role", "access"] h rfl rfl (by decide)
  simp only [List.map_cons, List.map_nil, canon_text, List.cons.injEq, Value.text.injEq,
    AuthorityPath.asStr_inj, pathRoleName_injective.eq_iff, fileAccessName_injective.eq_iff]
    at hvalues
  obtain ⟨hpath, hrole, haccess, -⟩ := hvalues
  cases a
  cases b
  rw [PathAuthority.mk.injEq]
  exact ⟨hpath, haccess, hrole⟩

theorem determines_environment :
    Determines fun name : EnvironmentName => Value.text name.asStr := by
  intro a b h
  exact EnvironmentName.asStr_inj.mp (Value.text.inj h)

theorem determines_supportPath :
    Determines fun path : NetworkSupportPath => Value.text path.asStr := by
  intro a b h
  exact NetworkSupportPath.asStr_inj.mp (Value.text.inj h)

/-- The item of version 2 limits determines them. -/
theorem cgroupValue_inj {a b : ResourceLimits} {memory memory' : MemoryByteLimit}
    {swap swap' : SwapByteLimit} (hmemory : a.memory = some memory) (hswap : a.swap = some swap)
    (hmemory' : b.memory = some memory') (hswap' : b.swap = some swap')
    (h : (cgroupValue a memory swap).canon = (cgroupValue b memory' swap').canon) : a = b := by
  have hvalues := canon_map_inj ["pids.max", "memory.max", "memory.oom.group",
    "memory.swap.max", "stderr_bytes", "stdout_bytes", "wall_time_ms"] h rfl rfl (by decide)
  simp only [List.map_cons, List.map_nil, canon_unsigned, List.cons.injEq, Value.unsigned.injEq,
    UInt32.toUInt64_inj] at hvalues
  obtain ⟨hprocesses, hmemoryEq, -, hswapEq, hstderr, hstdout, hwallTime, -⟩ := hvalues
  obtain ⟨⟨processes, _⟩, ⟨wallTime, _⟩, ⟨stdout⟩, ⟨stderr⟩, _, _⟩ := a
  obtain ⟨⟨processes', _⟩, ⟨wallTime', _⟩, ⟨stdout'⟩, ⟨stderr'⟩, _, _⟩ := b
  cases hmemory
  cases hswap
  cases hmemory'
  cases hswap'
  cases hprocesses
  cases hwallTime
  cases hstdout
  cases hstderr
  rw [MemoryByteLimit.ext hmemoryEq, SwapByteLimit.ext hswapEq]

theorem determines_addressValue : Determines addressValue := by
  intro a b h
  cases a with
  | ipv4 bytes =>
    cases b with
    | ipv4 bytes' =>
      have hvalues := canon_map_inj ["family", "bytes"] h rfl rfl (by decide)
      simp only [List.map_cons, List.map_nil, canon_bytes, List.cons.injEq, Value.bytes.injEq]
        at hvalues
      rw [Vector.toList_inj.mp hvalues.2.1]
    | ipv6 bytes' =>
      have hvalues := canon_map_inj ["family", "bytes"] h rfl rfl (by decide)
      simp at hvalues
  | ipv6 bytes =>
    cases b with
    | ipv4 bytes' =>
      have hvalues := canon_map_inj ["family", "bytes"] h rfl rfl (by decide)
      simp at hvalues
    | ipv6 bytes' =>
      have hvalues := canon_map_inj ["family", "bytes"] h rfl rfl (by decide)
      simp only [List.map_cons, List.map_nil, canon_bytes, List.cons.injEq, Value.bytes.injEq]
        at hvalues
      rw [Vector.toList_inj.mp hvalues.2.1]

theorem determines_resolverValue : Determines resolverValue := by
  intro a b h
  have hvalues := canon_map_inj ["address", "port", "configuration", "maximum_cname_depth",
    "maximum_answer_count", "maximum_response_bytes", "resolution_deadline_ms",
    "attempt_deadline_ms", "address_order"] h rfl rfl (by decide)
  simp only [List.map_cons, List.map_nil, canon_unsigned, canon_text, List.cons.injEq,
    Value.unsigned.injEq, Value.text.injEq, UInt16.toUInt64_inj, NetworkSupportPath.asStr_inj]
    at hvalues
  obtain ⟨haddress, hport, hconfiguration, hdepth, hcount, hbytes, hresolution, hattempt, -⟩ :=
    hvalues
  have haddress := determines_addressValue haddress
  obtain ⟨⟨address, ⟨port, _⟩⟩, configuration, depth, count, bytes, resolution, attempt, order,
    _, _⟩ := a
  obtain ⟨⟨address', ⟨port', _⟩⟩, configuration', depth', count', bytes', resolution', attempt',
    order', _, _⟩ := b
  cases haddress
  cases hport
  cases hconfiguration
  cases hdepth
  cases hcount
  cases hbytes
  cases hresolution
  cases hattempt
  cases order
  cases order'
  rfl

theorem determines_tlsValue : Determines tlsValue := by
  intro a b h
  have hvalues := canon_map_inj ["trust_root_set", "minimum_version",
    "service_name_verification", "revocation", "session_resumption", "early_data"] h rfl rfl
    (by decide)
  simp only [List.map_cons, List.map_nil, canon_text, List.cons.injEq, Value.text.injEq,
    NetworkSupportPath.asStr_inj, minimumVersionName_injective.eq_iff] at hvalues
  obtain ⟨hroots, hversion, -⟩ := hvalues
  obtain ⟨roots, version, verification, revocation⟩ := a
  obtain ⟨roots', version', verification', revocation'⟩ := b
  cases hroots
  cases hversion
  cases verification
  cases verification'
  cases revocation
  cases revocation'
  rfl

theorem determines_sessionLimitsValue : Determines sessionLimitsValue := by
  intro a b h
  have hvalues := canon_map_inj ["setup_time_ms", "session_time_ms", "child_to_service_bytes",
    "service_to_child_bytes", "dns_messages", "endpoint_attempts", "tls_handshake_bytes"] h rfl
    rfl (by decide)
  simp only [List.map_cons, List.map_nil, canon_unsigned, List.cons.injEq, Value.unsigned.injEq,
    UInt16.toUInt64_inj] at hvalues
  cases a
  cases b
  simpa only [ServiceSessionLimits.mk.injEq, and_true] using hvalues

theorem determines_credentialValue : Determines credentialValue := by
  intro a b h
  cases a with
  | none =>
    cases b with
    | none => rfl
    | some source => simp [credentialValue, canon_map] at h
  | some source =>
    cases b with
    | none => simp [credentialValue, canon_map] at h
    | some source' =>
      have hvalues := canon_map_inj ["id", "service", "environment"] h rfl rfl (by decide)
      simp only [List.map_cons, List.map_nil, canon_text, List.cons.injEq, Value.text.injEq]
        at hvalues
      obtain ⟨hid, hservice, henvironment, -⟩ := hvalues
      obtain ⟨⟨id, _⟩, ⟨service, _⟩, environment⟩ := source
      obtain ⟨⟨id', _⟩, ⟨service', _⟩, environment'⟩ := source'
      cases hid
      cases hservice
      cases EnvironmentName.asStr_inj.mp henvironment
      rfl

theorem determines_serviceSessionValue : Determines serviceSessionValue := by
  intro a b h
  have hvalues := canon_map_inj ["mode", "service", "resolver", "tls", "limits",
    "connector_executable", "connector_runtime_read", "local_channel", "credential_source"] h rfl
    rfl (by decide)
  simp only [List.map_cons, List.map_nil, canon_text, List.cons.injEq, Value.text.injEq,
    NetworkSupportPath.asStr_inj] at hvalues
  obtain ⟨-, hservice, hresolver, htls, hlimits, hexecutable, hpaths, hchannel, hcredential, -⟩ :=
    hvalues
  have hservice := canon_map_inj ["name", "port"] hservice rfl rfl (by decide)
  have hchannel := canon_map_inj ["protocol", "child_descriptor"] hchannel rfl rfl (by decide)
  simp only [List.map_cons, List.map_nil, canon_text, canon_unsigned, List.cons.injEq,
    Value.text.injEq, Value.unsigned.injEq, UInt16.toUInt64_inj] at hservice hchannel
  have hresolver := determines_resolverValue hresolver
  have htls := determines_tlsValue htls
  have hlimits := determines_sessionLimitsValue hlimits
  have hpaths := determines_supportPath.array_inj hpaths
  have hcredential := determines_credentialValue hcredential
  obtain ⟨⟨service, _⟩, ⟨port, _⟩, resolution, tls, limits, executable, paths, channel,
    ⟨descriptor, _⟩, credential, _, _, _, _⟩ := a
  obtain ⟨⟨service', _⟩, ⟨port', _⟩, resolution', tls', limits', executable', paths', channel',
    ⟨descriptor', _⟩, credential', _, _, _, _⟩ := b
  cases hservice.1
  cases hservice.2.1
  cases hresolver
  cases htls
  cases hlimits
  cases hexecutable
  cases hpaths
  cases channel
  cases channel'
  cases hchannel.2.1
  cases hcredential
  rfl

/-! ## Policies -/

variable {output : List UInt8}

theorem CompiledPolicy.canonicalBytes_eq_ok {policy : CompiledPolicy}
    (h : policy.canonicalBytes = .ok output) : ∃ memory swap,
      policy.cgroup.memory = some memory ∧ policy.cgroup.swap = some swap ∧
        WireV2.encode (policy.wireValue memory swap) = .ok output := by
  simp only [canonicalBytes, bind_eq_ok, okOr_eq_ok, mapError_eq_ok] at h
  obtain ⟨memory, hmemory, swap, hswap, h⟩ := h
  exact ⟨memory, swap, hmemory, hswap, h⟩

theorem noDup_ruleValue (rule : PathAuthority) : (ruleValue rule).NoDup := by
  simp [ruleValue, Value.NoDup, Value.AllMaps, AllMapsEntries]

/-- A version 2 policy whose lengths fit has bytes. -/
theorem CompiledPolicy.canonicalBytes_of_fits {policy : CompiledPolicy} {memory : MemoryByteLimit}
    {swap : SwapByteLimit} (hmemory : policy.cgroup.memory = some memory)
    (hswap : policy.cgroup.swap = some swap) (hfits : (policy.wireValue memory swap).Fits) :
    policy.canonicalBytes = .ok (policy.wireValue memory swap).canon.serialize := by
  have hrule := noDup_ruleValue
  have hnodup : (policy.wireValue memory swap).NoDup := by
    simp_all [wireValue, cgroupValue, Value.NoDup, Value.AllMaps, AllMapsEntries, allMapsList_iff]
  rw [canonicalBytes, hmemory, hswap]
  exact mapError_eq_ok.mpr (WireV2.encodeItem_eq_ok hnodup hfits)

/-- The policy of a child is known from its rules, its names and its limits. -/
theorem CompiledPolicy.eq_of_parts {p q : CompiledPolicy} (hrules : p.filesystem = q.filesystem)
    (hnames : p.environment = q.environment) (hlimits : p.cgroup = q.cgroup) : p = q := by
  obtain ⟨rules, names, network, limits, privileges⟩ := p
  obtain ⟨rules', names', network', limits', privileges'⟩ := q
  cases hrules
  cases hnames
  cases hlimits
  cases network
  cases network'
  cases privileges
  cases privileges'
  rfl

theorem CompiledPolicy.eq_of_canonicalBytes {p q : CompiledPolicy}
    (hp : p.canonicalBytes = .ok output) (hq : q.canonicalBytes = .ok output) : p = q := by
  obtain ⟨memory, swap, hmemory, hswap, hp⟩ := canonicalBytes_eq_ok hp
  obtain ⟨memory', swap', hmemory', hswap', hq⟩ := canonicalBytes_eq_ok hq
  have hvalues := canon_map_inj ["schema", "cgroup", "network", "filesystem", "environment",
    "no_new_privileges"] (WireV2.canon_eq_of_encode hp hq) rfl rfl (by decide)
  simp only [List.map_cons, List.map_nil, List.cons.injEq] at hvalues
  obtain ⟨-, hlimits, -, hrules, hnames, -⟩ := hvalues
  refine eq_of_parts (determines_ruleValue.array_inj hrules)
    (determines_environment.array_inj hnames) ?_
  exact cgroupValue_inj hmemory hswap hmemory' hswap' hlimits

theorem CompiledServicePolicy.canonicalBytes_eq_ok {policy : CompiledServicePolicy}
    (h : policy.canonicalBytes = .ok output) : ∃ memory swap,
      policy.child.cgroup.memory = some memory ∧ policy.child.cgroup.swap = some swap ∧
        WireV2.encode (policy.item memory swap) = .ok output := by
  simp only [canonicalBytes, wireValue, bind_eq_ok, okOr_eq_ok, pure_eq_ok, mapError_eq_ok] at h
  obtain ⟨_, ⟨memory, hmemory, swap, hswap, rfl⟩, h⟩ := h
  exact ⟨memory, swap, hmemory, hswap, h⟩

theorem noDup_serviceSessionValue (session : AuthenticatedServiceSession) :
    (serviceSessionValue session).NoDup := by
  have haddress (address : ResolverAddress) : (addressValue address).NoDup := by
    cases address <;> simp [addressValue, Value.NoDup, Value.AllMaps, AllMapsEntries]
  have hcredential (source : Option CredentialSource) : (credentialValue source).NoDup := by
    cases source <;> simp [credentialValue, Value.NoDup, Value.AllMaps, AllMapsEntries]
  simp_all [serviceSessionValue, resolverValue, tlsValue, sessionLimitsValue, Value.NoDup,
    Value.AllMaps, AllMapsEntries, allMapsList_iff]

/-- A version 2 service policy whose lengths fit has bytes. -/
theorem CompiledServicePolicy.canonicalBytes_of_fits {policy : CompiledServicePolicy}
    {value : Value} (hvalue : policy.wireValue = .ok value) (hfits : value.Fits) :
    policy.canonicalBytes = .ok value.canon.serialize := by
  have hrule := noDup_ruleValue
  have hsession := noDup_serviceSessionValue policy.serviceSession
  have hnodup : value.NoDup := by
    simp only [wireValue, bind_eq_ok, pure_eq_ok] at hvalue
    obtain ⟨memory, -, swap, -, rfl⟩ := hvalue
    simp_all [item, cgroupValue, Value.NoDup, Value.AllMaps, AllMapsEntries, allMapsList_iff]
  rw [canonicalBytes, hvalue]
  exact mapError_eq_ok.mpr (WireV2.encodeItem_eq_ok hnodup hfits)

theorem CompiledServicePolicy.eq_of_canonicalBytes {p q : CompiledServicePolicy}
    (hp : p.canonicalBytes = .ok output) (hq : q.canonicalBytes = .ok output) : p = q := by
  obtain ⟨memory, swap, hmemory, hswap, hp⟩ := canonicalBytes_eq_ok hp
  obtain ⟨memory', swap', hmemory', hswap', hq⟩ := canonicalBytes_eq_ok hq
  have hvalues := canon_map_inj ["schema", "cgroup", "network", "child_network",
    "service_session", "filesystem", "environment", "no_new_privileges"]
    (WireV2.canon_eq_of_encode hp hq) rfl rfl (by decide)
  simp only [List.map_cons, List.map_nil, List.cons.injEq] at hvalues
  obtain ⟨-, hlimits, -, -, hsession, hrules, hnames, -⟩ := hvalues
  have hchild : p.child = q.child :=
    CompiledPolicy.eq_of_parts (determines_ruleValue.array_inj hrules)
      (determines_environment.array_inj hnames)
      (cgroupValue_inj hmemory hswap hmemory' hswap' hlimits)
  have hsession := determines_serviceSessionValue hsession
  obtain ⟨child, session, network⟩ := p
  obtain ⟨child', session', network'⟩ := q
  cases hchild
  cases hsession
  cases network
  cases network'
  rfl

/-- The two kinds of policy have maps of different sizes. -/
theorem canonicalBytes_ne {p : CompiledServicePolicy} {q : CompiledPolicy}
    (hp : p.canonicalBytes = .ok output) : q.canonicalBytes ≠ .ok output := by
  intro hq
  obtain ⟨memory, swap, -, -, hp⟩ := CompiledServicePolicy.canonicalBytes_eq_ok hp
  obtain ⟨memory', swap', -, -, hq⟩ := CompiledPolicy.canonicalBytes_eq_ok hq
  have hcanon := WireV2.canon_eq_of_encode hp hq
  rw [CompiledServicePolicy.item, CompiledPolicy.wireValue, canon_map, canon_map,
    Value.map.injEq] at hcanon
  have hlength := congrArg List.length hcanon
  simp only [sorted, (Sorting.sortBy_perm _).length_eq] at hlength
  cases hlength

/-- Bytes identify a policy, a service policy, and which of the two it is. -/
theorem canonicalBytes_identify :
    (∀ (p q : CompiledPolicy) (output : List UInt8),
      p.canonicalBytes = .ok output → q.canonicalBytes = .ok output → p = q) ∧
    (∀ (p q : CompiledServicePolicy) (output : List UInt8),
      p.canonicalBytes = .ok output → q.canonicalBytes = .ok output → p = q) ∧
    ∀ (p : CompiledServicePolicy) (q : CompiledPolicy) (output : List UInt8),
      p.canonicalBytes = .ok output → q.canonicalBytes ≠ .ok output :=
  ⟨fun _ _ _ => CompiledPolicy.eq_of_canonicalBytes,
    fun _ _ _ => CompiledServicePolicy.eq_of_canonicalBytes, fun _ _ _ => canonicalBytes_ne⟩

/-- The policy without the names of its environment. -/
def CompiledServicePolicy.bare (policy : CompiledServicePolicy) : CompiledServicePolicy :=
  { policy with child := { policy.child with environment := [] } }

/-- The policy of the sample, its child, and both without the environment have bytes, no
two of those compared alike. -/
theorem canonicalBytes_identify_sample : ∃ plan policy service child bare bareChild,
    Plan.parseServiceExecutionPlan (fun _ => false) sampleServicePlanBytes = .ok plan ∧
      compileServicePolicy plan = .ok policy ∧ policy.canonicalBytes = .ok service ∧
      policy.child.canonicalBytes = .ok child ∧ policy.bare.canonicalBytes = .ok bare ∧
      policy.bare.child.canonicalBytes = .ok bareChild ∧
      child ≠ bareChild ∧ service ≠ bare ∧ service ≠ child := by
  have hok : ((Plan.parseServiceExecutionPlan (fun _ => false)
      sampleServicePlanBytes).toOption.any fun plan =>
        (compileServicePolicy plan).toOption.any fun policy =>
          policy.child.environment ≠ [] ∧ policy.canonicalBytes.toOption.isSome ∧
            policy.child.canonicalBytes.toOption.isSome ∧
            policy.bare.canonicalBytes.toOption.isSome ∧
            policy.bare.child.canonicalBytes.toOption.isSome) = true := by
    unfold Plan.parseServiceExecutionPlan Plan.parseExecutionPlanContractV2
    rw [decode_sampleServicePlanBytes]
    decide +kernel
  obtain ⟨plan, hplan, hpolicies⟩ := (Option.any_eq_true _ _).mp hok
  obtain ⟨policy, hpolicy, hbytes⟩ := (Option.any_eq_true _ _).mp hpolicies
  simp only [decide_eq_true_eq, Option.isSome_iff_exists, toOption_eq_some] at hbytes
  obtain ⟨hnames, ⟨service, hservice⟩, ⟨child, hchild⟩, ⟨bare, hbare⟩, bareChild, hbareChild⟩ :=
    hbytes
  refine ⟨plan, policy, service, child, bare, bareChild, toOption_eq_some.mp hplan,
    toOption_eq_some.mp hpolicy, hservice, hchild, hbare, hbareChild, ?_, ?_, ?_⟩
  · rintro rfl
    exact hnames (congrArg CompiledPolicy.environment
      (canonicalBytes_identify.1 _ _ child hchild hbareChild))
  · rintro rfl
    exact hnames (congrArg (·.child.environment)
      (canonicalBytes_identify.2.1 _ _ service hservice hbare))
  · rintro rfl
    exact canonicalBytes_identify.2.2 policy policy.child service hservice hchild

end ProofboundRuntime.Core
