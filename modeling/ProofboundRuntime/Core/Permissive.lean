import ProofboundRuntime.Core.Policy

/-!
# Permissiveness

The comparisons of limits and of sessions are conjunctions over their fields.  Limits are
compared as their bounds, where no bound is the greatest, and a session as what it has in
common with the other and what it grants: bounds and a set of paths.  Both are partial
orders since limits and sessions are known from these (`ResourceLimits.bounds_injective`,
`AuthenticatedServiceSession.parts_injective`), and a policy is compiled to the plan's own
limits and session.
-/

namespace ProofboundRuntime.Core

open Result Sorting

/-! ## Pulling an order back -/

section

variable {α β γ : Type}

/-- The same in the first component, and no more in the second. -/
def SameAndLe [LE β] (a b : α × β) : Prop := a.1 = b.1 ∧ a.2 ≤ b.2

instance [PartialOrder β] : IsPartialOrder (α × β) SameAndLe where
  refl _ := ⟨rfl, le_rfl⟩
  trans _ _ _ h h' := ⟨h.1.trans h'.1, h.2.trans h'.2⟩
  antisymm _ _ h h' := Prod.ext h.1 (le_antisymm h.2 h'.2)

/-- A comparison by an injective view is a partial order when that of the views is. -/
theorem isPartialOrder_of_view {r : α → α → Prop} {s : γ → γ → Prop} [IsPartialOrder γ s]
    {view : α → γ} (hview : Function.Injective view) (h : ∀ a b, r a b ↔ s (view a) (view b)) :
    IsPartialOrder α r := by
  let embedding : r ↪r s := ⟨⟨view, hview⟩, fun {a b} => (h a b).symm⟩
  exact embedding.isPartialOrder

end

/-! ## Limits -/

/-- A bound, where no bound is the greatest. -/
def boundOf : Option UInt64 → WithTop ℕ
  | none => ⊤
  | some bound => (bound.toNat : ℕ)

theorem optionalBoundIsNoMorePermissive_iff (left right : Option UInt64) :
    optionalBoundIsNoMorePermissive left right = true ↔ boundOf left ≤ boundOf right := by
  cases left with
  | none =>
    cases right with
    | none => exact iff_of_true rfl le_rfl
    | some right =>
      exact iff_of_false Bool.false_ne_true (not_le_of_gt (WithTop.coe_lt_top right.toNat))
  | some left =>
    cases right with
    | none => exact iff_of_true rfl le_top
    | some right =>
      rw [optionalBoundIsNoMorePermissive, decide_eq_true_eq, UInt64.le_iff_toNat_le, boundOf,
        boundOf, Nat.cast_le]

theorem boundOf_injective : Function.Injective boundOf := by
  intro left right h
  cases left with
  | none =>
    cases right with
    | none => rfl
    | some right => exact absurd h.symm (WithTop.coe_ne_top)
  | some left =>
    cases right with
    | none => exact absurd h (WithTop.coe_ne_top)
    | some right => rw [UInt64.toNat.inj (WithTop.coe_injective h)]

namespace ResourceLimits

def bounds (limits : ResourceLimits) : ℕ × ℕ × ℕ × ℕ × WithTop ℕ × WithTop ℕ :=
  (limits.processes.get.toNat, limits.wallTime.milliseconds.toNat, limits.stdout.get.toNat,
    limits.stderr.get.toNat, boundOf (limits.memory.map MemoryByteLimit.get),
    boundOf (limits.swap.map SwapByteLimit.get))

theorem isNoMorePermissiveThan_iff (a b : ResourceLimits) :
    a.isNoMorePermissiveThan b = true ↔ a.bounds ≤ b.bounds := by
  simp only [isNoMorePermissiveThan, Bool.and_eq_true, decide_eq_true_eq,
    optionalBoundIsNoMorePermissive_iff, bounds, Prod.mk_le_mk, UInt32.le_iff_toNat_le,
    UInt64.le_iff_toNat_le, and_assoc]

theorem bounds_injective : Function.Injective bounds := by
  intro a b h
  simp only [bounds, Prod.mk.injEq] at h
  obtain ⟨hprocesses, hwallTime, hstdout, hstderr, hmemory, hswap⟩ := h
  obtain ⟨⟨processes, _⟩, ⟨wallTime, _⟩, ⟨stdout⟩, ⟨stderr⟩, memory, swap⟩ := a
  obtain ⟨⟨processes', _⟩, ⟨wallTime', _⟩, ⟨stdout'⟩, ⟨stderr'⟩, memory', swap'⟩ := b
  cases UInt32.toNat.inj hprocesses
  cases UInt64.toNat.inj hwallTime
  cases UInt64.toNat.inj hstdout
  cases UInt64.toNat.inj hstderr
  cases Option.map_injective (fun _ _ => MemoryByteLimit.ext) (boundOf_injective hmemory)
  cases Option.map_injective (fun _ _ => SwapByteLimit.ext) (boundOf_injective hswap)
  rfl

theorem isPartialOrder :
    IsPartialOrder ResourceLimits fun a b => a.isNoMorePermissiveThan b = true :=
  isPartialOrder_of_view bounds_injective isNoMorePermissiveThan_iff

end ResourceLimits

/-! ## Sessions -/

/-- What two compared sessions have in common. -/
structure SessionFrame where
  service : ServiceName
  port : TcpPort
  endpoint : ResolverEndpoint
  configuration : NetworkSupportPath
  addressOrder : AddressOrder
  tls : TlsPolicy
  connectorExecutable : NetworkSupportPath
  localChannel : LocalChannelProtocol
  childDescriptor : ChildChannelDescriptor
  credentialSource : Option CredentialSource

/-- The bounds of the resolver and of the session. -/
abbrev SessionBounds := (ℕ × ℕ × ℕ × ℕ × ℕ) × (ℕ × ℕ × ℕ × ℕ × ℕ × ℕ × ℕ)

def ResolutionPolicy.bounds (policy : ResolutionPolicy) : ℕ × ℕ × ℕ × ℕ × ℕ :=
  (policy.maximumCnameDepth.toNat, policy.maximumAnswerCount.toNat,
    policy.maximumResponseBytes.toNat, policy.resolutionDeadlineMs.toNat,
    policy.attemptDeadlineMs.toNat)

def ServiceSessionLimits.bounds (limits : ServiceSessionLimits) : ℕ × ℕ × ℕ × ℕ × ℕ × ℕ × ℕ :=
  (limits.setupTimeMs.toNat, limits.sessionTimeMs.toNat, limits.childToServiceBytes.toNat,
    limits.serviceToChildBytes.toNat, limits.dnsMessages.toNat, limits.endpointAttempts.toNat,
    limits.tlsHandshakeBytes.toNat)

theorem ServiceSessionLimits.isNoMorePermissiveThan_iff (a b : ServiceSessionLimits) :
    a.isNoMorePermissiveThan b = true ↔ a.bounds ≤ b.bounds := by
  simp only [isNoMorePermissiveThan, Bool.and_eq_true, decide_eq_true_eq, bounds, Prod.mk_le_mk,
    UInt16.le_iff_toNat_le, UInt64.le_iff_toNat_le, and_assoc]

theorem ServiceSessionLimits.bounds_injective : Function.Injective bounds := by
  intro a b h
  simp only [bounds, Prod.mk.injEq, UInt64.toNat_inj, UInt16.toNat_inj] at h
  cases a
  cases b
  simpa only [ServiceSessionLimits.mk.injEq] using h

theorem ResolutionPolicy.isNoMorePermissiveThan_iff (a b : ResolutionPolicy) :
    a.isNoMorePermissiveThan b = true ↔
      (a.endpoint = b.endpoint ∧ a.configuration = b.configuration ∧
        a.addressOrder = b.addressOrder) ∧ a.bounds ≤ b.bounds := by
  simp only [isNoMorePermissiveThan, Bool.and_eq_true, decide_eq_true_eq, beq_iff_eq, bounds,
    Prod.mk_le_mk, UInt16.le_iff_toNat_le, UInt64.le_iff_toNat_le, and_assoc]

/-- There is one order of addresses. -/
theorem ResolutionPolicy.eq_of_bounds {a b : ResolutionPolicy} (hendpoint : a.endpoint = b.endpoint)
    (hconfiguration : a.configuration = b.configuration) (hbounds : a.bounds = b.bounds) :
    a = b := by
  simp only [bounds, Prod.mk.injEq, UInt64.toNat_inj, UInt16.toNat_inj] at hbounds
  cases a
  cases b
  simp only [ResolutionPolicy.mk.injEq]
  exact ⟨hendpoint, hconfiguration, hbounds.1, hbounds.2.1, hbounds.2.2.1, hbounds.2.2.2.1,
    hbounds.2.2.2.2, trivial⟩

namespace AuthenticatedServiceSession

def frame (session : AuthenticatedServiceSession) : SessionFrame where
  service := session.service
  port := session.port
  endpoint := session.resolution.endpoint
  configuration := session.resolution.configuration
  addressOrder := session.resolution.addressOrder
  tls := session.tls
  connectorExecutable := session.connectorExecutable
  localChannel := session.localChannel
  childDescriptor := session.childDescriptor
  credentialSource := session.credentialSource

/-- What a session has in common with others, its bounds and the paths it may read. -/
def parts (session : AuthenticatedServiceSession) :
    SessionFrame × SessionBounds × Finset NetworkSupportPath :=
  (session.frame, (session.resolution.bounds, session.limits.bounds),
    session.connectorRuntimeRead.toFinset)

theorem isNoMorePermissiveThan_iff (a b : AuthenticatedServiceSession) :
    a.isNoMorePermissiveThan b = true ↔ SameAndLe a.parts b.parts := by
  have hpaths : (∀ path ∈ a.connectorRuntimeRead, path ∈ b.connectorRuntimeRead) ↔
      a.connectorRuntimeRead.toFinset ≤ b.connectorRuntimeRead.toFinset := by
    rw [Finset.subset_iff]
    simp only [List.mem_toFinset]
  simp only [isNoMorePermissiveThan, Bool.and_eq_true, beq_iff_eq, List.all_eq_true,
    List.contains_iff_mem, ResolutionPolicy.isNoMorePermissiveThan_iff,
    ServiceSessionLimits.isNoMorePermissiveThan_iff, hpaths, SameAndLe, parts, frame,
    SessionFrame.mk.injEq, Prod.mk_le_mk]
  tauto

/-- The paths are in order and without repetitions, so they are known from their set. -/
theorem parts_injective : Function.Injective parts := by
  intro a b h
  simp only [parts, Prod.mk.injEq, frame, SessionFrame.mk.injEq] at h
  obtain ⟨⟨hservice, hport, hendpoint, hconfiguration, -, htls, hexecutable, -, hdescriptor,
    hcredential⟩, ⟨hresolution, hlimits⟩, hpaths⟩ := h
  have hresolution := ResolutionPolicy.eq_of_bounds hendpoint hconfiguration hresolution
  have hlimits := ServiceSessionLimits.bounds_injective hlimits
  have hpaths : a.connectorRuntimeRead = b.connectorRuntimeRead := by
    refine a.strict.eq_of_mem_iff b.strict fun path => ?_
    rw [← List.mem_toFinset, hpaths, List.mem_toFinset]
  cases a
  cases b
  simp only [AuthenticatedServiceSession.mk.injEq]
  exact ⟨hservice, hport, hresolution, htls, hlimits, hexecutable, hpaths, trivial, hdescriptor,
    hcredential⟩

theorem isPartialOrder : IsPartialOrder AuthenticatedServiceSession
    fun a b => a.isNoMorePermissiveThan b = true :=
  isPartialOrder_of_view parts_injective isNoMorePermissiveThan_iff

end AuthenticatedServiceSession

/-! ## Compilation -/

theorem compilePolicy_isNoMorePermissiveThan (authority : NormalizedAuthority) :
    (compilePolicy authority).isNoMorePermissiveThan authority = true := by
  have hlimits : authority.limits.isNoMorePermissiveThan authority.limits = true :=
    ResourceLimits.isPartialOrder.refl _
  simp [CompiledPolicy.isNoMorePermissiveThan, compilePolicy, hlimits]

theorem compileServicePolicy_isNoMorePermissiveThan (plan : Plan.ServiceExecutionPlan) :
    ∃ policy, compileServicePolicy plan = .ok policy ∧
      policy.isNoMorePermissiveThan plan = true := by
  obtain ⟨authority, hrun, -⟩ := isNormalized_normalizeAuthority plan.base.authority
  have hchild := compilePolicy_isNoMorePermissiveThan authority
  have hsession : plan.serviceSession.isNoMorePermissiveThan plan.serviceSession = true :=
    AuthenticatedServiceSession.isPartialOrder.refl _
  refine ⟨⟨compilePolicy authority, plan.serviceSession, .channelOnlyV1⟩, ?_, ?_⟩
  · rw [compileServicePolicy, hrun]
    rfl
  · simp [CompiledServicePolicy.isNoMorePermissiveThan, hrun, hchild, hsession]

/-- Permissiveness is a partial order on limits and on sessions, and every plan that the
service parser accepts compiles to a policy that is no more permissive than the plan. -/
theorem permissiveness (isIpAddr : String → Bool) :
    IsPartialOrder ResourceLimits (fun a b => a.isNoMorePermissiveThan b = true) ∧
    IsPartialOrder AuthenticatedServiceSession (fun a b => a.isNoMorePermissiveThan b = true) ∧
    ∀ input plan, Plan.parseServiceExecutionPlan isIpAddr input = .ok plan →
      ∃ policy, compileServicePolicy plan = .ok policy ∧
        policy.isNoMorePermissiveThan plan = true :=
  ⟨ResourceLimits.isPartialOrder, AuthenticatedServiceSession.isPartialOrder,
    fun _ plan _ => compileServicePolicy_isNoMorePermissiveThan plan⟩

/-- The network authority of a plan for a session with `api.example`. -/
def sampleNetworkValue : Cbor.Value :=
  .map [
    ("mode", .text "authenticated-service-session"),
    ("service", .map [("name", .text "api.example"), ("port", .unsigned 443)]),
    ("resolver", .map [
      ("address", .map [("family", .text "ipv4"), ("bytes", .bytes [192, 0, 2, 53])]),
      ("port", .unsigned 53),
      ("configuration", .text "/etc/resolver.conf"),
      ("maximum_cname_depth", .unsigned 8),
      ("maximum_answer_count", .unsigned 16),
      ("maximum_response_bytes", .unsigned 65536),
      ("resolution_deadline_ms", .unsigned 5000),
      ("attempt_deadline_ms", .unsigned 1000),
      ("address_order", .text "ipv4-then-ipv6-lexicographic")]),
    ("tls", .map [
      ("trust_root_set", .text "/etc/ssl/roots.pem"),
      ("minimum_version", .text "tls-1.3"),
      ("service_name_verification", .text "dns-san-exact"),
      ("revocation", .text "not-checked-recorded-assumption"),
      ("session_resumption", .text "deny"),
      ("early_data", .text "deny")]),
    ("limits", .map [
      ("setup_time_ms", .unsigned 10000),
      ("session_time_ms", .unsigned 30000),
      ("child_to_service_bytes", .unsigned 1048576),
      ("service_to_child_bytes", .unsigned 1048576),
      ("dns_messages", .unsigned 4),
      ("endpoint_attempts", .unsigned 4),
      ("tls_handshake_bytes", .unsigned 262144)]),
    ("connector_executable", .text "/usr/libexec/connector"),
    ("connector_runtime_read", .array [.text "/usr/lib", .text "/lib", .text "/lib"]),
    ("local_channel", .map [
      ("protocol", .text "unix-stream-v1"),
      ("child_descriptor", .unsigned 9)]),
    ("credential_source", .map [
      ("id", .text "api-key"),
      ("service", .text "api.example"),
      ("environment", .text "API_KEY")])]

/-- A plan with this network authority. -/
def sampleServicePlan : Cbor.Value :=
  .map [
    ("schema", .text Plan.planSchemaV2),
    ("id", .text "sample"),
    ("command", .map [
      ("executable", .text "bin/client"),
      ("working_directory", .text "."),
      ("arguments", .array [])]),
    ("authority", .map [
      ("network", sampleNetworkValue),
      ("environment", .array [.text "API_KEY"]),
      ("read", .array []),
      ("runtime_read", .array []),
      ("write", .array [.text "out"]),
      ("execute", .array [.text "bin/client"])]),
    ("limits", .map [
      ("processes", .unsigned 2),
      ("wall_time_ms", .unsigned 30000),
      ("stdout_bytes", .unsigned 4096),
      ("stderr_bytes", .unsigned 4096),
      ("memory_bytes", .unsigned 65536),
      ("swap_bytes", .unsigned 0)])]

def sampleServicePlanBytes : List UInt8 := sampleServicePlan.canon.serialize

theorem decode_sampleServicePlanBytes :
    WireV2.decode sampleServicePlanBytes = .ok sampleServicePlan.canon := by
  have hnodup : sampleServicePlan.NoDup := by decide +kernel
  have hlimits : Wire.WithinLimits sampleServicePlan :=
    ⟨by decide +kernel, by decide +kernel, by decide +kernel⟩
  exact Wire.decode_eq_ok.mpr
    ⟨Cbor.canonical_canon hnodup, rfl, Wire.withinLimits_canon.mpr hlimits⟩

/-- The service name of the sample is no address. -/
theorem permissiveness_sample : ∃ plan policy,
    Plan.parseServiceExecutionPlan (fun _ => false) sampleServicePlanBytes = .ok plan ∧
      compileServicePolicy plan = .ok policy ∧ policy.isNoMorePermissiveThan plan = true := by
  have hok : (Plan.parseServiceExecutionPlan (fun _ => false)
      sampleServicePlanBytes).toOption.isSome = true := by
    unfold Plan.parseServiceExecutionPlan Plan.parseExecutionPlanContractV2
    rw [decode_sampleServicePlanBytes]
    decide +kernel
  obtain ⟨plan, hplan⟩ := Option.isSome_iff_exists.mp hok
  have hparse := toOption_eq_some.mp hplan
  obtain ⟨policy, hcompile, hpermissive⟩ := (permissiveness _).2.2 _ plan hparse
  exact ⟨plan, policy, hparse, hcompile, hpermissive⟩

end ProofboundRuntime.Core
