import ProofboundRuntime.Connector.Process
import ProofboundRuntime.Launcher.Message
import ProofboundRuntime.Linux.Cgroup
import ProofboundRuntime.Linux.Descriptors

/-!
# Bootstrap command lines

The hidden launcher and the connector are started with a closed list of arguments:
`parse_launcher_bootstrap` and `bootstrap_arguments` of `supervisor.rs`, and
`parse_connector_bootstrap` and `bootstrap_arguments` of `connector_process.rs`.

A hexadecimal argument has one spelling (`Hex.array_eq_ok`).  A decimal argument goes through
`str::parse`, which also reads a leading `+` and leading zeros, so what each parser accepts is a
rendered list with other spellings of its decimals (`parseLauncherBootstrap_eq_ok`,
`parseConnectorBootstrap_eq_ok`).
-/

namespace ProofboundRuntime.Linux.Bootstrap

open Result Sorting
open ProofboundRuntime.Core (ExecutionId Sha256Digest CgroupIdentity Architecture IdentityError)
open Launcher (LauncherError LauncherIdentity)
open Connector.Process (ConnectorBootstrap ConnectorProcessError
  ConnectorProcessGeneration ServiceChannelId executionId_fromBytes_eq_ok)
open Linux.Cgroup (parseU32)
open Linux.Descriptors (RawFd)

/-! ## Decimals -/

@[ext] structure NonZeroU32 where
  get : UInt32
  ne_zero : get ≠ 0

instance : DecidableEq NonZeroU32 :=
  fun _ _ => decidable_of_iff _ NonZeroU32.ext_iff.symm

/-- `str::parse::<u64>`. -/
def parseU64 (text : String) : Option UInt64 := (Decimal.parse (2 ^ 64) text).map UInt64.ofNat

/-- `str::parse::<NonZeroU32>`. -/
def parseNonZeroU32 (text : String) : Option NonZeroU32 := do
  let value ← parseU32 text
  if h : value ≠ 0 then some ⟨value, h⟩ else none

variable {text : String}

theorem parseU32_eq_some {n : UInt32} :
    parseU32 text = some n ↔ Decimal.parse (2 ^ 32) text = some n.toNat := by
  have hparse : parseU32 text = (Decimal.parse (2 ^ 32) text).map UInt32.ofNat := by
    rw [Decimal.parse, apply_ite (Option.map UInt32.ofNat)]
    rfl
  rw [hparse, Option.map_eq_some_iff]
  constructor
  · rintro ⟨m, hm, hn⟩
    rwa [← hn, UInt32.toNat_ofNat_of_lt' (Decimal.parse_eq_some.mp hm).2.2.2]
  · intro h
    exact ⟨n.toNat, h, UInt32.ofNat_toNat⟩

theorem parseU64_eq_some {n : UInt64} :
    parseU64 text = some n ↔ Decimal.parse (2 ^ 64) text = some n.toNat := by
  rw [parseU64, Option.map_eq_some_iff]
  constructor
  · rintro ⟨m, hm, hn⟩
    rwa [← hn, UInt64.toNat_ofNat_of_lt' (Decimal.parse_eq_some.mp hm).2.2.2]
  · intro h
    exact ⟨n.toNat, h, UInt64.ofNat_toNat⟩

theorem parseNonZeroU32_eq_some {n : NonZeroU32} :
    parseNonZeroU32 text = some n ↔ parseU32 text = some n.get := by
  rw [parseNonZeroU32, Option.bind_eq_bind, Option.bind_eq_some_iff]
  constructor
  · intro ⟨value, hvalue, hn⟩
    split at hn
    next =>
      cases hn
      exact hvalue
    next => cases hn
  · intro h
    exact ⟨n.get, h, dif_pos n.ne_zero⟩

/-! ## The launcher -/

structure LauncherBootstrap where
  channelDescriptor : UInt32
  identity : LauncherIdentity
  architecture : Architecture
  landlockAbi : NonZeroU32
deriving DecidableEq

/-- `encode_hex`. -/
def encodeHex (bytes : List UInt8) : String := Hex.text bytes

/-- `decode_hex`. -/
def decodeHex (size : Nat) (value : String) : Except LauncherError (Vector UInt8 size) :=
  Hex.array size .malformed .malformed value

def launcherCommand : String := "__proofbound_launcher_v1"

def parseArchitecture (value : String) : Except LauncherError Architecture :=
  if value = "x86_64" then .ok .x86_64
  else if value = "aarch64" then .ok .aarch64
  else .error .malformed

def parseLauncherBootstrap : List String → Except LauncherError LauncherBootstrap
  | [command, descriptor, execution, policy, mountId, inode, architecture, abi] => do
    rejectIf (command ≠ launcherCommand) .malformed
    let channelDescriptor ← okOr (parseU32 descriptor) .malformed
    let execution ← decodeHex 16 execution
    let executionId ← (ExecutionId.fromBytes execution).mapError fun _ => .malformed
    let policyId ← decodeHex 32 policy
    let mountId ← okOr (parseU64 mountId) .malformed
    let inode ← okOr (parseU64 inode) .malformed
    let architecture ← parseArchitecture architecture
    let landlockAbi ← okOr (parseNonZeroU32 abi) .malformed
    pure ⟨channelDescriptor, ⟨executionId, policyId, ⟨mountId, inode⟩⟩, architecture, landlockAbi⟩
  | _ => .error .malformed

/-- `bootstrap_arguments` of the launcher. -/
def launcherArguments (channelDescriptor : RawFd) (identity : LauncherIdentity)
    (architecture : Architecture) (landlockAbi : NonZeroU32) : List String :=
  [launcherCommand,
    channelDescriptor.toInt.repr,
    encodeHex identity.executionId.bytes.toList,
    encodeHex identity.policyId.toList,
    Decimal.text identity.cgroupId.mountId.toNat,
    Decimal.text identity.cgroupId.inode.toNat,
    architecture.asStr,
    Decimal.text landlockAbi.get.toNat]

variable {value : String}

theorem decodeHex_eq_ok {size : Nat} {bytes : Vector UInt8 size} :
    decodeHex size value = .ok bytes ↔ value = encodeHex bytes.toList :=
  Hex.array_eq_ok

theorem parseArchitecture_eq_ok {architecture : Architecture} :
    parseArchitecture value = .ok architecture ↔ value = architecture.asStr := by
  rw [parseArchitecture]
  constructor
  · intro h
    split_ifs at h with hx hy
    · cases h
      exact hx
    · cases h
      exact hy
  · intro h
    subst h
    cases architecture <;> decide

variable {arguments : List String}

/-- What the launcher accepts: the arguments of its result, with any spelling of the decimals. -/
theorem parseLauncherBootstrap_eq_ok {b : LauncherBootstrap} :
    parseLauncherBootstrap arguments = .ok b ↔
      ∃ descriptor mountId inode abi : String,
        arguments = [launcherCommand, descriptor, encodeHex b.identity.executionId.bytes.toList,
          encodeHex b.identity.policyId.toList, mountId, inode, b.architecture.asStr, abi] ∧
        Decimal.parse (2 ^ 32) descriptor = some b.channelDescriptor.toNat ∧
        Decimal.parse (2 ^ 64) mountId = some b.identity.cgroupId.mountId.toNat ∧
        Decimal.parse (2 ^ 64) inode = some b.identity.cgroupId.inode.toNat ∧
        Decimal.parse (2 ^ 32) abi = some b.landlockAbi.get.toNat := by
  simp only [← parseU32_eq_some, ← parseU64_eq_some]
  constructor
  · intro h
    unfold parseLauncherBootstrap at h
    split at h
    next command descriptor execution policy mountId inode architecture abi =>
      rw [check_bind_eq_ok, rejectIf_eq_ok, not_not] at h
      obtain ⟨hcommand, h⟩ := h
      simp only [bind_eq_ok, okOr_eq_ok, decodeHex_eq_ok, mapError_eq_ok,
        executionId_fromBytes_eq_ok, parseArchitecture_eq_ok, parseNonZeroU32_eq_some,
        pure_eq_ok] at h
      obtain ⟨channelDescriptor, hdescriptor, _, hexecution, executionId, rfl, policyId, hpolicy,
        mount, hmount, node, hnode, arch, harch, landlockAbi, habi, rfl⟩ := h
      refine ⟨descriptor, mountId, inode, abi, ?_, hdescriptor, hmount, hnode, habi⟩
      rw [hcommand, hexecution, hpolicy, harch]
    next => cases h
  · rintro ⟨descriptor, mountId, inode, abi, harguments, hdescriptor, hmount, hnode, habi⟩
    have hexecution := decodeHex_eq_ok.mpr (Eq.refl (encodeHex b.identity.executionId.bytes.toList))
    have hpolicy := decodeHex_eq_ok.mpr (Eq.refl (encodeHex b.identity.policyId.toList))
    have hid := executionId_fromBytes_eq_ok.mpr (Eq.refl b.identity.executionId.bytes)
    have harch := parseArchitecture_eq_ok.mpr (Eq.refl b.architecture.asStr)
    have habi := parseNonZeroU32_eq_some.mpr habi
    subst harguments
    unfold parseLauncherBootstrap
    simp only [ne_eq, not_true_eq_false, rejectIf_false not_false, ok_bind, hdescriptor, okOr_some,
      hexecution, hid, Except.mapError, hpolicy, hmount, hnode, harch, habi]
    rfl

/-! ## The connector -/

/-- `CONNECTOR_PROTOCOL`. -/
def connectorProtocol : String := "1"

/-- The names of the arguments, in their order. -/
def expected : List String :=
  ["--connector-protocol", "--plan-fd", "--trust-root-fd", "--channel-fd", "--control-fd",
    "--execution-id", "--policy-sha256", "--process-generation", "--channel-id", "--plan-sha256",
    "--trust-root-sha256", "--connector-sha256", "--runtime-closure-sha256",
    "--resolver-configuration-sha256"]

/-- `Sha256Digest::parse_hex`. -/
def parseHex (value : String) : Except IdentityError Sha256Digest :=
  Hex.array 32 .digestLength .digestCharacter value

/-- `Sha256Digest::to_hex`. -/
def toHex (digest : Sha256Digest) : String := Hex.text digest.toList

def parseDigest (value : String) : Except ConnectorProcessError Sha256Digest :=
  (parseHex value).mapError fun _ => .bootstrapInvalid

def parseHexArray (n : Nat) (value : String) : Except ConnectorProcessError (Vector UInt8 n) :=
  Hex.array n .bootstrapInvalid .bootstrapInvalid value

def hex (bytes : List UInt8) : String := Hex.text bytes

def parseDescriptor (value : String) : Except ConnectorProcessError UInt32 :=
  okOr ((parseU32 value).filter fun descriptor =>
    3 ≤ descriptor && descriptor ≤ Launcher.maxDescriptor) .bootstrapInvalid

/-- The inherited descriptors. -/
def descriptors (b : ConnectorBootstrap) : List UInt32 :=
  [b.planDescriptor, b.trustRootDescriptor, b.channelDescriptor, b.controlDescriptor]

def parseConnectorBootstrap : List String → Except ConnectorProcessError ConnectorBootstrap
  | [name₀, protocol, name₁, plan, name₂, trustRoot, name₃, channel, name₄, control, name₅,
      execution, name₆, policy, name₇, generation, name₈, channelId, name₉, planDigest, name₁₀,
      trustRootDigest, name₁₁, connectorDigest, name₁₂, runtimeClosureDigest, name₁₃,
      resolverConfigurationDigest] => do
    rejectIf ([name₀, name₁, name₂, name₃, name₄, name₅, name₆, name₇, name₈, name₉, name₁₀,
      name₁₁, name₁₂, name₁₃] ≠ expected) .bootstrapInvalid
    rejectIf (protocol ≠ connectorProtocol) .bootstrapInvalid
    let execution ← parseHexArray 16 execution
    let executionId ← (ExecutionId.fromBytes execution).mapError fun _ => .bootstrapInvalid
    let generation ← okOr (parseU64 generation) .bootstrapInvalid
    let processGeneration ←
      (ConnectorProcessGeneration.new generation).mapError fun _ => .bootstrapInvalid
    let planDescriptor ← parseDescriptor plan
    let trustRootDescriptor ← parseDescriptor trustRoot
    let channelDescriptor ← parseDescriptor channel
    let controlDescriptor ← parseDescriptor control
    let policyDigest ← parseDigest policy
    let channelId ← parseHexArray 16 channelId
    let channelId ← (ServiceChannelId.new channelId).mapError fun _ => .bootstrapInvalid
    let planDigest ← parseDigest planDigest
    let trustRootDigest ← parseDigest trustRootDigest
    let connectorDigest ← parseDigest connectorDigest
    let runtimeClosureDigest ← parseDigest runtimeClosureDigest
    let resolverConfigurationDigest ← parseDigest resolverConfigurationDigest
    let bootstrap : ConnectorBootstrap :=
      ⟨planDescriptor, trustRootDescriptor, channelDescriptor, controlDescriptor, executionId,
        policyDigest, processGeneration, channelId, planDigest, trustRootDigest, connectorDigest,
        runtimeClosureDigest, resolverConfigurationDigest⟩
    rejectIf (windowsAny (· == ·) (sortBy compare (descriptors bootstrap)) = true)
      .bootstrapInvalid
    pure bootstrap
  | _ => .error .bootstrapInvalid

/-- `bootstrap_arguments` of the connector. -/
def connectorArguments (b : ConnectorBootstrap) : List String :=
  ["--connector-protocol", connectorProtocol,
    "--plan-fd", Decimal.text b.planDescriptor.toNat,
    "--trust-root-fd", Decimal.text b.trustRootDescriptor.toNat,
    "--channel-fd", Decimal.text b.channelDescriptor.toNat,
    "--control-fd", Decimal.text b.controlDescriptor.toNat,
    "--execution-id", hex b.executionId.bytes.toList,
    "--policy-sha256", toHex b.policyDigest,
    "--process-generation", Decimal.text b.processGeneration.get.toNat,
    "--channel-id", hex b.channelId.bytes.toList,
    "--plan-sha256", toHex b.planDigest,
    "--trust-root-sha256", toHex b.trustRootDigest,
    "--connector-sha256", toHex b.connectorDigest,
    "--runtime-closure-sha256", toHex b.runtimeClosureDigest,
    "--resolver-configuration-sha256", toHex b.resolverConfigurationDigest]

/-- The arguments of a bootstrap with these spellings of its decimals. -/
def spelledArguments (b : ConnectorBootstrap)
    (plan trustRoot channel control generation : String) : List String :=
  ["--connector-protocol", connectorProtocol, "--plan-fd", plan, "--trust-root-fd", trustRoot,
    "--channel-fd", channel, "--control-fd", control,
    "--execution-id", hex b.executionId.bytes.toList, "--policy-sha256", toHex b.policyDigest,
    "--process-generation", generation, "--channel-id", hex b.channelId.bytes.toList,
    "--plan-sha256", toHex b.planDigest, "--trust-root-sha256", toHex b.trustRootDigest,
    "--connector-sha256", toHex b.connectorDigest,
    "--runtime-closure-sha256", toHex b.runtimeClosureDigest,
    "--resolver-configuration-sha256", toHex b.resolverConfigurationDigest]

theorem parseDigest_eq_ok {digest : Sha256Digest} :
    parseDigest value = .ok digest ↔ value = toHex digest := by
  rw [parseDigest, mapError_eq_ok]
  exact Hex.array_eq_ok

theorem parseHexArray_eq_ok {n : Nat} {bytes : Vector UInt8 n} :
    parseHexArray n value = .ok bytes ↔ value = hex bytes.toList :=
  Hex.array_eq_ok

theorem parseDescriptor_eq_ok {descriptor : UInt32} :
    parseDescriptor value = .ok descriptor ↔
      parseU32 value = some descriptor ∧ 3 ≤ descriptor ∧ descriptor ≤ Launcher.maxDescriptor := by
  rw [parseDescriptor, okOr_eq_ok, Option.filter_eq_some_iff, Bool.and_eq_true,
    decide_eq_true_eq, decide_eq_true_eq]

variable {b : ConnectorBootstrap}

theorem nodup_descriptors_iff :
    ¬ windowsAny (· == ·) (sortBy compare (descriptors b)) = true ↔ (descriptors b).Nodup := by
  have hne : ∀ a b : UInt32, (a == b) = false ↔ compare a b ≠ .eq := by
    intro a b
    simp
  rw [Bool.not_eq_true, windowsAny_sortBy hne]
  simp only [ne_eq, Std.LawfulEqCmp.compare_eq_iff_eq]
  exact Iff.rfl

/-- What the connector accepts: the arguments of its result, with any spelling of the
decimals, where the descriptors are different ones and none is a standard stream. -/
theorem parseConnectorBootstrap_eq_ok :
    parseConnectorBootstrap arguments = .ok b ↔
      ∃ plan trustRoot channel control generation : String,
        arguments = spelledArguments b plan trustRoot channel control generation ∧
        parseU32 plan = some b.planDescriptor ∧ parseU32 trustRoot = some b.trustRootDescriptor ∧
        parseU32 channel = some b.channelDescriptor ∧
        parseU32 control = some b.controlDescriptor ∧
        parseU64 generation = some b.processGeneration.get ∧
        (∀ d ∈ descriptors b, 3 ≤ d ∧ d ≤ Launcher.maxDescriptor) ∧ (descriptors b).Nodup := by
  constructor
  · intro h
    unfold parseConnectorBootstrap at h
    split at h
    next =>
      rw [check_bind_eq_ok, rejectIf_eq_ok, not_not, check_bind_eq_ok, rejectIf_eq_ok,
        not_not] at h
      obtain ⟨hnames, hprotocol, h⟩ := h
      simp only [bind_eq_ok, okOr_eq_ok, parseHexArray_eq_ok, parseDigest_eq_ok, mapError_eq_ok,
        executionId_fromBytes_eq_ok, ConnectorProcessGeneration.new_eq_ok,
        ServiceChannelId.new_eq_ok, parseDescriptor_eq_ok, rejectIf_eq_ok, nodup_descriptors_iff,
        pure_eq_ok] at h
      obtain ⟨_, rfl, executionId, rfl, _, hgeneration, processGeneration, rfl, plan, hplan,
        trustRoot, htrustRoot, channel, hchannel, control, hcontrol, policyDigest, rfl, _, rfl,
        channelId, rfl, planDigest, rfl, trustRootDigest, rfl, connectorDigest, rfl,
        runtimeClosureDigest, rfl, resolverConfigurationDigest, rfl, _, hnodup, rfl⟩ := h
      simp only [expected, List.cons.injEq, and_true] at hnames
      obtain ⟨rfl, rfl, rfl, rfl, rfl, rfl, rfl, rfl, rfl, rfl, rfl, rfl, rfl, rfl⟩ := hnames
      subst hprotocol
      refine ⟨_, _, _, _, _, rfl, hplan.1, htrustRoot.1, hchannel.1, hcontrol.1, hgeneration,
        ?_, hnodup⟩
      simp only [descriptors, List.forall_mem_cons, forall_mem_nil, and_true]
      exact ⟨hplan.2, htrustRoot.2, hchannel.2, hcontrol.2⟩
    next => cases h
  · rintro ⟨plan, trustRoot, channel, control, generation, harguments, hplan, htrustRoot, hchannel,
      hcontrol, hgeneration, hrange, hnodup⟩
    have hwindows := nodup_descriptors_iff.mpr hnodup
    simp only [descriptors, List.forall_mem_cons, forall_mem_nil, and_true] at hrange
    have hplan := parseDescriptor_eq_ok.mpr ⟨hplan, hrange.1⟩
    have htrustRoot := parseDescriptor_eq_ok.mpr ⟨htrustRoot, hrange.2.1⟩
    have hchannel := parseDescriptor_eq_ok.mpr ⟨hchannel, hrange.2.2.1⟩
    have hcontrol := parseDescriptor_eq_ok.mpr ⟨hcontrol, hrange.2.2.2⟩
    have hdigest : ∀ digest, parseDigest (toHex digest) = .ok digest :=
      fun digest => parseDigest_eq_ok.mpr rfl
    have harray : ∀ bytes : Vector UInt8 16, parseHexArray 16 (hex bytes.toList) = .ok bytes :=
      fun bytes => parseHexArray_eq_ok.mpr rfl
    have hid := executionId_fromBytes_eq_ok.mpr (Eq.refl b.executionId.bytes)
    have hprocess := ConnectorProcessGeneration.new_eq_ok.mpr (Eq.refl b.processGeneration.get)
    have hchannelId := ServiceChannelId.new_eq_ok.mpr (Eq.refl b.channelId.bytes)
    subst harguments
    unfold spelledArguments parseConnectorBootstrap
    simp only [expected, ne_eq, not_true_eq_false, rejectIf_false not_false, ok_bind, harray, hid,
      Except.mapError, hgeneration, okOr_some, hprocess, hplan, htrustRoot, hchannel, hcontrol,
      hdigest, hchannelId]
    rw [rejectIf_false hwindows]
    rfl

/-! ## Spellings -/

/-- The list is rendered from the bootstrap; a descriptor is an `i32`. -/
def LauncherBootstrap.Renders (b : LauncherBootstrap) (arguments : List String) : Prop :=
  ∃ descriptor : RawFd, descriptor.toInt = b.channelDescriptor.toNat ∧
    arguments = launcherArguments descriptor b.identity b.architecture b.landlockAbi

/-- No decimal of the launcher has a `+` or a leading zero, and the first one is an `i32`. -/
def LauncherPlain (arguments : List String) : Prop :=
  (∀ i ∈ [1, 4, 5, 7], Decimal.Plain (arguments.getD i "")) ∧
    Decimal.spelled (arguments.getD 1 "") < 2 ^ 31

/-- No decimal of the connector has a `+` or a leading zero. -/
def ConnectorPlain (arguments : List String) : Prop :=
  ∀ i ∈ [3, 5, 7, 9, 15], Decimal.Plain (arguments.getD i "")

instance (arguments : List String) : Decidable (LauncherPlain arguments) :=
  inferInstanceAs (Decidable (_ ∧ _))

instance (arguments : List String) : Decidable (ConnectorPlain arguments) :=
  inferInstanceAs (Decidable (∀ _ ∈ _, _))

theorem repr_of_toInt {descriptor : RawFd} {n : Nat} (h : descriptor.toInt = n) :
    descriptor.toInt.repr = Decimal.text n := by
  rw [h]
  rfl

theorem parseLauncherBootstrap_of_renders {b : LauncherBootstrap} (h : b.Renders arguments) :
    parseLauncherBootstrap arguments = .ok b := by
  obtain ⟨descriptor, hdescriptor, harguments⟩ := h
  rw [launcherArguments, repr_of_toInt hdescriptor] at harguments
  exact parseLauncherBootstrap_eq_ok.mpr ⟨_, _, _, _, harguments,
    Decimal.parse_text b.channelDescriptor.toNat_lt,
    Decimal.parse_text b.identity.cgroupId.mountId.toNat_lt,
    Decimal.parse_text b.identity.cgroupId.inode.toNat_lt,
    Decimal.parse_text b.landlockAbi.get.toNat_lt⟩

theorem renders_iff_launcherPlain {b : LauncherBootstrap}
    (h : parseLauncherBootstrap arguments = .ok b) :
    b.Renders arguments ↔ LauncherPlain arguments := by
  obtain ⟨descriptor, mountId, inode, abi, rfl, hdescriptor, hmount, hnode, habi⟩ :=
    parseLauncherBootstrap_eq_ok.mp h
  have hspelled : Decimal.spelled descriptor = b.channelDescriptor.toNat :=
    (Decimal.parse_eq_some.mp hdescriptor).2.2.1
  simp only [LauncherPlain, List.forall_mem_cons, List.getD_cons_succ, List.getD_cons_zero,
    forall_mem_nil, and_true, ← Decimal.eq_text_iff_plain hdescriptor,
    ← Decimal.eq_text_iff_plain hmount, ← Decimal.eq_text_iff_plain hnode,
    ← Decimal.eq_text_iff_plain habi, hspelled]
  constructor
  · intro ⟨d, hd, harguments⟩
    rw [launcherArguments, repr_of_toInt hd] at harguments
    simp only [List.cons.injEq, true_and, and_true] at harguments
    have hlt := d.toInt_lt
    rw [hd] at hlt
    exact ⟨harguments, by omega⟩
  · intro ⟨⟨hdescriptor, hmount, hnode, habi⟩, hlt⟩
    have hd := Int32.toInt_ofNat_of_lt hlt
    refine ⟨Int32.ofNat b.channelDescriptor.toNat, hd, ?_⟩
    rw [launcherArguments, repr_of_toInt hd, hdescriptor, hmount, hnode, habi]

theorem parseConnectorBootstrap_arguments_iff (hnodup : (descriptors b).Nodup)
    (hthree : ∀ d ∈ descriptors b, 3 ≤ d) :
    parseConnectorBootstrap (connectorArguments b) = .ok b ↔
      ∀ d ∈ descriptors b, d ≤ Launcher.maxDescriptor := by
  constructor
  · intro h
    obtain ⟨_, _, _, _, _, -, -, -, -, -, -, hrange, -⟩ := parseConnectorBootstrap_eq_ok.mp h
    exact fun d hd => (hrange d hd).2
  · intro h
    have hu32 : ∀ n : UInt32, parseU32 (Decimal.text n.toNat) = some n :=
      fun n => parseU32_eq_some.mpr (Decimal.parse_text n.toNat_lt)
    have hu64 : ∀ n : UInt64, parseU64 (Decimal.text n.toNat) = some n :=
      fun n => parseU64_eq_some.mpr (Decimal.parse_text n.toNat_lt)
    exact parseConnectorBootstrap_eq_ok.mpr ⟨_, _, _, _, _, rfl, hu32 _, hu32 _, hu32 _, hu32 _,
      hu64 _, fun d hd => ⟨hthree d hd, h d hd⟩, hnodup⟩

theorem eq_connectorArguments_iff (h : parseConnectorBootstrap arguments = .ok b) :
    arguments = connectorArguments b ↔ ConnectorPlain arguments := by
  obtain ⟨plan, trustRoot, channel, control, generation, rfl, hplan, htrustRoot, hchannel,
    hcontrol, hgeneration, -, -⟩ := parseConnectorBootstrap_eq_ok.mp h
  rw [parseU32_eq_some] at hplan htrustRoot hchannel hcontrol
  rw [parseU64_eq_some] at hgeneration
  simp only [ConnectorPlain, spelledArguments, connectorArguments, List.forall_mem_cons,
    List.getD_cons_succ, List.getD_cons_zero, forall_mem_nil, and_true, true_and, List.cons.injEq,
    ← Decimal.eq_text_iff_plain hplan, ← Decimal.eq_text_iff_plain htrustRoot,
    ← Decimal.eq_text_iff_plain hchannel, ← Decimal.eq_text_iff_plain hcontrol,
    ← Decimal.eq_text_iff_plain hgeneration]

/-- A rendered list is parsed to its bootstrap, and what is parsed was rendered exactly when no
decimal has a `+` or a leading zero and the descriptors are `i32`s. -/
theorem bootstrap_exact_iff (arguments : List String) (b : LauncherBootstrap)
    (c : ConnectorBootstrap) :
    (b.Renders arguments → parseLauncherBootstrap arguments = .ok b) ∧
    (parseLauncherBootstrap arguments = .ok b →
      (b.Renders arguments ↔ LauncherPlain arguments)) ∧
    ((descriptors c).Nodup → (∀ d ∈ descriptors c, 3 ≤ d) →
      (parseConnectorBootstrap (connectorArguments c) = .ok c ↔
        ∀ d ∈ descriptors c, d ≤ Launcher.maxDescriptor)) ∧
    (parseConnectorBootstrap arguments = .ok c →
      (arguments = connectorArguments c ↔ ConnectorPlain arguments)) := by
  refine ⟨?_, ?_, ?_, ?_⟩
  · intro h
    exact parseLauncherBootstrap_of_renders h
  · intro h
    exact renders_iff_launcherPlain h
  · intro hnodup hthree
    exact parseConnectorBootstrap_arguments_iff hnodup hthree
  · intro h
    exact eq_connectorArguments_iff h

/-! ## A launcher and a connector -/

theorem sampleAbi_ne_zero : (11 : UInt32) ≠ 0 := by decide

def sampleLauncher : LauncherBootstrap where
  channelDescriptor := 9
  identity := ⟨Connector.Process.sampleId, Vector.replicate 32 1, ⟨21, 42⟩⟩
  architecture := .aarch64
  landlockAbi := ⟨11, sampleAbi_ne_zero⟩

theorem bootstrap_exact_sample :
    parseLauncherBootstrap (launcherArguments 9 sampleLauncher.identity .aarch64
      sampleLauncher.landlockAbi) = .ok sampleLauncher ∧
    parseConnectorBootstrap (connectorArguments Connector.Process.sampleBootstrap) =
      .ok Connector.Process.sampleBootstrap := by
  obtain ⟨hlauncher, -, hconnector, -⟩ := bootstrap_exact_iff
    (launcherArguments 9 sampleLauncher.identity .aarch64 sampleLauncher.landlockAbi)
    sampleLauncher Connector.Process.sampleBootstrap
  refine ⟨hlauncher ⟨9, rfl, rfl⟩, ?_⟩
  have hnodup : (descriptors Connector.Process.sampleBootstrap).Nodup := by decide
  have hrange : ∀ d ∈ descriptors Connector.Process.sampleBootstrap,
      3 ≤ d ∧ d ≤ Launcher.maxDescriptor := by
    simp only [descriptors, List.forall_mem_cons, forall_mem_nil, and_true]
    decide
  exact (hconnector hnodup fun d hd => (hrange d hd).1).mpr fun d hd => (hrange d hd).2

/-- The descriptor of the launcher may have a plus sign, and one of the connector a zero before
it; neither list is rendered from what is parsed. -/
theorem bootstrap_two_spellings :
    (∃ arguments, parseLauncherBootstrap arguments = .ok sampleLauncher ∧
      arguments.getD 1 "" = "+9" ∧ ¬ sampleLauncher.Renders arguments) ∧
    ∃ arguments, parseConnectorBootstrap arguments = .ok Connector.Process.sampleBootstrap ∧
      arguments.getD 3 "" = "03" ∧
      arguments ≠ connectorArguments Connector.Process.sampleBootstrap := by
  constructor
  · refine ⟨(launcherArguments 9 sampleLauncher.identity .aarch64
      sampleLauncher.landlockAbi).set 1 "+9", by decide +kernel, rfl, ?_⟩
    intro ⟨descriptor, hdescriptor, harguments⟩
    rw [launcherArguments, launcherArguments, repr_of_toInt hdescriptor] at harguments
    have hspelling : "+9" = Decimal.text 9 := (List.cons.inj (List.cons.inj harguments).2).1
    revert hspelling
    decide
  · refine ⟨(connectorArguments Connector.Process.sampleBootstrap).set 3 "03",
      by decide +kernel, rfl, ?_⟩
    decide +kernel

end ProofboundRuntime.Linux.Bootstrap
