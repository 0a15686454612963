import ProofboundRuntime.Core.Receipt
import ProofboundRuntime.Lib.Mut
import ProofboundRuntime.Lib.Path
import ProofboundRuntime.Lib.Words

/-!
# A fresh cgroup

`FreshCgroup::create` and `create_v2` make one child of a delegated cgroup, install
its limits, read them back and see that the child is empty.  The state is the set
of children; what the kernel answers is the `Host`.

A failure after the child was made removes it again, but for one: when all is
installed the inode of the child is asked for, and if this fails the child stays.
`create_noLeftovers_iff` says that there is no other case.
-/

namespace ProofboundRuntime.Linux.Cgroup

open Result
open ProofboundRuntime.Core (ProcessLimit MemoryByteLimit SwapByteLimit ResourceLimits ExecutionId
  CgroupIdentity)

inductive CgroupError where
  | capabilityMismatch
  | resourceProfileIncomplete
  | parentUnavailable
  | controllerUnavailable
  | alreadyExists
  | creationFailed
  | openFailed
  | controlUnavailable
  | limitMismatch
  | notFresh
  | eventsInvalid
  | observationInvalid
  | observationNonzero
  | observationRegression
  | identityUnavailable
  | openat2Unavailable
deriving DecidableEq

/-! ## Texts of control files -/

section Texts

/-- `parse_canonical_u64`. -/
def parseCanonicalU64 (value : String) : Except CgroupError UInt64 :=
  let digits := Utf8.bytes value
  if digits = [] ∨ (1 < digits.length ∧ digits.head? = some 0x30) ∨
      ¬digits.all Ascii.isDigit then .error .observationInvalid
  else if Decimal.value digits < 2 ^ 64 then .ok (UInt64.ofNat (Decimal.value digits))
  else .error .observationInvalid

/-- `parse_u64_line`. -/
def parseU64Line (input : String) : Except CgroupError UInt64 := do
  let chars := input.toList
  let value := if chars.getLast? = some '\n' then chars.dropLast else chars
  rejectIf ('\n' ∈ value ∨ '\r' ∈ value) .observationInvalid
  parseCanonicalU64 (String.ofList value)

/-- One line of `parse_named_counters`: the counters and the ignored names seen so
far. -/
def readCounter (names ignoredNames : List String) (seen : List (Option UInt64) × List Bool)
    (line : String) : Except CgroupError (List (Option UInt64) × List Bool) :=
  match Words.words line with
  | [name, value] =>
    match names.idxOf? name with
    | some index => do
      rejectIf (seen.1.getD index none).isSome .observationInvalid
      let counter ← parseCanonicalU64 value
      pure (seen.1.set index (some counter), seen.2)
    | none =>
      match ignoredNames.idxOf? name with
      | some index => do
        rejectIf (seen.2.getD index false) .observationInvalid
        let _ ← parseCanonicalU64 value
        pure (seen.1, seen.2.set index true)
      | none => .error .observationInvalid
  | _ => .error .observationInvalid

/-- `parse_named_counters`. -/
def parseNamedCounters (names ignoredNames : List String) (input : String) :
    Except CgroupError (List UInt64) := do
  let seen ← (Words.lines input).foldlM (readCounter names ignoredNames)
    (names.map fun _ => none, ignoredNames.map fun _ => false)
  rejectIf (seen.1.any Option.isNone) .observationInvalid
  pure (seen.1.filterMap id)

structure MemoryEvents where
  low : UInt64
  high : UInt64
  max : UInt64
  oom : UInt64
  oomKill : UInt64
  oomGroupKill : UInt64
deriving DecidableEq

structure SwapEvents where
  max : UInt64
  fail : UInt64
deriving DecidableEq

structure ResourceSnapshot where
  memoryPeakBytes : UInt64
  swapPeakBytes : UInt64
  memoryEvents : MemoryEvents
  swapEvents : SwapEvents
deriving DecidableEq

def ResourceSnapshot.isZero (snapshot : ResourceSnapshot) : Bool :=
  snapshot = ⟨0, 0, ⟨0, 0, 0, 0, 0, 0⟩, ⟨0, 0⟩⟩

/-- `parse_resource_snapshot`. -/
def parseResourceSnapshot (memoryEvents swapEvents memoryPeak swapPeak : String) :
    Except CgroupError ResourceSnapshot := do
  let memory ← parseNamedCounters ["low", "high", "max", "oom", "oom_kill", "oom_group_kill"] []
    memoryEvents
  let swap ← parseNamedCounters ["max", "fail"] ["high"] swapEvents
  let memoryPeakBytes ← parseU64Line memoryPeak
  let swapPeakBytes ← parseU64Line swapPeak
  match memory, swap with
  | [low, high, max, oom, oomKill, oomGroupKill], [swapMax, fail] =>
    pure ⟨memoryPeakBytes, swapPeakBytes, ⟨low, high, max, oom, oomKill, oomGroupKill⟩,
      ⟨swapMax, fail⟩⟩
  -- There is one counter for each name.
  | _, _ => .error .observationInvalid

/-- One line of `parse_events`. -/
def readEvent (populated : Option Bool) (line : String) : Except CgroupError (Option Bool) :=
  match Words.words line with
  | [] => pure populated
  | [name, value] =>
    if name = "populated" then
      if populated.isSome then .error .eventsInvalid
      else if value = "0" then pure (some false)
      else if value = "1" then pure (some true)
      else .error .eventsInvalid
    else pure populated
  | _ => .error .eventsInvalid

/-- `parse_events`. -/
def parseEvents (input : String) : Except CgroupError Bool := do
  let populated ← (Words.lines input).foldlM readEvent none
  okOr populated .eventsInvalid

/-- `str::parse::<u32>`. -/
def parseU32 (text : String) : Option UInt32 :=
  let bytes := Utf8.bytes text
  let digits := if bytes.head? = some 0x2b then bytes.tail else bytes
  if digits ≠ [] ∧ digits.all Ascii.isDigit ∧ Decimal.value digits < 2 ^ 32 then
    some (UInt32.ofNat (Decimal.value digits))
  else none

/-- `parse_processes`. -/
def parseProcesses (input : String) : Except CgroupError (List UInt32) := do
  let values ← collect
    (fun line => okOr ((parseU32 line).filter (· ≠ 0)) CgroupError.controlUnavailable)
    ((Words.lines input).filter (· ≠ ""))
  pure (values.mergeSort (· ≤ ·)).dedup

theorem parseCanonicalU64_text (n : UInt64) :
    parseCanonicalU64 (Decimal.text n.toNat) = .ok n := by
  have hdigits : (Utf8.bytes (Decimal.text n.toNat)).all Ascii.isDigit := by
    rw [List.all_eq_true]
    exact Decimal.isDigit_text n.toNat
  have hzero : ¬(1 < (Utf8.bytes (Decimal.text n.toNat)).length ∧
      (Utf8.bytes (Decimal.text n.toNat)).head? = some 0x30) := by
    intro ⟨hlength, hhead⟩
    rw [Decimal.eq_zero_of_head _ hhead] at hlength
    exact absurd hlength (by decide)
  have hlt : n.toNat < 2 ^ 64 := n.toNat_lt
  simpa [parseCanonicalU64, Decimal.text_ne_nil, hdigits, hzero, Decimal.value_text] using hlt

end Texts

/-! ## The host -/

inductive Directory where
  | parent
  | child
deriving DecidableEq

/-- A control file cannot be opened, without `openat2` or for another reason, or
its contents cannot be read or written. -/
inductive ControlFault where
  | nosys
  | openFailed
  | transferFailed
deriving DecidableEq

inductive CreationFault where
  | taken
  | other
deriving DecidableEq

/-- What the kernel answers to the calls of one run, which makes each of them at most
once. -/
structure Host where
  openDirectory : Except Unit Unit
  inode : Directory → Except Unit UInt64
  contents : Directory → String → Except ControlFault (List UInt8)
  write : String → String → Except ControlFault Unit
  createDirectory : Except CreationFault Unit
  reopenDirectory : Except Unit Unit

/-- `CgroupV2Capability`. -/
structure Capability where
  directory : List UInt8
  mountId : UInt64
  directoryInode : UInt64
  controllers : List String

structure ConfiguredResources where
  processes : ProcessLimit
  memory : MemoryByteLimit
  swap : SwapByteLimit
  memoryOomGroup : UInt64
deriving DecidableEq

/-- `FreshCgroup`, without its descriptors and how it is dropped. -/
structure FreshCgroup where
  path : List UInt8
  identity : CgroupIdentity
  processLimit : ProcessLimit
  configuredResources : Option ConfiguredResources
  initialResources : Option ResourceSnapshot
  name : List UInt8
deriving DecidableEq

section Host

variable (host : Host)

def mapControlFault : ControlFault → CgroupError
  | .nosys => .openat2Unavailable
  | .openFailed => .controlUnavailable
  | .transferFailed => .controlUnavailable

/-- `CONTROL_READ_LIMIT`. -/
def controlReadLimit : Nat := 64 * 1024

/-- `read_control`. -/
def readControl (directory : Directory) (name : String) : Except CgroupError String := do
  let contents ← (host.contents directory name).mapError mapControlFault
  let bytes := contents.take (controlReadLimit + 1)
  rejectIf (controlReadLimit < bytes.length) .controlUnavailable
  okOr (Utf8.fromUtf8 bytes) .controlUnavailable

/-- `write_control`. -/
def writeControl (name value : String) : Except CgroupError Unit :=
  (host.write name value).mapError mapControlFault

/-- `directory_inode`. -/
def directoryInode (directory : Directory) : Except CgroupError UInt64 :=
  (host.inode directory).mapError fun _ => .identityUnavailable

/-- `populated`. -/
def populated : Except CgroupError Bool := do
  parseEvents (← readControl host .child "cgroup.events")

/-- `processes`. -/
def processes : Except CgroupError (List UInt32) := do
  parseProcesses (← readControl host .child "cgroup.procs")

/-- `read_resource_snapshot`. -/
def readResourceSnapshot : Except CgroupError ResourceSnapshot := do
  let memoryEvents ← readControl host .child "memory.events.local"
  let swapEvents ← readControl host .child "memory.swap.events"
  let memoryPeak ← readControl host .child "memory.peak"
  let swapPeak ← readControl host .child "memory.swap.peak"
  parseResourceSnapshot memoryEvents swapEvents memoryPeak swapPeak

/-! ## Creation -/

/-- The checks on the parent before the child is made.  The set of enabled
controllers is only searched. -/
def checkParent (capability : Capability) (required : List String) : Except CgroupError Unit := do
  host.openDirectory.mapError fun _ => .parentUnavailable
  let inode ← directoryInode host .parent
  rejectIf (inode ≠ capability.directoryInode) .capabilityMismatch
  let enabled ← readControl host .parent "cgroup.subtree_control"
  rejectIf (¬required.all (Words.words enabled).contains) .controllerUnavailable

/-- Write a control and read it back. -/
def installControl (control : String × String) : Except CgroupError String := do
  writeControl host control.1 control.2
  let observed ← readControl host .child control.1
  rejectIf (Words.trim observed ≠ control.2) .limitMismatch
  pure (Words.trim observed)

/-- The child has no process. -/
def requireFresh : Except CgroupError Unit := do
  rejectIf (← populated host) .notFresh
  rejectIf (¬(← processes host).isEmpty) .notFresh

/-- `cgroup_name`. -/
def cgroupName (executionId : ExecutionId) : List UInt8 :=
  Utf8.bytes "proofbound-runtime-" ++ Hex.ascii executionId.bytes.toList

def mapCreationError : CreationFault → CgroupError
  | .taken => .alreadyExists
  | .other => .creationFailed

/-- `create_directory_at`. -/
def createDirectoryAt (name : List UInt8) : Mut (Finset (List UInt8)) CgroupError Unit :=
  fun children =>
    match host.createDirectory with
    | .error fault => (.error (mapCreationError fault), children)
    | .ok () =>
      if name ∈ children then (.error (mapCreationError .taken), children)
      else (.ok (), insert name children)

/-- `remove_directory_at`, which does not fail. -/
def removeDirectoryAt (name : List UInt8) : Mut (Finset (List UInt8)) CgroupError Unit :=
  Mut.modify (Finset.erase · name)

/-- The new child is opened and set up, and its inode is taken. -/
def openChild {α : Type} (name : List UInt8) (setup : Except CgroupError α)
    (finish : α → UInt64 → FreshCgroup) : Mut (Finset (List UInt8)) CgroupError FreshCgroup :=
  match host.reopenDirectory with
  | .error () => do
    removeDirectoryAt name
    Mut.fail .openFailed
  | .ok () =>
    match setup with
    | .error e => do
      removeDirectoryAt name
      Mut.fail e
    | .ok value => do
      let inode ← Mut.lift (directoryInode host .child)
      pure (finish value inode)

/-- The part that both functions have after their checks. -/
def createChild {α : Type} (name : List UInt8) (setup : Except CgroupError α)
    (finish : α → UInt64 → FreshCgroup) : Mut (Finset (List UInt8)) CgroupError FreshCgroup := do
  createDirectoryAt host name
  openChild host name setup finish

variable (capability : Capability) (executionId : ExecutionId)

/-- The limit that `create` installs. -/
def processControl (processLimit : ProcessLimit) : String × String :=
  ("pids.max", Decimal.text processLimit.get.toNat)

def setup (processLimit : ProcessLimit) : Except CgroupError Unit := do
  let _ ← installControl host (processControl processLimit)
  requireFresh host

/-- `FreshCgroup::create`. -/
def create (processLimit : ProcessLimit) : Mut (Finset (List UInt8)) CgroupError FreshCgroup := do
  Mut.lift (rejectIf (capability.mountId = 0 ∨ "pids" ∉ capability.controllers)
    .capabilityMismatch)
  Mut.lift (checkParent host capability ["pids"])
  let name := cgroupName executionId
  createChild host name (setup host processLimit) fun _ inode =>
    ⟨Path.join capability.directory name, ⟨capability.mountId, inode⟩, processLimit, none, none,
      name⟩

/-- `installed_control_values`. -/
def installedControlValues (limits : ResourceLimits) :
    Except CgroupError (List (String × String)) := do
  let memory ← okOr limits.memory .resourceProfileIncomplete
  let swap ← okOr limits.swap .resourceProfileIncomplete
  pure [processControl limits.processes, ("memory.max", Decimal.text memory.get.toNat),
    ("memory.swap.max", Decimal.text swap.get.toNat), ("memory.oom.group", "1")]

/-- `configured_resources_from_readbacks`. -/
def configuredResourcesFromReadbacks (values : List String) :
    Except CgroupError ConfiguredResources := do
  let processes ← okOr (do
    let value ← (parseCanonicalU64 (values.getD 0 "")).toOption
    guard (value.toNat < 2 ^ 32)
    (ProcessLimit.new (UInt32.ofNat value.toNat)).toOption) .limitMismatch
  let memory ← okOr (do
    let value ← (parseCanonicalU64 (values.getD 1 "")).toOption
    (MemoryByteLimit.new value).toOption) .limitMismatch
  let swap ← okOr (do
    let value ← (parseCanonicalU64 (values.getD 2 "")).toOption
    (SwapByteLimit.new value).toOption) .limitMismatch
  let memoryOomGroup ← parseCanonicalU64 (values.getD 3 "")
  rejectIf (memoryOomGroup ≠ 1) .limitMismatch
  pure ⟨processes, memory, swap, memoryOomGroup⟩

def setupV2 (controls : List (String × String)) :
    Except CgroupError (ResourceSnapshot × ConfiguredResources) := do
  let readbacks ← collect (installControl host) controls
  let configured ← configuredResourcesFromReadbacks readbacks
  let initial ← readResourceSnapshot host
  rejectIf (¬initial.isZero) .observationNonzero
  requireFresh host
  pure (initial, configured)

/-- `FreshCgroup::create_v2`. -/
def createV2 (limits : ResourceLimits) : Mut (Finset (List UInt8)) CgroupError FreshCgroup := do
  Mut.lift (rejectIf (capability.mountId = 0 ∨
    ¬["memory", "pids"].all capability.controllers.contains) .capabilityMismatch)
  let controls ← Mut.lift (installedControlValues limits)
  Mut.lift (checkParent host capability ["memory", "pids"])
  let name := cgroupName executionId
  createChild host name (setupV2 host controls) fun value inode =>
    ⟨Path.join capability.directory name, ⟨capability.mountId, inode⟩, limits.processes,
      some value.2, some value.1, name⟩

end Host

/-! ## What the steps need -/

section Steps

variable {host : Host} {capability : Capability} {children : Finset (List UInt8)}

theorem checkParent_eq_ok {required : List String} :
    checkParent host capability required = .ok () ↔
      host.openDirectory = .ok () ∧ host.inode .parent = .ok capability.directoryInode ∧
        ∃ enabled, readControl host .parent "cgroup.subtree_control" = .ok enabled ∧
          ∀ controller ∈ required, controller ∈ Words.words enabled := by
  simp [checkParent, directoryInode, Unique.exists_iff]

/-- The control was written, and its value was read back. -/
def ReadsBack (host : Host) (control : String × String) : Prop :=
  host.write control.1 control.2 = .ok () ∧
    ∃ observed, readControl host .child control.1 = .ok observed ∧
      Words.trim observed = control.2

theorem installControl_eq_ok {control : String × String} {readback : String} :
    installControl host control = .ok readback ↔
      ReadsBack host control ∧ readback = control.2 := by
  simp only [installControl, writeControl, mapError_eq_ok, bind_eq_ok, rejectIf_eq_ok, pure_eq_ok,
    not_not, ReadsBack]
  constructor
  · rintro ⟨_, hwrite, observed, hread, _, htrim, rfl⟩
    exact ⟨⟨hwrite, observed, hread, htrim⟩, htrim⟩
  · rintro ⟨⟨hwrite, observed, hread, htrim⟩, rfl⟩
    exact ⟨(), hwrite, observed, hread, (), htrim, htrim⟩

theorem requireFresh_eq_ok {u : Unit} :
    requireFresh host = .ok u ↔ populated host = .ok false ∧ processes host = .ok [] := by
  simp [requireFresh]

theorem setup_eq_ok {processLimit : ProcessLimit} :
    setup host processLimit = .ok () ↔
      ReadsBack host (processControl processLimit) ∧ populated host = .ok false ∧
        processes host = .ok [] := by
  simp [setup, installControl_eq_ok, requireFresh_eq_ok]

variable {controls : List (String × String)}

theorem collect_installControl_eq_ok {readbacks : List String} :
    collect (installControl host) controls = .ok readbacks ↔
      (∀ control ∈ controls, ReadsBack host control) ∧ readbacks = controls.map Prod.snd := by
  induction controls generalizing readbacks with
  | nil => simp [collect, eq_comm]
  | cons control controls ih =>
    simp only [collect, bind_eq_ok, installControl_eq_ok, ih, pure_eq_ok, List.forall_mem_cons,
      List.map_cons]
    constructor
    · rintro ⟨_, ⟨hcontrol, rfl⟩, _, ⟨hcontrols, rfl⟩, rfl⟩
      exact ⟨⟨hcontrol, hcontrols⟩, rfl⟩
    · rintro ⟨⟨hcontrol, hcontrols⟩, rfl⟩
      exact ⟨_, ⟨hcontrol, rfl⟩, _, ⟨hcontrols, rfl⟩, rfl⟩

variable {limits : ResourceLimits}

/-- The limits are read out of their own texts. -/
theorem configuredResourcesFromReadbacks_values {memory : MemoryByteLimit} {swap : SwapByteLimit} :
    configuredResourcesFromReadbacks [Decimal.text limits.processes.get.toNat,
        Decimal.text memory.get.toNat, Decimal.text swap.get.toNat, "1"] =
      .ok ⟨limits.processes, memory, swap, 1⟩ := by
  have hprocesses : parseCanonicalU64 (Decimal.text limits.processes.get.toNat) =
      .ok limits.processes.get.toUInt64 := by
    rw [← UInt32.toNat_toUInt64]
    exact parseCanonicalU64_text _
  have hprocess : ProcessLimit.new limits.processes.get = .ok limits.processes :=
    ProcessLimit.new_eq_ok.mpr rfl
  have hmemory : MemoryByteLimit.new memory.get = .ok memory :=
    MemoryByteLimit.new_eq_ok.mpr rfl
  have hswap : SwapByteLimit.new swap.get = .ok swap := SwapByteLimit.new_eq_ok.mpr rfl
  have hgroup : parseCanonicalU64 "1" = .ok 1 := parseCanonicalU64_text 1
  have hlt : limits.processes.get.toNat < 2 ^ 32 := limits.processes.get.toNat_lt
  simp only [configuredResourcesFromReadbacks, bind_eq_ok, okOr_eq_ok]
  refine ⟨limits.processes, ?_, memory, ?_, swap, ?_, 1, hgroup, (), by simp, rfl⟩
  · have hguard : guard (limits.processes.get.toUInt64.toNat < 2 ^ 32) = some () := by
      rw [UInt32.toNat_toUInt64, guard, if_pos hlt]
      rfl
    have hvalue : UInt32.ofNat limits.processes.get.toUInt64.toNat = limits.processes.get := by
      simp
    simp only [List.getD_cons_zero, hprocesses, Except.toOption, Option.bind_eq_bind,
      Option.bind_some, hguard, hvalue, hprocess]
  · simp [parseCanonicalU64_text, Except.toOption, hmemory]
  · simp [parseCanonicalU64_text, Except.toOption, hswap]

theorem installedControlValues_eq_ok :
    installedControlValues limits = .ok controls ↔
      ∃ memory, limits.memory = some memory ∧ ∃ swap, limits.swap = some swap ∧
        [processControl limits.processes, ("memory.max", Decimal.text memory.get.toNat),
          ("memory.swap.max", Decimal.text swap.get.toNat), ("memory.oom.group", "1")] =
          controls := by
  simp only [installedControlValues, bind_eq_ok, okOr_eq_ok, pure_eq_ok]

theorem setupV2_eq_ok {initial : ResourceSnapshot} {configured : ConfiguredResources}
    (hcontrols : installedControlValues limits = .ok controls) :
    setupV2 host controls = .ok (initial, configured) ↔
      (∀ control ∈ controls, ReadsBack host control) ∧
        (limits.memory = some configured.memory ∧ limits.swap = some configured.swap ∧
          configured.processes = limits.processes ∧ configured.memoryOomGroup = 1) ∧
        readResourceSnapshot host = .ok initial ∧ initial.isZero = true ∧
        populated host = .ok false ∧ processes host = .ok [] := by
  obtain ⟨memory, hmemory, swap, hswap, rfl⟩ := installedControlValues_eq_ok.mp hcontrols
  simp only [setupV2, bind_eq_ok, collect_installControl_eq_ok, requireFresh_eq_ok, rejectIf_eq_ok,
    pure_eq_ok, not_not, Prod.mk.injEq]
  constructor
  · rintro ⟨_, ⟨hreads, rfl⟩, configured', hconfigured, initial', hinitial, _, hzero, _, hfresh,
      rfl, rfl⟩
    have hvalues := hconfigured.symm.trans configuredResourcesFromReadbacks_values
    cases hvalues
    exact ⟨hreads, ⟨hmemory, hswap, rfl, rfl⟩, hinitial, hzero, hfresh⟩
  · rintro ⟨hreads, ⟨hmemory', hswap', hprocesses, hgroup⟩, hinitial, hzero, hfresh⟩
    rw [hmemory] at hmemory'
    rw [hswap] at hswap'
    cases hmemory'
    cases hswap'
    refine ⟨_, ⟨hreads, rfl⟩, configured, ?_, initial, hinitial, (), hzero, (), hfresh, rfl, rfl⟩
    refine configuredResourcesFromReadbacks_values.trans ?_
    rw [← hprocesses, ← hgroup]

/-- The child is made, opened again and set up. -/
theorem createChild_cases {α : Type} (host : Host) (name : List UInt8)
    (setup : Except CgroupError α) (finish : α → UInt64 → FreshCgroup)
    (children : Finset (List UInt8)) :
    (∃ value, host.createDirectory = .ok () ∧ name ∉ children ∧ host.reopenDirectory = .ok () ∧
      setup = .ok value ∧
      createChild host name setup finish children =
        match host.inode .child with
        | .ok inode => (.ok (finish value inode), insert name children)
        | .error () => (.error .identityUnavailable, insert name children)) ∨
    (¬(host.createDirectory = .ok () ∧ name ∉ children ∧ host.reopenDirectory = .ok () ∧
        ∃ value, setup = .ok value) ∧
      ∃ e, createChild host name setup finish children = (.error e, children)) := by
  have hfails : ∀ fault, createDirectoryAt host name children =
      (.error (mapCreationError fault), children) →
      ∃ e, createChild host name setup finish children = (.error e, children) :=
    fun fault h => ⟨mapCreationError fault, Mut.bind_of_error h⟩
  cases hcreate : host.createDirectory with
  | error fault => exact .inr ⟨by simp, hfails fault (by simp [createDirectoryAt, hcreate])⟩
  | ok u =>
    by_cases hname : name ∈ children
    · exact .inr ⟨by simp [hname], hfails .taken (by simp [createDirectoryAt, hcreate, hname])⟩
    have hmade : createDirectoryAt host name children = (.ok (), insert name children) := by
      simp [createDirectoryAt, hcreate, hname]
    -- A removal takes back what was made.
    have hremoved : removeDirectoryAt name (insert name children) = (.ok (), children) := by
      show ((.ok (), (insert name children).erase name) : Except CgroupError Unit × _) = _
      rw [Finset.erase_insert hname]
    rw [createChild, Mut.bind_of_ok hmade]
    unfold openChild
    cases hreopen : host.reopenDirectory with
    | error u => exact .inr ⟨by simp, .openFailed, Mut.bind_of_ok hremoved⟩
    | ok u =>
      cases hsetup : setup with
      | error e => exact .inr ⟨by simp, e, Mut.bind_of_ok hremoved⟩
      | ok value =>
        refine .inl ⟨value, rfl, hname, rfl, rfl, ?_⟩
        cases hinode : host.inode .child with
        | error u =>
          refine Mut.bind_of_error ?_
          simp [Mut.lift, directoryInode, hinode, Except.mapError]
        | ok inode =>
          refine Mut.bind_of_ok ?_
          simp [Mut.lift, directoryInode, hinode, Except.mapError]

end Steps

/-! ## No leftovers -/

/-- The limits were read back as they were asked for, and the child is empty. -/
structure Limited (host : Host) (controls : List (String × String)) : Prop where
  readsBack : ∀ control ∈ controls, ReadsBack host control
  unpopulated : populated host = .ok false
  empty : processes host = .ok []

/-- A failure leaves the children as they were, and a success has made one of which
`good` holds. -/
def NoLeftovers (children : Finset (List UInt8)) (name : List UInt8)
    (good : FreshCgroup → Prop) : Except CgroupError FreshCgroup × Finset (List UInt8) → Prop
  | (.error _, after) => after = children
  | (.ok cgroup, after) => name ∉ children ∧ after = insert name children ∧ good cgroup

/-- Everything up to the inode of the child succeeds. -/
structure Installs (host : Host) (capability : Capability) (children : Finset (List UInt8))
    (name : List UInt8) (required : List String) (controls : List (String × String)) : Prop where
  mounted : capability.mountId ≠ 0
  controllers : ∀ controller ∈ required, controller ∈ capability.controllers
  opens : host.openDirectory = .ok ()
  parent : host.inode .parent = .ok capability.directoryInode
  enabled : ∃ enabled, readControl host .parent "cgroup.subtree_control" = .ok enabled ∧
    ∀ controller ∈ required, controller ∈ Words.words enabled
  creates : host.createDirectory = .ok ()
  absent : name ∉ children
  reopens : host.reopenDirectory = .ok ()
  limited : Limited host controls

section

variable {host : Host} {capability : Capability} {executionId : ExecutionId}
  {children : Finset (List UInt8)} {name : List UInt8} {good : FreshCgroup → Prop}

theorem noLeftovers_of_error {result : Except CgroupError FreshCgroup × Finset (List UInt8)}
    (h : ∃ e, result = (.error e, children)) : NoLeftovers children name good result := by
  obtain ⟨e, rfl⟩ := h
  exact rfl

/-- The child is set up: all is well unless its inode cannot be taken. -/
theorem noLeftovers_iff_of_made {finish : UInt64 → FreshCgroup}
    (habsent : name ∉ children) (hgood : ∀ inode, good (finish inode)) :
    NoLeftovers children name good (match host.inode .child with
      | .ok inode => (.ok (finish inode), insert name children)
      | .error () => (.error .identityUnavailable, insert name children)) ↔
      ¬host.inode .child = .error () := by
  cases host.inode .child with
  | ok inode => exact iff_of_true ⟨habsent, rfl, hgood inode⟩ nofun
  | error u =>
    refine iff_of_false (fun h => ?_) (not_not_intro rfl)
    have hleft : insert name children = children := h
    exact habsent (hleft ▸ Finset.mem_insert_self name children)

theorem create_noLeftovers {processLimit : ProcessLimit} :
    NoLeftovers children (cgroupName executionId)
        (fun cgroup => Limited host [processControl processLimit] ∧
          cgroup.processLimit = processLimit)
        (create host capability executionId processLimit children) ↔
      ¬(Installs host capability children (cgroupName executionId) ["pids"]
          [processControl processLimit] ∧ host.inode .child = .error ()) := by
  unfold create
  by_cases hcapability : capability.mountId = 0 ∨ "pids" ∉ capability.controllers
  · refine iff_of_true
      (noLeftovers_of_error ⟨_, Mut.lift_bind_of_error (rejectIf_true hcapability)⟩) ?_
    intro h
    exact hcapability.elim h.1.mounted fun hmissing => hmissing (h.1.controllers "pids" (by simp))
  rw [Mut.lift_bind_of_ok (rejectIf_false hcapability)]
  cases hparent : checkParent host capability ["pids"] with
  | error e =>
    refine iff_of_true (noLeftovers_of_error ⟨e, Mut.lift_bind_of_error rfl⟩) ?_
    intro h
    simp [checkParent_eq_ok.mpr ⟨h.1.opens, h.1.parent, h.1.enabled⟩] at hparent
  | ok u =>
    rw [Mut.lift_bind_of_ok rfl]
    rcases createChild_cases host (cgroupName executionId) (setup host processLimit) _ children with
      ⟨value, hcreate, habsent, hreopen, hsetup, hrun⟩ | ⟨hnot, hrun⟩
    · obtain ⟨hreads, hpopulated, hempty⟩ := setup_eq_ok.mp hsetup
      have hlimited : Limited host [processControl processLimit] :=
        ⟨by simpa using hreads, hpopulated, hempty⟩
      rw [hrun]
      refine (noLeftovers_iff_of_made habsent fun _ => ⟨hlimited, rfl⟩).trans ?_
      obtain ⟨hopen, hinode, henabled⟩ := checkParent_eq_ok.mp hparent
      rw [not_or, not_not] at hcapability
      have hinstalls : Installs host capability children (cgroupName executionId) ["pids"]
          [processControl processLimit] :=
        ⟨hcapability.1, by simpa using hcapability.2, hopen, hinode, henabled, hcreate, habsent,
          hreopen, hlimited⟩
      simp [hinstalls]
    · refine iff_of_true (noLeftovers_of_error hrun) fun h => hnot ?_
      have hsetup : setup host processLimit = .ok () := setup_eq_ok.mpr
        ⟨h.1.limited.readsBack _ (by simp), h.1.limited.unpopulated, h.1.limited.empty⟩
      exact ⟨h.1.creates, h.1.absent, h.1.reopens, (), hsetup⟩

/-- The profile is complete, everything is installed and the counters are zero. -/
def InstallsV2 (host : Host) (capability : Capability) (children : Finset (List UInt8))
    (name : List UInt8) (limits : ResourceLimits) : Prop :=
  ∃ controls, installedControlValues limits = .ok controls ∧
    Installs host capability children name ["memory", "pids"] controls ∧
    ∃ initial, readResourceSnapshot host = .ok initial ∧ initial.isZero = true

/-- The limits that the cgroup carries are those of the plan, read back from the
child. -/
def LimitedV2 (host : Host) (limits : ResourceLimits) (cgroup : FreshCgroup) : Prop :=
  ∃ controls configured, installedControlValues limits = .ok controls ∧ Limited host controls ∧
    cgroup.configuredResources = some configured ∧ configured.processes = limits.processes ∧
    limits.memory = some configured.memory ∧ limits.swap = some configured.swap ∧
    configured.memoryOomGroup = 1

theorem createV2_noLeftovers {limits : ResourceLimits} :
    NoLeftovers children (cgroupName executionId) (LimitedV2 host limits)
        (createV2 host capability executionId limits children) ↔
      ¬(InstallsV2 host capability children (cgroupName executionId) limits ∧
        host.inode .child = .error ()) := by
  unfold createV2
  by_cases hcapability : capability.mountId = 0 ∨
      ¬["memory", "pids"].all capability.controllers.contains
  · refine iff_of_true
      (noLeftovers_of_error ⟨_, Mut.lift_bind_of_error (rejectIf_true hcapability)⟩) ?_
    rintro ⟨⟨controls, -, hinstalls, -⟩, -⟩
    refine hcapability.elim hinstalls.mounted fun hmissing => hmissing ?_
    simpa using hinstalls.controllers
  rw [Mut.lift_bind_of_ok (rejectIf_false hcapability)]
  cases hcontrols : installedControlValues limits with
  | error e =>
    refine iff_of_true (noLeftovers_of_error ⟨e, Mut.lift_bind_of_error rfl⟩) ?_
    rintro ⟨⟨controls, hvalues, -⟩, -⟩
    simp [hcontrols] at hvalues
  | ok controls =>
    rw [Mut.lift_bind_of_ok rfl]
    cases hparent : checkParent host capability ["memory", "pids"] with
    | error e =>
      refine iff_of_true (noLeftovers_of_error ⟨e, Mut.lift_bind_of_error rfl⟩) ?_
      rintro ⟨⟨controls, -, hinstalls, -⟩, -⟩
      simp [checkParent_eq_ok.mpr ⟨hinstalls.opens, hinstalls.parent, hinstalls.enabled⟩] at hparent
    | ok u =>
      rw [Mut.lift_bind_of_ok rfl]
      rcases createChild_cases host (cgroupName executionId) (setupV2 host controls) _ children with
        ⟨⟨initial, configured⟩, hcreate, habsent, hreopen, hsetup, hrun⟩ | ⟨hnot, hrun⟩
      · obtain ⟨hreads, ⟨hmemory, hswap, hprocesses, hgroup⟩, hinitial, hzero, hpopulated, hempty⟩ :=
          (setupV2_eq_ok hcontrols).mp hsetup
        have hlimited : Limited host controls := ⟨hreads, hpopulated, hempty⟩
        rw [hrun]
        refine (noLeftovers_iff_of_made habsent fun _ => ⟨controls, configured, hcontrols,
          hlimited, rfl, hprocesses, hmemory, hswap, hgroup⟩).trans ?_
        obtain ⟨hopen, hinode, henabled⟩ := checkParent_eq_ok.mp hparent
        rw [not_or, not_not] at hcapability
        have hinstalls : InstallsV2 host capability children (cgroupName executionId) limits :=
          ⟨controls, hcontrols, ⟨hcapability.1, by simpa using hcapability.2, hopen, hinode, henabled,
            hcreate, habsent, hreopen, hlimited⟩, initial, hinitial, hzero⟩
        simp [hinstalls]
      · refine iff_of_true (noLeftovers_of_error hrun) ?_
        rintro ⟨⟨controls', hvalues, hinstalls, initial, hinitial, hzero⟩, -⟩
        rw [hcontrols] at hvalues
        cases hvalues
        obtain ⟨memory, hmemory, swap, hswap, -⟩ := installedControlValues_eq_ok.mp hcontrols
        refine hnot ⟨hinstalls.creates, hinstalls.absent, hinstalls.reopens,
          (initial, ⟨limits.processes, memory, swap, 1⟩), ?_⟩
        exact (setupV2_eq_ok hcontrols).mpr ⟨hinstalls.limited.readsBack,
          ⟨hmemory, hswap, rfl, rfl⟩, hinitial, hzero, hinstalls.limited.unpopulated,
          hinstalls.limited.empty⟩

end

/-- Neither function leaves a child behind when it fails, unless everything is
installed and then the inode of the child cannot be taken. -/
theorem create_noLeftovers_iff (host : Host) (capability : Capability) (executionId : ExecutionId)
    (processLimit : ProcessLimit) (limits : ResourceLimits) (children : Finset (List UInt8)) :
    (NoLeftovers children (cgroupName executionId)
        (fun cgroup => Limited host [processControl processLimit] ∧
          cgroup.processLimit = processLimit)
        (create host capability executionId processLimit children) ↔
      ¬(Installs host capability children (cgroupName executionId) ["pids"]
          [processControl processLimit] ∧ host.inode .child = .error ())) ∧
    (NoLeftovers children (cgroupName executionId) (LimitedV2 host limits)
        (createV2 host capability executionId limits children) ↔
      ¬(InstallsV2 host capability children (cgroupName executionId) limits ∧
        host.inode .child = .error ())) :=
  ⟨create_noLeftovers, createV2_noLeftovers⟩

/-- The control files of the sample: two processes, 64 KiB of memory and no swap. -/
def sampleContents : List (String × String) :=
  [("cgroup.subtree_control", "memory pids\n"), ("pids.max", "2\n"), ("memory.max", "65536\n"),
    ("memory.swap.max", "0\n"), ("memory.oom.group", "1\n"),
    ("memory.events.local", "low 0\nhigh 0\nmax 0\noom 0\noom_kill 0\noom_group_kill 0\n"),
    ("memory.swap.events", "high 0\nmax 0\nfail 0\n"), ("memory.peak", "0\n"),
    ("memory.swap.peak", "0\n"), ("cgroup.events", "populated 0\nfrozen 0\n"),
    ("cgroup.procs", "")]

/-- A host on which only the inode of the child cannot be taken. -/
def sampleHost : Host where
  openDirectory := .ok ()
  inode
    | .parent => .ok 1
    | .child => .error ()
  contents _ name := .ok (Utf8.bytes ((sampleContents.lookup name).getD ""))
  write _ _ := .ok ()
  createDirectory := .ok ()
  reopenDirectory := .ok ()

def sampleCapability : Capability where
  directory := Utf8.bytes "/sys/fs/cgroup/pbr"
  mountId := 1
  directoryInode := 1
  controllers := ["memory", "pids"]

def sampleExecutionId : ExecutionId :=
  ⟨#v[0, 1, 2, 3, 4, 5, 0x46, 7, 0x88, 9, 10, 11, 12, 13, 14, 15], by decide, by decide⟩

def sampleLimits : ResourceLimits :=
  .newV2 ⟨2, by decide⟩ ⟨1000, by decide⟩ ⟨1024⟩ ⟨2048⟩ ⟨65536, by decide, by decide, by decide⟩
    ⟨0, by decide, by decide⟩

/-- Both functions fail and leave the child. -/
theorem create_leftover :
    ¬NoLeftovers ∅ (cgroupName sampleExecutionId)
        (fun cgroup => Limited sampleHost [processControl sampleLimits.processes] ∧
          cgroup.processLimit = sampleLimits.processes)
        (create sampleHost sampleCapability sampleExecutionId sampleLimits.processes ∅) ∧
      ¬NoLeftovers ∅ (cgroupName sampleExecutionId) (LimitedV2 sampleHost sampleLimits)
        (createV2 sampleHost sampleCapability sampleExecutionId sampleLimits ∅) := by
  have hcreate : create sampleHost sampleCapability sampleExecutionId sampleLimits.processes ∅ =
      (.error .identityUnavailable, {cgroupName sampleExecutionId}) := by
    decide +kernel
  have hcreateV2 : createV2 sampleHost sampleCapability sampleExecutionId sampleLimits ∅ =
      (.error .identityUnavailable, {cgroupName sampleExecutionId}) := by
    decide +kernel
  rw [hcreate, hcreateV2]
  exact ⟨Finset.singleton_ne_empty _, Finset.singleton_ne_empty _⟩

end ProofboundRuntime.Linux.Cgroup
