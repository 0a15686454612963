import ProofboundRuntime.Lib.Result
import ProofboundRuntime.Lib.Utf8

/-!
# Authority

`authority.rs`: paths, names of environment variables and limits, each with
the conditions of its constructor, and the authority of a plan.  Of a text the
source keeps the bytes beside it; here they are `Utf8.bytes`.

The lemmas `new_eq_ok` say that a constructor returns the value of its
argument, where there is one.
-/

namespace ProofboundRuntime.Core

open Result

/-- The errors of `authority.rs`. -/
inductive AuthorityError where
  | emptyPath
  | pathContainsNull
  | emptyEnvironmentName
  | environmentNameContainsNull
  | environmentNameContainsEquals
  | zeroProcessLimit
  | zeroWallTimeLimit
  | memoryLimitBelowMinimum
  | memoryLimitAboveMaximum
  | memoryLimitNotQuantized
  | swapLimitAboveMaximum
  | swapLimitNotQuantized
deriving DecidableEq

/-! ## Texts -/

/-- A text without a null byte. -/
structure AuthorityPath where
  asStr : String
  ne_empty : asStr ≠ ""
  no_null : 0 ∉ Utf8.bytes asStr
deriving DecidableEq

/-- `AuthorityPath::new`. -/
def AuthorityPath.new (value : String) : Except AuthorityError AuthorityPath :=
  if hempty : value = "" then .error .emptyPath
  else if hnull : 0 ∈ Utf8.bytes value then .error .pathContainsNull
  else .ok ⟨value, hempty, hnull⟩

theorem AuthorityPath.new_eq_ok {value : String} {path : AuthorityPath} :
    AuthorityPath.new value = .ok path ↔ path.asStr = value := by
  rw [AuthorityPath.new]
  simp only [dite_error_eq_ok, Except.ok.injEq]
  constructor
  · rintro ⟨_, _, rfl⟩
    rfl
  · rintro rfl
    exact ⟨path.ne_empty, path.no_null, rfl⟩

/-- A text without a null byte or `=`. -/
structure EnvironmentName where
  asStr : String
  ne_empty : asStr ≠ ""
  no_null : 0 ∉ Utf8.bytes asStr
  no_equals : 0x3d ∉ Utf8.bytes asStr
deriving DecidableEq

/-- `EnvironmentName::new`. -/
def EnvironmentName.new (value : String) : Except AuthorityError EnvironmentName :=
  if hempty : value = "" then .error .emptyEnvironmentName
  else if hnull : 0 ∈ Utf8.bytes value then .error .environmentNameContainsNull
  else if hequals : 0x3d ∈ Utf8.bytes value then .error .environmentNameContainsEquals
  else .ok ⟨value, hempty, hnull, hequals⟩

/-! ## Path authority -/

/-- What may be done with a file. -/
inductive FileAccess where
  | read
  | write
  | execute
deriving DecidableEq

/-- What a path is for. -/
inductive PathRole where
  | projectInput
  | outputRoot
  | runtimeExecutable
  | runtimeLoaderExecutable
  | runtimeLibrary
deriving DecidableEq

/-- An access to a path in its role. -/
structure PathAuthority where
  path : AuthorityPath
  access : FileAccess
  role : PathRole
deriving DecidableEq

/-! ## Limits -/

/-- Some process is allowed. -/
@[ext] structure ProcessLimit where
  get : UInt32
  ne_zero : get ≠ 0

instance : DecidableEq ProcessLimit :=
  fun _ _ => decidable_of_iff _ ProcessLimit.ext_iff.symm

/-- `ProcessLimit::new`. -/
def ProcessLimit.new (value : UInt32) : Except AuthorityError ProcessLimit :=
  if hzero : value = 0 then .error .zeroProcessLimit else .ok ⟨value, hzero⟩

theorem ProcessLimit.new_eq_ok {value : UInt32} {limit : ProcessLimit} :
    ProcessLimit.new value = .ok limit ↔ limit.get = value := by
  rw [ProcessLimit.new]
  simp only [dite_error_eq_ok, Except.ok.injEq]
  constructor
  · rintro ⟨_, rfl⟩
    rfl
  · rintro rfl
    exact ⟨limit.ne_zero, rfl⟩

/-- Some time is allowed. -/
structure WallTimeLimit where
  milliseconds : UInt64
  ne_zero : milliseconds ≠ 0
deriving DecidableEq

/-- `WallTimeLimit::from_milliseconds`. -/
def WallTimeLimit.fromMilliseconds (value : UInt64) : Except AuthorityError WallTimeLimit :=
  if hzero : value = 0 then .error .zeroWallTimeLimit else .ok ⟨value, hzero⟩

/-- The bytes kept of a stream. -/
structure OutputByteLimit where
  get : UInt64
deriving DecidableEq

namespace MemoryByteLimit

/-- 64 KiB. -/
def minimum : UInt64 := 65536

/-- 1 TiB. -/
def maximum : UInt64 := 1099511627776

/-- The unit of the limit. -/
def quantum : UInt64 := 65536

end MemoryByteLimit

/-- A multiple of the quantum in its range. -/
@[ext] structure MemoryByteLimit where
  get : UInt64
  minimum_le : MemoryByteLimit.minimum ≤ get
  le_maximum : get ≤ MemoryByteLimit.maximum
  quantized : get % MemoryByteLimit.quantum = 0
deriving DecidableEq

/-- `MemoryByteLimit::new`. -/
def MemoryByteLimit.new (value : UInt64) : Except AuthorityError MemoryByteLimit :=
  if hminimum : value < minimum then .error .memoryLimitBelowMinimum
  else if hmaximum : maximum < value then .error .memoryLimitAboveMaximum
  else if hquantum : value % quantum ≠ 0 then .error .memoryLimitNotQuantized
  else
    .ok ⟨value, UInt64.not_lt.mp hminimum, UInt64.not_lt.mp hmaximum, not_not.mp hquantum⟩

theorem MemoryByteLimit.new_eq_ok {value : UInt64} {limit : MemoryByteLimit} :
    MemoryByteLimit.new value = .ok limit ↔ limit.get = value := by
  rw [MemoryByteLimit.new]
  simp only [dite_error_eq_ok, Except.ok.injEq]
  constructor
  · rintro ⟨_, _, _, rfl⟩
    rfl
  · rintro rfl
    exact ⟨UInt64.not_lt.mpr limit.minimum_le, UInt64.not_lt.mpr limit.le_maximum,
      not_not.mpr limit.quantized, rfl⟩

namespace SwapByteLimit

/-- 1 TiB. -/
def maximum : UInt64 := 1099511627776

/-- The unit of the limit. -/
def quantum : UInt64 := 65536

end SwapByteLimit

/-- A multiple of the quantum. -/
@[ext] structure SwapByteLimit where
  get : UInt64
  le_maximum : get ≤ SwapByteLimit.maximum
  quantized : get % SwapByteLimit.quantum = 0
deriving DecidableEq

/-- `SwapByteLimit::new`. -/
def SwapByteLimit.new (value : UInt64) : Except AuthorityError SwapByteLimit :=
  if hmaximum : maximum < value then .error .swapLimitAboveMaximum
  else if hquantum : value % quantum ≠ 0 then .error .swapLimitNotQuantized
  else .ok ⟨value, UInt64.not_lt.mp hmaximum, not_not.mp hquantum⟩

theorem SwapByteLimit.new_eq_ok {value : UInt64} {limit : SwapByteLimit} :
    SwapByteLimit.new value = .ok limit ↔ limit.get = value := by
  rw [SwapByteLimit.new]
  simp only [dite_error_eq_ok, Except.ok.injEq]
  constructor
  · rintro ⟨_, _, rfl⟩
    rfl
  · rintro rfl
    exact ⟨UInt64.not_lt.mpr limit.le_maximum, not_not.mpr limit.quantized, rfl⟩

/-- The limits of one execution.  A version 1 plan has no bound on memory and
swap. -/
structure ResourceLimits where
  processes : ProcessLimit
  wallTime : WallTimeLimit
  stdout : OutputByteLimit
  stderr : OutputByteLimit
  memory : Option MemoryByteLimit
  swap : Option SwapByteLimit
deriving DecidableEq

/-- The limits of version 1. -/
def ResourceLimits.new (processes : ProcessLimit) (wallTime : WallTimeLimit)
    (stdout stderr : OutputByteLimit) : ResourceLimits :=
  ⟨processes, wallTime, stdout, stderr, none, none⟩

/-- The limits of version 2. -/
def ResourceLimits.newV2 (processes : ProcessLimit) (wallTime : WallTimeLimit)
    (stdout stderr : OutputByteLimit) (memory : MemoryByteLimit) (swap : SwapByteLimit) :
    ResourceLimits :=
  ⟨processes, wallTime, stdout, stderr, some memory, some swap⟩

/-- Memory and swap have limits. -/
def ResourceLimits.isVersionTwo (limits : ResourceLimits) : Bool :=
  limits.memory.isSome && limits.swap.isSome

/-! ## The authority of a plan -/

/-- The network is denied. -/
inductive NetworkMode where
  | deny
deriving DecidableEq

/-- What a plan asks for. -/
structure AuthorityPlan where
  paths : List PathAuthority
  environment : List EnvironmentName
  limits : ResourceLimits
  network : NetworkMode
deriving DecidableEq

/-- `AuthorityPlan::new`. -/
def AuthorityPlan.new (paths : List PathAuthority) (environment : List EnvironmentName)
    (limits : ResourceLimits) : AuthorityPlan :=
  ⟨paths, environment, limits, .deny⟩

end ProofboundRuntime.Core
