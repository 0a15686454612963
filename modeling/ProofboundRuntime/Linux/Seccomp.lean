import ProofboundRuntime.Lib.LittleEndian
import ProofboundRuntime.Core.Receipt

/-!
# The deny-network filter

The classic-BPF program of the version 1 seccomp profile (`seccomp.rs`).  The
numbers of the denied system calls come from the C library of the target, so
they are a parameter here: `numbers` is the array that `denied_syscalls` sorts.
-/

namespace ProofboundRuntime.Linux

open ProofboundRuntime.Core Result

/-- `BPF_LOAD_WORD_ABSOLUTE`. -/
def bpfLoadWordAbsolute : UInt16 := 0x20

/-- `BPF_JUMP_EQUAL_CONSTANT`. -/
def bpfJumpEqualConstant : UInt16 := 0x15

/-- `BPF_JUMP_GREATER_OR_EQUAL_CONSTANT`. -/
def bpfJumpGreaterOrEqualConstant : UInt16 := 0x35

/-- `BPF_RETURN_CONSTANT`. -/
def bpfReturnConstant : UInt16 := 0x06

/-- `SECCOMP_DATA_NUMBER_OFFSET`. -/
def seccompDataNumberOffset : UInt32 := 0

/-- `SECCOMP_DATA_ARCH_OFFSET`. -/
def seccompDataArchOffset : UInt32 := 4

/-- `SECCOMP_RETURN_KILL_PROCESS`. -/
def seccompReturnKillProcess : UInt32 := 0x80000000

/-- `SECCOMP_RETURN_ERRNO`. -/
def seccompReturnErrno : UInt32 := 0x00050000

/-- `SECCOMP_RETURN_ALLOW`. -/
def seccompReturnAllow : UInt32 := 0x7fff0000

/-- `ERRNO_PERMISSION`. -/
def errnoPermission : UInt32 := 1

/-- `AUDIT_ARCH_X86_64` and `AUDIT_ARCH_AARCH64`. -/
def auditArchitecture : Architecture → UInt32
  | .x86_64 => 0xc000003e
  | .aarch64 => 0xc00000b7

/-- `X32_SYSCALL_BIT`. -/
def x32SyscallBit : UInt32 := 0x40000000

structure BpfInstruction where
  code : UInt16
  jumpTrue : UInt8
  jumpFalse : UInt8
  value : UInt32
deriving DecidableEq

inductive SeccompError where
  | unsupportedOperatingSystem
  | filterInvalid
  | installationFailed
  | verificationFailed
deriving DecidableEq

/-- `denied_syscalls`: sorted, without repetitions. -/
def deniedSyscalls (numbers : List UInt32) : List UInt32 :=
  (Sorting.sortBy compare numbers).destutter (· ≠ ·)

/-- The instructions that `build_filter` starts with. -/
def architectureCheck (architecture : Architecture) : List BpfInstruction := [
  ⟨bpfLoadWordAbsolute, 0, 0, seccompDataArchOffset⟩,
  ⟨bpfJumpEqualConstant, 1, 0, auditArchitecture architecture⟩,
  ⟨bpfReturnConstant, 0, 0, seccompReturnKillProcess⟩,
  ⟨bpfLoadWordAbsolute, 0, 0, seccompDataNumberOffset⟩]

/-- The instructions against x32 numbers, on x86-64 only. -/
def x32Check (architecture : Architecture) : List BpfInstruction :=
  if architecture = .x86_64 then [
    ⟨bpfJumpGreaterOrEqualConstant, 0, 1, x32SyscallBit⟩,
    ⟨bpfReturnConstant, 0, 0, seccompReturnKillProcess⟩]
  else []

/-- The loop of `build_filter`. -/
def denials (deniedSyscalls : List UInt32) : List BpfInstruction :=
  deniedSyscalls.flatMap fun syscall => [
    ⟨bpfJumpEqualConstant, 0, 1, syscall⟩,
    ⟨bpfReturnConstant, 0, 0, seccompReturnErrno ||| errnoPermission⟩]

/-- `build_filter`. -/
def buildFilter (architecture : Architecture) (deniedSyscalls : List UInt32) :
    Except SeccompError (List BpfInstruction) := do
  rejectIf (deniedSyscalls = [] ∨ Sorting.windowsAny (fun a b => b ≤ a) deniedSyscalls = true)
    .filterInvalid
  let filter := architectureCheck architecture ++ x32Check architecture ++
    denials deniedSyscalls ++ [⟨bpfReturnConstant, 0, 0, seccompReturnAllow⟩]
  rejectIf (0xffff < filter.length) .filterInvalid
  pure filter

/-- One turn of the loop of `encode_filter`. -/
def encodeInstruction (instruction : BpfInstruction) : List UInt8 :=
  LittleEndian.toBytes 2 instruction.code.toNat ++ [instruction.jumpTrue, instruction.jumpFalse] ++
    LittleEndian.toBytes 4 instruction.value.toNat

/-- `encode_filter`. -/
def encodeFilter (filter : List BpfInstruction) : List UInt8 := filter.flatMap encodeInstruction

/-- `compile_deny_network_program`. -/
def compileDenyNetworkProgram (numbers : List UInt32) (architecture : Architecture) :
    Except SeccompError (List UInt8) := do
  let filter ← buildFilter architecture (deniedSyscalls numbers)
  pure (encodeFilter filter)

end ProofboundRuntime.Linux
