import ProofboundRuntime.Lib.SelfDelimiting
import ProofboundRuntime.Linux.Seccomp

/-!
# The meaning of the deny-network filter

`evaluateFrom` runs a classic-BPF program on one system call: the loads read the
audit architecture and the number, and a jump is relative to the instruction
after it.  Running off the end and an unknown instruction give no result.

The program has three parts, and each has its lemma: the architecture check, the
check for x32 numbers and the denials, which are an induction over the list.
-/

namespace ProofboundRuntime.Linux

open ProofboundRuntime.Core Result

/-! ## The machine -/

/-- `evaluate` from a program counter and an accumulator. -/
def evaluateFrom (filter : List BpfInstruction) (architecture syscall : UInt32) :
    (fuel programCounter : Nat) → (accumulator : UInt32) → Option UInt32
  | 0, _, _ => none
  | fuel + 1, programCounter, accumulator =>
    match filter[programCounter]? with
    | none => none
    | some instruction =>
      if instruction.code = bpfLoadWordAbsolute then
        if instruction.value = seccompDataNumberOffset then
          evaluateFrom filter architecture syscall fuel (programCounter + 1) syscall
        else if instruction.value = seccompDataArchOffset then
          evaluateFrom filter architecture syscall fuel (programCounter + 1) architecture
        else none
      else if instruction.code = bpfJumpEqualConstant then
        let jump :=
          if accumulator = instruction.value then instruction.jumpTrue else instruction.jumpFalse
        evaluateFrom filter architecture syscall fuel (programCounter + jump.toNat + 1) accumulator
      else if instruction.code = bpfJumpGreaterOrEqualConstant then
        let jump :=
          if instruction.value ≤ accumulator then instruction.jumpTrue else instruction.jumpFalse
        evaluateFrom filter architecture syscall fuel (programCounter + jump.toNat + 1) accumulator
      else if instruction.code = bpfReturnConstant then some instruction.value
      else none

/-- `evaluate`.  Every step moves forward, so the length of the program is enough
fuel: there is no result only when the program is left or has an unknown
instruction. -/
def evaluate (filter : List BpfInstruction) (architecture syscall : UInt32) : Option UInt32 :=
  evaluateFrom filter architecture syscall filter.length 0 0

/-- What the filter is for. -/
def verdict (architecture : Architecture) (deniedSyscalls : List UInt32)
    (audit syscall : UInt32) : UInt32 :=
  if audit ≠ auditArchitecture architecture then seccompReturnKillProcess
  else if architecture = .x86_64 ∧ x32SyscallBit ≤ syscall then seccompReturnKillProcess
  else if syscall ∈ deniedSyscalls then seccompReturnErrno ||| errnoPermission
  else seccompReturnAllow

/-! ## One instruction -/

section Instruction

variable {filter rest : List BpfInstruction} {audit syscall accumulator : UInt32}
  {fuel programCounter : Nat}

theorem getElem?_of_drop {i : BpfInstruction} (h : filter.drop programCounter = i :: rest) :
    filter[programCounter]? = some i := by
  rw [← List.head?_drop, h, List.head?_cons]

theorem drop_add_of_drop (first : List BpfInstruction)
    (h : filter.drop programCounter = first ++ rest) :
    filter.drop (programCounter + first.length) = rest := by
  rw [← List.drop_drop, h, List.drop_left]

variable {jumpTrue jumpFalse : UInt8}

theorem evaluateFrom_loadNumber
    (h : filter.drop programCounter =
      ⟨bpfLoadWordAbsolute, jumpTrue, jumpFalse, seccompDataNumberOffset⟩ :: rest) :
    evaluateFrom filter audit syscall (fuel + 1) programCounter accumulator =
      evaluateFrom filter audit syscall fuel (programCounter + 1) syscall := by
  simp [evaluateFrom, getElem?_of_drop h]

theorem evaluateFrom_loadArch
    (h : filter.drop programCounter =
      ⟨bpfLoadWordAbsolute, jumpTrue, jumpFalse, seccompDataArchOffset⟩ :: rest) :
    evaluateFrom filter audit syscall (fuel + 1) programCounter accumulator =
      evaluateFrom filter audit syscall fuel (programCounter + 1) audit := by
  have hoffset : seccompDataArchOffset ≠ seccompDataNumberOffset := by decide
  simp [evaluateFrom, getElem?_of_drop h, hoffset]

variable {value : UInt32}

theorem evaluateFrom_jumpEqual
    (h : filter.drop programCounter = ⟨bpfJumpEqualConstant, jumpTrue, jumpFalse, value⟩ :: rest) :
    evaluateFrom filter audit syscall (fuel + 1) programCounter accumulator =
      evaluateFrom filter audit syscall fuel
        (programCounter + (if accumulator = value then jumpTrue else jumpFalse).toNat + 1)
        accumulator := by
  have hcode : bpfJumpEqualConstant ≠ bpfLoadWordAbsolute := by decide
  simp [evaluateFrom, getElem?_of_drop h, hcode]

theorem evaluateFrom_jumpGreaterOrEqual
    (h : filter.drop programCounter =
      ⟨bpfJumpGreaterOrEqualConstant, jumpTrue, jumpFalse, value⟩ :: rest) :
    evaluateFrom filter audit syscall (fuel + 1) programCounter accumulator =
      evaluateFrom filter audit syscall fuel
        (programCounter + (if value ≤ accumulator then jumpTrue else jumpFalse).toNat + 1)
        accumulator := by
  have hload : bpfJumpGreaterOrEqualConstant ≠ bpfLoadWordAbsolute := by decide
  have hequal : bpfJumpGreaterOrEqualConstant ≠ bpfJumpEqualConstant := by decide
  simp [evaluateFrom, getElem?_of_drop h, hload, hequal]

theorem evaluateFrom_return
    (h : filter.drop programCounter = ⟨bpfReturnConstant, jumpTrue, jumpFalse, value⟩ :: rest) :
    evaluateFrom filter audit syscall (fuel + 1) programCounter accumulator = some value := by
  have hload : bpfReturnConstant ≠ bpfLoadWordAbsolute := by decide
  have hequal : bpfReturnConstant ≠ bpfJumpEqualConstant := by decide
  have hgreater : bpfReturnConstant ≠ bpfJumpGreaterOrEqualConstant := by decide
  simp [evaluateFrom, getElem?_of_drop h, hload, hequal, hgreater]

end Instruction

/-! ## The parts of the filter -/

section Parts

variable {filter rest : List BpfInstruction} {audit syscall accumulator : UInt32}
  {fuel programCounter : Nat}

/-- The denials, with the number in the accumulator. -/
theorem evaluateFrom_denials {deniedSyscalls : List UInt32}
    (h : filter.drop programCounter =
      denials deniedSyscalls ++ [⟨bpfReturnConstant, 0, 0, seccompReturnAllow⟩])
    (hfuel : 2 * deniedSyscalls.length < fuel) :
    evaluateFrom filter audit syscall fuel programCounter syscall =
      some (if syscall ∈ deniedSyscalls then seccompReturnErrno ||| errnoPermission
        else seccompReturnAllow) := by
  induction deniedSyscalls generalizing fuel programCounter with
  | nil =>
    obtain ⟨fuel, rfl⟩ : ∃ n, fuel = n + 1 := ⟨fuel - 1, by omega⟩
    exact evaluateFrom_return h
  | cons denied deniedSyscalls ih =>
    rw [List.length_cons] at hfuel
    obtain ⟨fuel, rfl⟩ : ∃ n, fuel = n + 2 := ⟨fuel - 2, by omega⟩
    have hjump : filter.drop programCounter = [⟨bpfJumpEqualConstant, 0, 1, denied⟩] ++
        (⟨bpfReturnConstant, 0, 0, seccompReturnErrno ||| errnoPermission⟩ ::
          (denials deniedSyscalls ++ [⟨bpfReturnConstant, 0, 0, seccompReturnAllow⟩])) := h
    rw [evaluateFrom_jumpEqual hjump]
    by_cases heq : syscall = denied
    · -- The jump of length zero reaches the return of the denial.
      have hmem : syscall ∈ denied :: deniedSyscalls := by rw [heq]; exact List.mem_cons_self
      rw [if_pos heq, if_pos hmem]
      exact evaluateFrom_return (drop_add_of_drop [⟨bpfJumpEqualConstant, 0, 1, denied⟩] h)
    · have hmem : syscall ∈ denied :: deniedSyscalls ↔ syscall ∈ deniedSyscalls := by
        rw [List.mem_cons, or_iff_right heq]
      have hrest : filter.drop (programCounter + 2) =
          denials deniedSyscalls ++ [⟨bpfReturnConstant, 0, 0, seccompReturnAllow⟩] :=
        drop_add_of_drop [⟨bpfJumpEqualConstant, 0, 1, denied⟩,
          ⟨bpfReturnConstant, 0, 0, seccompReturnErrno ||| errnoPermission⟩] h
      rw [if_neg heq]
      simp only [hmem]
      exact ih hrest (by omega)

/-- The check for x32 numbers, with the number in the accumulator. -/
theorem evaluateFrom_x32Check {architecture : Architecture} {result : UInt32}
    (h : filter.drop programCounter = x32Check architecture ++ rest)
    (hrest : ∀ fuel, rest.length ≤ fuel → ∀ programCounter, filter.drop programCounter = rest →
      evaluateFrom filter audit syscall fuel programCounter syscall = some result)
    (hfuel : (x32Check architecture ++ rest).length ≤ fuel) :
    evaluateFrom filter audit syscall fuel programCounter syscall =
      some (if architecture = .x86_64 ∧ x32SyscallBit ≤ syscall then seccompReturnKillProcess
        else result) := by
  cases architecture with
  | aarch64 =>
    rw [if_neg (by simp)]
    exact hrest fuel hfuel programCounter h
  | x86_64 =>
    have hlength : rest.length + 2 ≤ fuel := by
      rwa [List.length_append, Nat.add_comm] at hfuel
    obtain ⟨fuel, rfl⟩ : ∃ n, fuel = n + 2 := ⟨fuel - 2, by omega⟩
    rw [evaluateFrom_jumpGreaterOrEqual h]
    by_cases hbit : x32SyscallBit ≤ syscall
    · rw [if_pos hbit, if_pos ⟨rfl, hbit⟩]
      exact evaluateFrom_return (drop_add_of_drop
        [⟨bpfJumpGreaterOrEqualConstant, 0, 1, x32SyscallBit⟩] h)
    · have hdrop : filter.drop (programCounter + 2) = rest :=
        drop_add_of_drop (x32Check .x86_64) h
      rw [if_neg hbit, if_neg (fun hboth => hbit hboth.2)]
      exact hrest (fuel + 1) (by omega) (programCounter + 2) hdrop

/-- The check of the architecture, and the number loaded after it. -/
theorem evaluate_architectureCheck {architecture : Architecture} {result : UInt32}
    (hrest : ∀ fuel, rest.length ≤ fuel → ∀ programCounter,
      (architectureCheck architecture ++ rest).drop programCounter = rest →
      evaluateFrom (architectureCheck architecture ++ rest) audit syscall fuel programCounter
        syscall = some result) :
    evaluate (architectureCheck architecture ++ rest) audit syscall =
      some (if audit ≠ auditArchitecture architecture then seccompReturnKillProcess
        else result) := by
  have hstart : (architectureCheck architecture ++ rest).drop 0 =
      architectureCheck architecture ++ rest := rfl
  have hlength : (architectureCheck architecture ++ rest).length = rest.length + 4 := by
    simp [architectureCheck]
  rw [evaluate, hlength, evaluateFrom_loadArch hstart]
  have hjump := drop_add_of_drop [⟨bpfLoadWordAbsolute, 0, 0, seccompDataArchOffset⟩] hstart
  rw [show 0 + 1 = 0 + [(⟨bpfLoadWordAbsolute, 0, 0, seccompDataArchOffset⟩ :
    BpfInstruction)].length from rfl, evaluateFrom_jumpEqual hjump]
  by_cases haudit : audit = auditArchitecture architecture
  · rw [if_pos haudit, if_neg (not_not.mpr haudit)]
    have hload := drop_add_of_drop [⟨bpfLoadWordAbsolute, 0, 0, seccompDataArchOffset⟩,
      ⟨bpfJumpEqualConstant, 1, 0, auditArchitecture architecture⟩,
      ⟨bpfReturnConstant, 0, 0, seccompReturnKillProcess⟩] hstart
    exact (evaluateFrom_loadNumber hload).trans (hrest (rest.length + 1) (by omega) 4 rfl)
  · rw [if_neg haudit, if_pos haudit]
    exact evaluateFrom_return (drop_add_of_drop
      [⟨bpfLoadWordAbsolute, 0, 0, seccompDataArchOffset⟩,
        ⟨bpfJumpEqualConstant, 1, 0, auditArchitecture architecture⟩] hstart)

theorem length_denials (deniedSyscalls : List UInt32) :
    (denials deniedSyscalls).length = 2 * deniedSyscalls.length := by
  induction deniedSyscalls with
  | nil => rfl
  | cons denied deniedSyscalls ih =>
    rw [List.length_cons, denials, List.flatMap_cons, List.length_append]
    have hpair : (denials deniedSyscalls).length + 2 = 2 * (deniedSyscalls.length + 1) := by omega
    rw [← hpair, Nat.add_comm]
    rfl

end Parts

/-- An accepted list gives the filter with its verdict on every call. -/
theorem evaluate_of_buildFilter {architecture : Architecture} {deniedSyscalls : List UInt32}
    {filter : List BpfInstruction} (h : buildFilter architecture deniedSyscalls = .ok filter)
    (audit syscall : UInt32) :
    evaluate filter audit syscall =
      some (verdict architecture deniedSyscalls audit syscall) := by
  simp only [buildFilter, bind_eq_ok, rejectIf_eq_ok, pure_eq_ok, exists_const] at h
  obtain ⟨-, -, rfl⟩ := h
  rw [List.append_assoc, List.append_assoc]
  refine evaluate_architectureCheck fun fuel hfuel programCounter hdrop => ?_
  refine evaluateFrom_x32Check hdrop (fun fuel hfuel programCounter hdrop => ?_) hfuel
  refine evaluateFrom_denials hdrop ?_
  rwa [List.length_append, length_denials] at hfuel

/-! ## The bytes of a filter -/

theorem encodeInstruction_injective : Function.Injective encodeInstruction := by
  intro i j h
  obtain ⟨hfirst, hvalue⟩ := List.append_inj h (by simp)
  obtain ⟨hcode, hjumps⟩ := List.append_inj hfirst (by simp)
  rw [List.cons.injEq, List.cons.injEq] at hjumps
  obtain ⟨code, jumpTrue, jumpFalse, value⟩ := i
  obtain ⟨code', jumpTrue', jumpFalse', value'⟩ := j
  rw [BpfInstruction.mk.injEq]
  refine ⟨UInt16.toNat.inj ?_, hjumps.1, hjumps.2.1, UInt32.toNat.inj ?_⟩
  · exact LittleEndian.toBytes_inj code.toNat_lt code'.toNat_lt hcode
  · exact LittleEndian.toBytes_inj value.toNat_lt value'.toNat_lt hvalue

theorem length_encodeInstruction (instruction : BpfInstruction) :
    (encodeInstruction instruction).length = 8 := by
  simp [encodeInstruction]

theorem encodeFilter_injective : Function.Injective encodeFilter := by
  intro filter filter' h
  have hdelimiting : SelfDelimiting (fun _ => True) encodeInstruction :=
    .of_length length_encodeInstruction encodeInstruction_injective
  refine hdelimiting.flatMap_inj (fun instruction hnil => ?_) (by simp) (by simp) h
  exact absurd (length_encodeInstruction instruction) (by simp [hnil])

/-- An accepted list gives a program that ends with its verdict on every call,
and a program is known from its bytes. -/
theorem denyNetworkFilter_meaning :
    (∀ (architecture : Architecture) (deniedSyscalls : List UInt32)
      (filter : List BpfInstruction), buildFilter architecture deniedSyscalls = .ok filter →
      ∀ audit syscall : UInt32, evaluate filter audit syscall =
        some (verdict architecture deniedSyscalls audit syscall)) ∧
    Function.Injective encodeFilter :=
  ⟨fun _ _ _ h => evaluate_of_buildFilter h, encodeFilter_injective⟩

theorem denyNetworkFilter_meaning_sample :
    ∃ filter, buildFilter .x86_64 [41, 42, 43] = .ok filter ∧
      evaluate filter 0xc000003e 42 = some (verdict .x86_64 [41, 42, 43] 0xc000003e 42) :=
  ⟨_, rfl, denyNetworkFilter_meaning.1 .x86_64 [41, 42, 43] _ rfl 0xc000003e 42⟩

end ProofboundRuntime.Linux
