import ProofboundRuntime.Lib.Dedup
import ProofboundRuntime.Lib.Result

/-!
# Closing descriptors

`close_descriptors_except` and `inherit_only_descriptors_for_exec` of `sys.rs`.  Both check
their lists and then make calls on the descriptors of the process; the calls are those of
`Call`, with their documented effect on a table of descriptors.  The ranges that are closed are
the gaps between the descriptors that are kept (`closes_gaps`).
-/

namespace ProofboundRuntime.Linux.Descriptors

open Result Sorting

/-- `RawFd`. -/
abbrev RawFd := Int32

/-- `u32::MAX`. -/
def maxDescriptor : Nat := 2 ^ 32 - 1

/-- `io::ErrorKind::InvalidInput`. -/
inductive InputError where
  | invalidInput
deriving DecidableEq

inductive Call where
  /-- `close_range` without flags. -/
  | closeRange (first last : Nat)
  /-- `fcntl` with `F_SETFD` and no flags, or with `FD_CLOEXEC`. -/
  | setCloseOnExec (descriptor : Nat) (value : Bool)
deriving DecidableEq

/-- The calls that are made, as long as they succeed, and what is returned after them. -/
structure Attempt where
  calls : List Call
  result : Except InputError Unit
deriving DecidableEq

/-- A check that fails before any call. -/
def Attempt.rejected : Attempt := ⟨[], .error .invalidInput⟩

/-- A descriptor that is not negative. -/
def number (descriptor : RawFd) : Nat := descriptor.toInt.toNat

/-- `u32::try_from`. -/
def toU32 (descriptor : RawFd) : Except InputError Nat :=
  if descriptor.toInt < 0 then .error .invalidInput else .ok (number descriptor)

/-- The loop over the descriptors that are kept, and the range after the last one. -/
def closeBetween : (first : Nat) → List Nat → Attempt
  | first, [] => ⟨[.closeRange first maxDescriptor], .ok ()⟩
  | first, descriptor :: rest =>
    let before := if first < descriptor then [.closeRange first (descriptor - 1)] else []
    if descriptor < maxDescriptor then
      let attempt := closeBetween (descriptor + 1) rest
      ⟨before ++ attempt.calls, attempt.result⟩
    else ⟨before, .error .invalidInput⟩

def closeDescriptorsExcept (keep : List RawFd) : Attempt :=
  match collect toU32 keep with
  | .error _ => .rejected
  | .ok keep =>
    let keep := dedupBy (· == ·) (sortBy compare keep)
    if (keep.any fun descriptor => decide (descriptor < 3)) = true then .rejected
    else closeBetween 3 keep

/-- The closure of `inherit_only_descriptors_for_exec`, on descriptors that were checked. -/
def beforeExec (retained inherited transient : List RawFd) : Attempt :=
  match collect toU32 retained with
  | .error _ => .rejected
  | .ok retained =>
    let closing := closeBetween 3 retained
    match closing.result with
    | .error _ => closing
    | .ok () =>
      ⟨closing.calls ++
        (inherited.map fun descriptor => .setCloseOnExec (number descriptor) false) ++
        (transient.map fun descriptor => .setCloseOnExec (number descriptor) true), .ok ()⟩

/-- The order of `RawFd`. -/
def fdCmp : RawFd → RawFd → Ordering := compareOn Int32.toInt

instance : Std.TransCmp fdCmp := inferInstanceAs (Std.TransCmp (compareOn Int32.toInt))

instance : Std.LawfulEqCmp fdCmp where
  eq_of_compare h := Int32.toInt_inj.mp (Std.LawfulEqCmp.eq_of_compare h)

/-- `sort_unstable` of descriptors. -/
def sortFds (descriptors : List RawFd) : List RawFd := sortBy fdCmp descriptors

/-- Returns the closure that runs before the exec. -/
def inheritOnlyDescriptorsForExec (inherited transient : List RawFd) :
    Except InputError Attempt := do
  let inherited := sortFds inherited
  rejectIf (windowsAny (· == ·) inherited = true) .invalidInput
  let retained := sortFds (inherited ++ transient)
  rejectIf (windowsAny (· == ·) retained = true ∨
    (retained.any fun descriptor => decide (descriptor.toInt < 3)) = true) .invalidInput
  pure (beforeExec retained inherited transient)

/-! ## The calls -/

/-- The open descriptors, each with its close-on-exec flag. -/
abbrev Table := Nat → Option Bool

/-- The documented effect of a call; none is a failure. -/
def Call.run (table : Table) : Call → Option Table
  | .closeRange first last =>
    if first ≤ last then some fun n => if first ≤ n ∧ n ≤ last then none else table n else none
  | .setCloseOnExec descriptor value =>
    if (table descriptor).isSome then some (Function.update table descriptor (some value))
    else none

/-- The calls in turn, up to the first that fails. -/
def runCalls (table : Table) (calls : List Call) : Option Table := calls.foldlM Call.run table

/-! ## The gaps -/

/-- The ranges are increasing, each one below the next, and are what is left out of the
descriptors from the first one on. -/
structure Gaps (first : Nat) (kept : List Nat) (ranges : List (Nat × Nat)) : Prop where
  increasing : ranges.Pairwise fun range next => range.2 < next.1
  bounds : ∀ range ∈ ranges, first ≤ range.1 ∧ range.1 ≤ range.2 ∧ range.2 ≤ maxDescriptor
  covers : ∀ n, (∃ range ∈ ranges, range.1 ≤ n ∧ n ≤ range.2) ↔
    first ≤ n ∧ n ≤ maxDescriptor ∧ n ∉ kept

def closeRanges (ranges : List (Nat × Nat)) : List Call :=
  ranges.map fun range => .closeRange range.1 range.2

variable {first descriptor : Nat} {kept : List Nat} {ranges : List (Nat × Nat)}

theorem gaps_nil (hfirst : first ≤ maxDescriptor) : Gaps first [] [(first, maxDescriptor)] := by
  refine ⟨List.pairwise_singleton _ _, ?_, fun n => ?_⟩
  · intro range hrange
    rw [List.mem_singleton.mp hrange]
    exact ⟨Nat.le_refl _, hfirst, Nat.le_refl _⟩
  · simp

/-- No gap before a descriptor that comes first. -/
theorem Gaps.cons_self (h : Gaps (first + 1) kept ranges) :
    Gaps first (first :: kept) ranges := by
  refine ⟨h.increasing, ?_, fun n => ?_⟩
  · intro range hrange
    have hbounds := h.bounds range hrange
    omega
  · rw [h.covers, List.mem_cons, not_or]
    constructor
    · intro ⟨hfirst, hmax, hnot⟩
      exact ⟨by omega, hmax, by omega, hnot⟩
    · intro ⟨hfirst, hmax, hne, hnot⟩
      exact ⟨by omega, hmax, hnot⟩

/-- The gap before a descriptor. -/
theorem Gaps.cons_lt (hlt : first < descriptor) (hmax : descriptor ≤ maxDescriptor)
    (hkept : ∀ n ∈ kept, descriptor < n) (h : Gaps (descriptor + 1) kept ranges) :
    Gaps first (descriptor :: kept) ((first, descriptor - 1) :: ranges) := by
  refine ⟨List.pairwise_cons.mpr ⟨?_, h.increasing⟩, ?_, fun n => ?_⟩
  · intro range hrange
    have hbounds := h.bounds range hrange
    show descriptor - 1 < range.1
    omega
  · intro range hrange
    rcases List.mem_cons.mp hrange with rfl | hrange
    · show first ≤ first ∧ first ≤ descriptor - 1 ∧ descriptor - 1 ≤ maxDescriptor
      omega
    · have hbounds := h.bounds range hrange
      omega
  · rw [List.exists_mem_cons_iff, h.covers, List.mem_cons, not_or]
    show first ≤ n ∧ n ≤ descriptor - 1 ∨ _ ↔ _
    constructor
    · intro hcovered
      rcases hcovered with hbefore | ⟨hafter, hmax, hnot⟩
      · refine ⟨hbefore.1, by omega, by omega, fun hmem => ?_⟩
        have := hkept n hmem
        omega
      · exact ⟨by omega, hmax, by omega, hnot⟩
    · intro ⟨hfirst, hmax, hne, hnot⟩
      by_cases hbefore : n < descriptor
      · exact .inl ⟨hfirst, by omega⟩
      · exact .inr ⟨by omega, hmax, hnot⟩

/-- The loop closes the gaps between the descriptors of an increasing list. -/
theorem closes_gaps (hfirst : first ≤ maxDescriptor) (hkept : kept.Pairwise (· < ·))
    (hbounds : ∀ n ∈ kept, first ≤ n ∧ n < maxDescriptor) :
    ∃ ranges, closeBetween first kept = ⟨closeRanges ranges, .ok ()⟩ ∧ Gaps first kept ranges := by
  induction kept generalizing first with
  | nil => exact ⟨_, rfl, gaps_nil hfirst⟩
  | cons descriptor kept ih =>
    rw [List.pairwise_cons] at hkept
    rw [List.forall_mem_cons] at hbounds
    obtain ⟨⟨hle, hmax⟩, hrest⟩ := hbounds
    have hnext : ∀ n ∈ kept, descriptor + 1 ≤ n ∧ n < maxDescriptor := fun n hn =>
      ⟨hkept.1 n hn, (hrest n hn).2⟩
    obtain ⟨ranges, hclose, hgaps⟩ := ih hmax hkept.2 hnext
    rw [closeBetween]
    dsimp only
    rw [if_pos hmax, hclose]
    by_cases hlt : first < descriptor
    · rw [if_pos hlt]
      exact ⟨(first, descriptor - 1) :: ranges, rfl, hgaps.cons_lt hlt hmax.le hkept.1⟩
    · have heq : first = descriptor := by omega
      subst heq
      rw [if_neg hlt]
      exact ⟨ranges, rfl, hgaps.cons_self⟩

/-- What is left of a table after the ranges are closed. -/
def closed (ranges : List (Nat × Nat)) (table : Table) : Table := fun n =>
  if ∃ range ∈ ranges, range.1 ≤ n ∧ n ≤ range.2 then none else table n

theorem runCalls_closeRanges (hranges : ∀ range ∈ ranges, range.1 ≤ range.2) (table : Table) :
    runCalls table (closeRanges ranges) = some (closed ranges table) := by
  induction ranges generalizing table with
  | nil =>
    refine congrArg some (funext fun n => ?_)
    simp [closed]
  | cons range ranges ih =>
    rw [List.forall_mem_cons] at hranges
    rw [closeRanges, List.map_cons, runCalls, List.foldlM_cons, Call.run, if_pos hranges.1]
    refine (ih hranges.2 _).trans (congrArg some (funext fun n => ?_))
    rw [closed, closed]
    simp only [List.exists_mem_cons_iff]
    by_cases hrange : range.1 ≤ n ∧ n ≤ range.2
    · simp only [hrange, and_self, true_or, if_true, ite_self]
    · simp only [hrange, false_or, if_false]

/-! ## The flags -/

def setCloseOnExecs (value : Bool) (descriptors : List Nat) : List Call :=
  descriptors.map fun descriptor => .setCloseOnExec descriptor value

/-- A table in which the flag of some descriptors has a value. -/
def flagged (value : Bool) (descriptors : List Nat) (table : Table) : Table := fun n =>
  if n ∈ descriptors then some value else table n

variable {descriptors : List Nat} {value : Bool}

theorem isSome_flagged {table : Table} {n : Nat} :
    (flagged value descriptors table n).isSome ↔ n ∈ descriptors ∨ (table n).isSome := by
  rw [flagged]
  by_cases hn : n ∈ descriptors <;> simp [hn]

theorem flagged_cons {table : Table} :
    flagged value descriptors (Function.update table descriptor (some value)) =
      flagged value (descriptor :: descriptors) table := by
  funext n
  rw [flagged, flagged]
  by_cases hn : n = descriptor
  · subst hn
    simp
  · rw [Function.update_of_ne hn]
    simp [hn]

variable {table table' : Table}

/-- The flags are set as long as the descriptors are open. -/
theorem runCalls_setCloseOnExecs :
    runCalls table (setCloseOnExecs value descriptors) = some table' ↔
      (∀ n ∈ descriptors, (table n).isSome) ∧ table' = flagged value descriptors table := by
  induction descriptors generalizing table with
  | nil =>
    show some table = some table' ↔ _
    have hnone : flagged value [] table = table := funext fun n => if_neg List.not_mem_nil
    rw [hnone, Option.some_inj, eq_comm]
    simp
  | cons descriptor descriptors ih =>
    rw [setCloseOnExecs, List.map_cons, runCalls, List.foldlM_cons, Call.run,
      List.forall_mem_cons]
    by_cases hopen : (table descriptor).isSome
    · rw [if_pos hopen]
      refine ih.trans (and_congr ?_ (by rw [flagged_cons]))
      -- the flag of an open descriptor leaves it open
      have hupdate : ∀ n, (Function.update table descriptor (some value) n).isSome ↔
          (table n).isSome := by
        intro n
        by_cases hn : n = descriptor
        · subst hn
          simp [hopen]
        · rw [Function.update_of_ne hn]
      simp [hupdate, hopen]
    · rw [if_neg hopen]
      simp [hopen]

theorem runCalls_append {calls calls' : List Call} :
    runCalls table (calls ++ calls') = some table' ↔
      ∃ middle, runCalls table calls = some middle ∧ runCalls middle calls' = some table' := by
  rw [runCalls, List.foldlM_append]
  exact Option.bind_eq_some_iff

/-! ## The two functions -/

theorem number_lt (descriptor : RawFd) : number descriptor < maxDescriptor := by
  have hlt := descriptor.toInt_lt
  rw [number, maxDescriptor]
  omega

theorem toU32_eq_ok {descriptor : RawFd} {n : Nat} :
    toU32 descriptor = .ok n ↔ 0 ≤ descriptor.toInt ∧ number descriptor = n := by
  rw [toU32]
  by_cases h : descriptor.toInt < 0
  · simp [h]
  · simp [h, Int.not_lt.mp h]

theorem three_le_number {descriptor : RawFd} : 3 ≤ number descriptor ↔ 3 ≤ descriptor.toInt := by
  rw [number]
  omega

/-- A gap list does not depend on the order of what is kept. -/
theorem Gaps.congr {kept' : List Nat} (hmem : ∀ n, n ∈ kept ↔ n ∈ kept')
    (h : Gaps first kept ranges) : Gaps first kept' ranges :=
  ⟨h.increasing, h.bounds, fun n => by rw [h.covers, hmem]⟩

/-- A list with a member below 3 is rejected before any call. -/
theorem closeDescriptorsExcept_rejected {keep : List RawFd} (h : ¬ ∀ d ∈ keep, 3 ≤ d.toInt) :
    closeDescriptorsExcept keep = .rejected := by
  rw [closeDescriptorsExcept]
  cases hcollect : collect toU32 keep with
  | error => rfl
  | ok numbers =>
    obtain ⟨-, rfl⟩ := (collect_eq_ok_iff_map toU32_eq_ok).mp hcollect
    dsimp only
    rw [if_pos]
    rw [List.any_eq_true]
    push Not at h
    obtain ⟨d, hd, hlt⟩ := h
    refine ⟨number d, mem_dedupBy_sortBy.mpr (List.mem_map_of_mem hd), decide_eq_true ?_⟩
    rw [← Int.not_le, ← three_le_number] at hlt
    exact Nat.not_le.mp hlt

theorem closeDescriptorsExcept_closes {keep : List RawFd} (h : ∀ d ∈ keep, 3 ≤ d.toInt) :
    ∃ ranges, closeDescriptorsExcept keep = ⟨closeRanges ranges, .ok ()⟩ ∧
      Gaps 3 (keep.map number) ranges := by
  have hcollect : collect toU32 keep = .ok (keep.map number) :=
    (collect_eq_ok_iff_map toU32_eq_ok).mpr ⟨fun d hd => by have := h d hd; omega, rfl⟩
  have hnumbers : ∀ n ∈ keep.map number, 3 ≤ n ∧ n < maxDescriptor := by
    rw [List.forall_mem_map]
    exact fun d hd => ⟨three_le_number.mpr (h d hd), number_lt d⟩
  rw [closeDescriptorsExcept, hcollect]
  dsimp only
  rw [if_neg]
  · have hthree : 3 ≤ maxDescriptor := by decide
    have hstrict : Strict compare (dedupBy (· == ·) (sortBy compare (keep.map number))) :=
      strict_dedupBy_sortBy _
    have hincreasing := hstrict.imp fun hlt => Nat.compare_eq_lt.mp hlt
    obtain ⟨ranges, hclose, hgaps⟩ := closes_gaps hthree hincreasing
      fun n hn => hnumbers n (mem_dedupBy_sortBy.mp hn)
    exact ⟨ranges, hclose, hgaps.congr fun n => mem_dedupBy_sortBy⟩
  · rw [List.any_eq_true]
    rintro ⟨n, hn, hlt⟩
    have hle := (hnumbers n (mem_dedupBy_sortBy.mp hn)).1
    have := of_decide_eq_true hlt
    omega

theorem nodup_iff_windowsAny {descriptors : List RawFd} :
    ¬ windowsAny (· == ·) (sortFds descriptors) = true ↔ descriptors.Nodup := by
  have hne : ∀ a b : RawFd, (a == b) = false ↔ fdCmp a b ≠ .eq := by
    intro a b
    simp
  rw [Bool.not_eq_true, sortFds, windowsAny_sortBy hne]
  simp only [ne_eq, Std.LawfulEqCmp.compare_eq_iff_eq]
  exact Iff.rfl

variable {inherited transient : List RawFd}

theorem inheritOnlyDescriptorsForExec_eq_ok {attempt : Attempt} :
    inheritOnlyDescriptorsForExec inherited transient = .ok attempt ↔
      (inherited ++ transient).Nodup ∧ (∀ d ∈ inherited ++ transient, 3 ≤ d.toInt) ∧
        beforeExec (sortFds (sortFds inherited ++ transient)) (sortFds inherited) transient =
          attempt := by
  have hperm : (sortFds inherited ++ transient).Perm (inherited ++ transient) :=
    (sortBy_perm inherited).append_right transient
  have hsmall : ¬ ((sortFds (sortFds inherited ++ transient)).any
      fun d => decide (d.toInt < 3)) = true ↔ ∀ d ∈ inherited ++ transient, 3 ≤ d.toInt := by
    have hmem : ∀ d, d ∈ sortFds (sortFds inherited ++ transient) ↔ d ∈ inherited ++ transient :=
      fun d => mem_sortBy.trans hperm.mem_iff
    simp [hmem]
  rw [inheritOnlyDescriptorsForExec]
  dsimp only
  rw [check_bind_eq_ok, rejectIf_eq_ok, check_bind_eq_ok, rejectIf_eq_ok, not_or, hsmall,
    nodup_iff_windowsAny, nodup_iff_windowsAny, hperm.nodup_iff, pure_eq_ok]
  constructor
  · intro h
    exact ⟨h.2.1.1, h.2.1.2, h.2.2⟩
  · intro h
    exact ⟨(List.nodup_append.mp h.1).1, ⟨h.1, h.2.1⟩, h.2.2⟩

/-- On descriptors that are not negative, the order of `RawFd` is that of the numbers. -/
theorem increasing_map_number {descriptors : List RawFd} (hstrict : Strict fdCmp descriptors)
    (h : ∀ d ∈ descriptors, 3 ≤ d.toInt) : (descriptors.map number).Pairwise (· < ·) := by
  rw [List.pairwise_map]
  refine List.Pairwise.imp_of_mem ?_ hstrict
  intro a b ha hb hlt
  have hlt : a.toInt < b.toInt := compare_lt_iff_lt.mp hlt
  have := h a ha
  have := h b hb
  rw [number, number]
  omega

/-- What the closure does on descriptors that were checked. -/
theorem beforeExec_closes {retained : List RawFd} (hstrict : Strict fdCmp retained)
    (h : ∀ d ∈ retained, 3 ≤ d.toInt) (inherited transient : List RawFd) :
    ∃ ranges, beforeExec retained inherited transient =
        ⟨closeRanges ranges ++ setCloseOnExecs false (inherited.map number) ++
          setCloseOnExecs true (transient.map number), .ok ()⟩ ∧
      Gaps 3 (retained.map number) ranges := by
  have hcollect : collect toU32 retained = .ok (retained.map number) :=
    (collect_eq_ok_iff_map toU32_eq_ok).mpr ⟨fun d hd => by have := h d hd; omega, rfl⟩
  have hnumbers : ∀ n ∈ retained.map number, 3 ≤ n ∧ n < maxDescriptor := by
    rw [List.forall_mem_map]
    exact fun d hd => ⟨three_le_number.mpr (h d hd), number_lt d⟩
  have hthree : 3 ≤ maxDescriptor := by decide
  obtain ⟨ranges, hclose, hgaps⟩ := closes_gaps hthree (increasing_map_number hstrict h) hnumbers
  refine ⟨ranges, ?_, hgaps⟩
  rw [beforeExec, hcollect]
  simp only [hclose, setCloseOnExecs, List.map_map]
  rfl

/-! ## What is left open -/

/-- The table without the descriptors from 3 on that are not kept. -/
def keepOnly (kept : List Nat) (table : Table) : Table := fun n =>
  if 3 ≤ n ∧ n ≤ maxDescriptor ∧ n ∉ kept then none else table n

theorem Gaps.closed_eq (h : Gaps 3 kept ranges) (table : Table) :
    closed ranges table = keepOnly kept table := by
  funext n
  rw [closed, keepOnly]
  exact if_congr (h.covers n) rfl rfl

theorem Gaps.runCalls_eq (h : Gaps 3 kept ranges) (table : Table) :
    runCalls table (closeRanges ranges) = some (keepOnly kept table) := by
  rw [runCalls_closeRanges (fun range hrange => (h.bounds range hrange).2.1), h.closed_eq]

/-- From 3 on, the inherited descriptors are open and stay open after an exec, the transient
ones are open up to it, and no other one is open. -/
def inheritOnly (inherited transient : List Nat) (table : Table) : Table := fun n =>
  if n ∈ inherited then some false
  else if n ∈ transient then some true
  else if 3 ≤ n ∧ n ≤ maxDescriptor then none
  else table n

theorem flagged_flagged_keepOnly {inherited transient : List Nat}
    (hdisjoint : inherited.Disjoint transient) (hkept : ∀ n, n ∈ kept ↔ n ∈ inherited ++ transient)
    (table : Table) :
    flagged true transient (flagged false inherited (keepOnly kept table)) =
      inheritOnly inherited transient table := by
  funext n
  rw [flagged, flagged, keepOnly, inheritOnly]
  simp only [hkept, List.mem_append]
  by_cases hinherited : n ∈ inherited
  · have htransient : n ∉ transient := fun h => hdisjoint hinherited h
    simp [hinherited, htransient]
  · by_cases htransient : n ∈ transient
    · simp [hinherited, htransient]
    · simp [hinherited, htransient]

/-- The calls on a table that has the descriptors of both lists open. -/
theorem runCalls_inheritOnly {inherited transient : List Nat} (h : Gaps 3 kept ranges)
    (hdisjoint : inherited.Disjoint transient)
    (hkept : ∀ n, n ∈ kept ↔ n ∈ inherited ++ transient) :
    runCalls table (closeRanges ranges ++ setCloseOnExecs false inherited ++
        setCloseOnExecs true transient) = some table' ↔
      (∀ n ∈ inherited ++ transient, (table n).isSome) ∧
        table' = inheritOnly inherited transient table := by
  have hopen : ∀ n ∈ inherited ++ transient, (keepOnly kept table n).isSome = (table n).isSome := by
    intro n hn
    rw [keepOnly, if_neg (fun hclosed => hclosed.2.2 ((hkept n).mpr hn))]
  rw [List.append_assoc, runCalls_append]
  simp only [h.runCalls_eq, Option.some_inj, exists_eq_left', runCalls_append,
    runCalls_setCloseOnExecs]
  constructor
  · rintro ⟨middle, ⟨hinherited, rfl⟩, htransient, rfl⟩
    refine ⟨fun n hn => ?_, flagged_flagged_keepOnly hdisjoint hkept table⟩
    rw [← hopen n hn]
    rcases List.mem_append.mp hn with hn | hn
    · exact hinherited n hn
    · rcases isSome_flagged.mp (htransient n hn) with hn' | hsome
      · exact absurd hn (fun h => hdisjoint hn' h)
      · exact hsome
  · rintro ⟨hsome, rfl⟩
    refine ⟨_, ⟨fun n hn => ?_, rfl⟩, fun n hn => ?_,
      (flagged_flagged_keepOnly hdisjoint hkept table).symm⟩
    · rw [hopen n (List.mem_append_left _ hn)]
      exact hsome n (List.mem_append_left _ hn)
    · rw [isSome_flagged, hopen n (List.mem_append_right _ hn)]
      exact .inr (hsome n (List.mem_append_right _ hn))

/-- The attempt closes the gaps around what is kept, and nothing else is done. -/
def ClosesExcept (keep : List RawFd) (attempt : Attempt) : Prop :=
  ∃ ranges, attempt = ⟨closeRanges ranges, .ok ()⟩ ∧ Gaps 3 (keep.map number) ranges ∧
    ∀ table, runCalls table attempt.calls = some (keepOnly (keep.map number) table)

/-- The attempt closes the gaps around both lists, clears close-on-exec on the inherited
descriptors, in order, and sets it on the transient ones.  It succeeds on a table that has all
of them open. -/
def InheritsOnly (inherited transient : List RawFd) (attempt : Attempt) : Prop :=
  ∃ ranges, attempt = ⟨closeRanges ranges ++
        setCloseOnExecs false ((sortFds inherited).map number) ++
        setCloseOnExecs true (transient.map number), .ok ()⟩ ∧
    Gaps 3 ((inherited ++ transient).map number) ranges ∧
    ∀ table table', runCalls table attempt.calls = some table' ↔
      (∀ n ∈ (inherited ++ transient).map number, (table n).isSome) ∧
        table' = inheritOnly (inherited.map number) (transient.map number) table

theorem disjoint_map_number (hnodup : (inherited ++ transient).Nodup)
    (h : ∀ d ∈ inherited ++ transient, 3 ≤ d.toInt) :
    (inherited.map number).Disjoint (transient.map number) := by
  intro n hinherited htransient
  obtain ⟨a, ha, rfl⟩ := List.mem_map.mp hinherited
  obtain ⟨b, hb, heq⟩ := List.mem_map.mp htransient
  have hthree := h a (List.mem_append_left _ ha)
  have hthree' := h b (List.mem_append_right _ hb)
  rw [number, number] at heq
  have hab : a = b := Int32.toInt_inj.mp (by omega)
  exact (List.nodup_append.mp hnodup).2.2 a ha b hb hab

theorem inheritsOnly_of_eq_ok {attempt : Attempt}
    (h : inheritOnlyDescriptorsForExec inherited transient = .ok attempt) :
    InheritsOnly inherited transient attempt := by
  obtain ⟨hnodup, hthree, rfl⟩ := inheritOnlyDescriptorsForExec_eq_ok.mp h
  have hperm : (sortFds inherited ++ transient).Perm (inherited ++ transient) :=
    (sortBy_perm inherited).append_right transient
  have hmem : ∀ d, d ∈ sortFds (sortFds inherited ++ transient) ↔ d ∈ inherited ++ transient :=
    fun d => mem_sortBy.trans hperm.mem_iff
  have hstrict : Strict fdCmp (sortFds (sortFds inherited ++ transient)) := by
    refine strict_sortBy ((hperm.nodup_iff.mpr hnodup).imp ?_)
    intro a b hne heq
    exact hne (Std.LawfulEqCmp.eq_of_compare heq)
  obtain ⟨ranges, hattempt, hgaps⟩ := beforeExec_closes hstrict
    (fun d hd => hthree d ((hmem d).mp hd)) (sortFds inherited) transient
  have hgaps : Gaps 3 ((inherited ++ transient).map number) ranges :=
    hgaps.congr fun n => by simp only [List.mem_map, hmem]
  have hsorted : ∀ n, n ∈ (sortFds inherited).map number ↔ n ∈ inherited.map number := by
    intro n
    simp only [List.mem_map, sortFds, mem_sortBy]
  refine ⟨ranges, hattempt, hgaps, fun table table' => ?_⟩
  have hinherit : inheritOnly ((sortFds inherited).map number) (transient.map number) table =
      inheritOnly (inherited.map number) (transient.map number) table := by
    funext n
    simp only [inheritOnly, hsorted]
  rw [hattempt, runCalls_inheritOnly hgaps, hinherit]
  · simp only [List.map_append, List.mem_append, hsorted]
  · intro n hn hn'
    exact disjoint_map_number hnodup hthree ((hsorted n).mp hn) hn'
  · intro n
    simp only [List.map_append, List.mem_append, hsorted]

/-- A keep list is rejected before any call, or exactly the descriptors from 3 on that are not
kept are closed.  The lists of descriptors to inherit are accepted when they are without
repetition or overlap and from 3 on; the closure then leaves exactly these open. -/
theorem descriptors_closed_exactly :
    (∀ keep, closeDescriptorsExcept keep = .rejected ∧ (∃ d ∈ keep, d.toInt < 3) ∨
      ClosesExcept keep (closeDescriptorsExcept keep) ∧ ∀ d ∈ keep, 3 ≤ d.toInt) ∧
    ∀ inherited transient,
      ((∃ attempt, inheritOnlyDescriptorsForExec inherited transient = .ok attempt) ↔
        (inherited ++ transient).Nodup ∧ ∀ d ∈ inherited ++ transient, 3 ≤ d.toInt) ∧
      ∀ attempt, inheritOnlyDescriptorsForExec inherited transient = .ok attempt →
        InheritsOnly inherited transient attempt := by
  refine ⟨fun keep => ?_, fun inherited transient => ⟨?_, fun attempt => inheritsOnly_of_eq_ok⟩⟩
  · by_cases hkeep : ∀ d ∈ keep, 3 ≤ d.toInt
    · obtain ⟨ranges, hattempt, hgaps⟩ := closeDescriptorsExcept_closes hkeep
      refine .inr ⟨⟨ranges, hattempt, hgaps, fun table => ?_⟩, hkeep⟩
      rw [hattempt, hgaps.runCalls_eq]
    · refine .inl ⟨closeDescriptorsExcept_rejected hkeep, ?_⟩
      push Not at hkeep
      exact hkeep
  · simp only [inheritOnlyDescriptorsForExec_eq_ok, ← and_assoc, exists_and_left,
      exists_eq', and_true]

theorem descriptors_closed_exactly_sample :
    InheritsOnly [7, 3] [4] ⟨[.closeRange 5 6, .closeRange 8 4294967295,
      .setCloseOnExec 3 false, .setCloseOnExec 7 false, .setCloseOnExec 4 true], .ok ()⟩ :=
  (descriptors_closed_exactly.2 [7, 3] [4]).2 _ (by decide)

end ProofboundRuntime.Linux.Descriptors
