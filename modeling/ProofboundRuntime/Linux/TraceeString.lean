import ProofboundRuntime.Lib.Loop
import ProofboundRuntime.Linux.Trace

/-!
# Strings of a tracee

`read_tracee_string` of `trace.rs` over the memory of a stopped tracee.  A read of memory
returns some of the bytes that are available, as many as the kernel chooses; the chunks of a
string are read at increasing addresses, so the choices of the kernel are a function of the
address.  `Scans` goes through the string byte by byte, and every loop over chunks comes to
its result (`scans_of_leaves`).
-/

namespace ProofboundRuntime.Linux.TraceeString

open Loop

/-- `TRACE_MEMORY_CHUNK_BYTES`. -/
def traceMemoryChunkBytes : Nat := 256

/-- `MAX_TRACE_PATH_BYTES`. -/
def maxTracePathBytes : Nat := 1048576

/-- The limits of `TraceCaptureLimits` on paths and strings. -/
structure TraceCaptureLimits where
  pathBytes : Nat
  traceeStringBytes : Nat
  path_pos : 0 < pathBytes
  path_le : pathBytes ≤ maxTracePathBytes
  string_pos : 0 < traceeStringBytes
  string_le : traceeStringBytes ≤ maxTracePathBytes

/-- The bytes of memory that can be read. -/
abbrev Memory := UInt64 → Option UInt8

/-- There is nothing above the last address. -/
def Memory.byteAt (memory : Memory) (address : Nat) : Option UInt8 :=
  if address < 2 ^ 64 then memory (.ofNat address) else none

/-- `trace_read_process_memory`: the bytes read at an address, of so many requested. -/
abbrev ReadMemory := Nat → Nat → Option (List UInt8)

abbrev StringResult := Except TraceObservationError (List UInt8)

/-- The rest of a round after a read that returned bytes. -/
def observe (limits : TraceCaptureLimits) (bytes observed : List UInt8) :
    Round (List UInt8) StringResult :=
  match observed.findIdx? (· == 0) with
  | some terminator =>
    let bytes := bytes ++ observed.take terminator
    if limits.pathBytes < bytes.length then .leave (.error .pathLimitExceeded)
    else .leave (.ok bytes)
  | none =>
    let bytes := bytes ++ observed
    if limits.pathBytes < bytes.length then .leave (.error .pathLimitExceeded)
    else .next bytes

/-- One round of the loop. -/
def readRound (read : ReadMemory) (address : UInt64) (limits : TraceCaptureLimits)
    (bytes : List UInt8) : Round (List UInt8) StringResult :=
  if bytes.length < limits.traceeStringBytes then
    let remaining := limits.traceeStringBytes - bytes.length
    let count := min remaining traceMemoryChunkBytes
    let chunkAddress := address.toNat + bytes.length
    if chunkAddress < 2 ^ 64 then
      match read chunkAddress count with
      | none => .leave (.error .traceeMemoryReadFailed)
      | some [] => .leave (.error .traceeMemoryReadFailed)
      | some observed => observe limits bytes observed
    else .leave (.error .traceeMemoryReadFailed)
  else .leave (.error .traceeStringLimitExceeded)

/-- Each round reads at least one byte, so there are no more rounds than bytes. -/
def readTraceeString (read : ReadMemory) (address : UInt64) (limits : TraceCaptureLimits) :
    StringResult :=
  (run (readRound read address limits) (limits.traceeStringBytes + 1) []).getD
    (.error .traceeStringLimitExceeded)

/-- A read returns available bytes, at most as many as requested, and at least one if the first
is available. -/
structure Answers (memory : Memory) (read : ReadMemory) : Prop where
  length_le : ∀ address count chunk, read address count = some chunk → chunk.length ≤ count
  available : ∀ address count chunk, read address count = some chunk →
    ∀ i (h : i < chunk.length), memory.byteAt (address + i) = some chunk[i]
  positive : ∀ address count, 0 < count → (memory.byteAt address).isSome = true →
    ∃ chunk, read address count = some chunk ∧ chunk ≠ []

/-! ## Byte by byte -/

/-- The result of reading on after these bytes, one byte at a time. -/
inductive Scans (view : Nat → Option UInt8) (limits : TraceCaptureLimits) :
    List UInt8 → StringResult → Prop
  | path {bytes : List UInt8} : limits.pathBytes < bytes.length →
      Scans view limits bytes (.error .pathLimitExceeded)
  | limit {bytes : List UInt8} : bytes.length ≤ limits.pathBytes →
      limits.traceeStringBytes ≤ bytes.length →
      Scans view limits bytes (.error .traceeStringLimitExceeded)
  | fault {bytes : List UInt8} : bytes.length ≤ limits.pathBytes →
      bytes.length < limits.traceeStringBytes → view bytes.length = none →
      Scans view limits bytes (.error .traceeMemoryReadFailed)
  | terminator {bytes : List UInt8} : bytes.length ≤ limits.pathBytes →
      bytes.length < limits.traceeStringBytes → view bytes.length = some 0 →
      Scans view limits bytes (.ok bytes)
  | byte {bytes : List UInt8} {b : UInt8} {result : StringResult} :
      bytes.length ≤ limits.pathBytes → bytes.length < limits.traceeStringBytes →
      view bytes.length = some b → b ≠ 0 → Scans view limits (bytes ++ [b]) result →
      Scans view limits bytes result

/-- The bytes are in view from a place on, and none of them is a terminator. -/
def InView (view : Nat → Option UInt8) (start : Nat) (bytes : List UInt8) : Prop :=
  ∀ i (h : i < bytes.length), view (start + i) = some bytes[i] ∧ bytes[i] ≠ 0

variable {view : Nat → Option UInt8} {limits : TraceCaptureLimits} {bytes chunk : List UInt8}
  {result result' : StringResult}

theorem Scans.eq_of_path_lt (h : Scans view limits bytes result)
    (hpath : limits.pathBytes < bytes.length) : result = .error .pathLimitExceeded := by
  cases h with
  | path _ => rfl
  | _ => omega

theorem Scans.unique (h : Scans view limits bytes result) (h' : Scans view limits bytes result') :
    result = result' := by
  induction h with
  | path hpath => exact (h'.eq_of_path_lt hpath).symm
  | limit hpath hlimit =>
    cases h' with
    | limit _ _ => rfl
    | _ => omega
  | fault hpath hlimit hview =>
    cases h' with
    | fault _ _ _ => rfl
    | path _ => omega
    | limit _ _ => omega
    | terminator _ _ hview' | byte _ _ hview' _ _ =>
      rw [hview] at hview'
      cases hview'
  | terminator hpath hlimit hview =>
    cases h' with
    | terminator _ _ _ => rfl
    | path _ => omega
    | limit _ _ => omega
    | fault _ _ hview' =>
      rw [hview] at hview'
      cases hview'
    | byte _ _ hview' hne _ =>
      rw [hview] at hview'
      exact absurd (Option.some.inj hview').symm hne
  | byte hpath hlimit hview hne _ ih =>
    cases h' with
    | path _ => omega
    | limit _ _ => omega
    | fault _ _ hview' =>
      rw [hview] at hview'
      cases hview'
    | terminator _ _ hview' =>
      rw [hview] at hview'
      exact absurd (Option.some.inj hview') hne
    | byte _ _ hview' _ hscans =>
      rw [hview] at hview'
      rw [← Option.some.inj hview'] at hscans
      exact ih hscans

theorem InView.head {start : Nat} {b : UInt8} (h : InView view start (b :: chunk)) :
    view start = some b ∧ b ≠ 0 :=
  h 0 (Nat.succ_pos _)

theorem InView.tail {start : Nat} {b : UInt8} (h : InView view start (b :: chunk)) :
    InView view (start + 1) chunk := by
  intro i hi
  have hplace : start + 1 + i = start + (i + 1) := by omega
  rw [hplace]
  exact h (i + 1) (Nat.succ_lt_succ hi)

/-- A chunk that is in view is scanned through, or the path limit is met in it. -/
theorem Scans.of_append (hchunk : InView view bytes.length chunk)
    (hlength : bytes.length + chunk.length ≤ limits.traceeStringBytes)
    (h : Scans view limits (bytes ++ chunk) result) : Scans view limits bytes result := by
  induction chunk generalizing bytes with
  | nil => rwa [List.append_nil] at h
  | cons b chunk ih =>
    rw [List.length_cons] at hlength
    by_cases hpath : limits.pathBytes < bytes.length
    · have hresult := h.eq_of_path_lt (by rw [List.length_append]; omega)
      rw [hresult]
      exact .path hpath
    · obtain ⟨hview, hne⟩ := hchunk.head
      refine .byte (not_lt.mp hpath) (by omega) hview hne (ih ?_ ?_ ?_)
      · rw [List.length_append, List.length_singleton]
        exact hchunk.tail
      · rw [List.length_append, List.length_singleton]
        omega
      · rwa [List.append_assoc, List.singleton_append]

/-! ## Chunks -/

/-- The memory from an address on. -/
def viewFrom (memory : Memory) (address : UInt64) (i : Nat) : Option UInt8 :=
  memory.byteAt (address.toNat + i)

variable {memory : Memory} {read : ReadMemory} {address : UInt64} {observed : List UInt8}

/-- What is in a chunk before the terminator, if there is one. -/
theorem inView_of_findIdx? {start n : Nat}
    (hobserved : ∀ i (h : i < observed.length), view (start + i) = some observed[i])
    (hn : n ≤ observed.length) (hnonzero : ∀ i (_ : i < n) (h : i < observed.length),
      (observed[i] == 0) = false) : InView view start (observed.take n) := by
  intro i hi
  rw [List.length_take] at hi
  have hlength : i < observed.length := by omega
  rw [List.getElem_take]
  refine ⟨hobserved i hlength, ?_⟩
  exact beq_eq_false_iff_ne.mp (hnonzero i (by omega) hlength)

/-- A chunk ends the loop with the result of the scan, or the scan goes through it. -/
theorem observe_cases
    (hobserved : ∀ i (h : i < observed.length), view (bytes.length + i) = some observed[i])
    (hlength : bytes.length + observed.length ≤ limits.traceeStringBytes) :
    (∃ result, observe limits bytes observed = .leave result ∧ Scans view limits bytes result) ∨
    observe limits bytes observed = .next (bytes ++ observed) ∧
      InView view bytes.length observed ∧ (bytes ++ observed).length ≤ limits.pathBytes := by
  cases hfind : observed.findIdx? (· == 0) with
  | some terminator =>
    left
    obtain ⟨hlt, hzero, hbefore⟩ := List.findIdx?_eq_some_iff_getElem.mp hfind
    have hview : InView view bytes.length (observed.take terminator) := by
      refine inView_of_findIdx? hobserved hlt.le fun i hi hi' => ?_
      exact Bool.not_eq_true _ ▸ hbefore i hi
    have htake : (observed.take terminator).length = terminator := by
      rw [List.length_take]
      omega
    have hscans {result : StringResult}
        (h : Scans view limits (bytes ++ observed.take terminator) result) :
        Scans view limits bytes result := Scans.of_append hview (by omega) h
    by_cases hpath : limits.pathBytes < (bytes ++ observed.take terminator).length
    · refine ⟨.error .pathLimitExceeded, ?_, hscans (.path hpath)⟩
      simp only [observe, hfind, if_pos hpath]
    · refine ⟨.ok (bytes ++ observed.take terminator), ?_, hscans ?_⟩
      · simp only [observe, hfind, if_neg hpath]
      · refine .terminator (not_lt.mp hpath) ?_ ?_
        · rw [List.length_append, htake]
          omega
        · rw [List.length_append, htake, hobserved terminator hlt, beq_iff_eq.mp hzero]
  | none =>
    have hview : InView view bytes.length (observed.take observed.length) := by
      refine inView_of_findIdx? hobserved (Nat.le_refl _) fun i _ hi' => ?_
      exact List.findIdx?_eq_none_iff.mp hfind _ (List.getElem_mem hi')
    rw [List.take_length] at hview
    by_cases hpath : limits.pathBytes < (bytes ++ observed).length
    · refine .inl ⟨.error .pathLimitExceeded, ?_, Scans.of_append hview hlength (.path hpath)⟩
      simp only [observe, hfind, if_pos hpath]
    · refine .inr ⟨?_, hview, not_lt.mp hpath⟩
      simp only [observe, hfind, if_neg hpath]

/-- A round ends the loop with the result of the scan, or the scan goes through a chunk. -/
theorem readRound_cases (h : Answers memory read) (hpath : bytes.length ≤ limits.pathBytes) :
    (∃ result, readRound read address limits bytes = .leave result ∧
      Scans (viewFrom memory address) limits bytes result) ∨
    ∃ chunk, readRound read address limits bytes = .next (bytes ++ chunk) ∧ chunk ≠ [] ∧
      InView (viewFrom memory address) bytes.length chunk ∧
      (bytes ++ chunk).length ≤ limits.pathBytes ∧
      bytes.length + chunk.length ≤ limits.traceeStringBytes := by
  by_cases hlimit : bytes.length < limits.traceeStringBytes
  · have hcount : 0 < min (limits.traceeStringBytes - bytes.length) traceMemoryChunkBytes := by
      rw [traceMemoryChunkBytes]
      omega
    by_cases haddress : address.toNat + bytes.length < 2 ^ 64
    · cases hview : viewFrom memory address bytes.length with
      | none =>
        -- nothing is available, so the read fails or returns nothing
        refine .inl ⟨.error .traceeMemoryReadFailed, ?_, .fault hpath hlimit hview⟩
        rw [readRound, if_pos hlimit]
        dsimp only
        rw [if_pos haddress]
        split
        next => rfl
        next => rfl
        next observed hne hread =>
          have hpos : 0 < observed.length := List.length_pos_of_ne_nil hne
          have hbyte := h.available _ _ _ hread 0 hpos
          rw [viewFrom] at hview
          rw [Nat.add_zero, hview] at hbyte
          cases hbyte
      | some b =>
        have hsome : (memory.byteAt (address.toNat + bytes.length)).isSome = true :=
          Option.isSome_iff_exists.mpr ⟨b, hview⟩
        obtain ⟨observed, hread, hne⟩ := h.positive _ _ hcount hsome
        have hlength := h.length_le _ _ _ hread
        have hround : readRound read address limits bytes = observe limits bytes observed := by
          rw [readRound, if_pos hlimit]
          dsimp only
          rw [if_pos haddress, hread]
          cases observed with
          | nil => exact absurd rfl hne
          | cons _ _ => rfl
        have hobserved : ∀ i (hi : i < observed.length),
            viewFrom memory address (bytes.length + i) = some observed[i] := by
          intro i hi
          rw [viewFrom, ← Nat.add_assoc]
          exact h.available _ _ _ hread i hi
        have hfits : bytes.length + observed.length ≤ limits.traceeStringBytes := by omega
        rw [hround]
        rcases observe_cases hobserved hfits with hleave | ⟨hnext, hview, hbound⟩
        · exact .inl hleave
        · exact .inr ⟨observed, hnext, hne, hview, hbound, hfits⟩
    · refine .inl ⟨.error .traceeMemoryReadFailed, ?_, .fault hpath hlimit ?_⟩
      · rw [readRound, if_pos hlimit]
        dsimp only
        rw [if_neg haddress]
      · rw [viewFrom, Memory.byteAt, if_neg haddress]
  · refine .inl ⟨.error .traceeStringLimitExceeded, ?_, .limit hpath (not_lt.mp hlimit)⟩
    rw [readRound, if_neg hlimit]

/-- The loop leaves with the result of the scan. -/
theorem scans_of_leaves (h : Answers memory read) (hpath : bytes.length ≤ limits.pathBytes)
    (hleaves : Leaves (readRound read address limits) bytes result) :
    Scans (viewFrom memory address) limits bytes result := by
  induction hleaves using Leaves.induction with
  | leave bytes hround =>
    rcases readRound_cases h hpath with ⟨result', hleave, hscans⟩ | ⟨chunk, hnext, -⟩
    · rw [hround] at hleave
      cases hleave
      exact hscans
    · rw [hround] at hnext
      cases hnext
  | next bytes bytes' hround _ ih =>
    rcases readRound_cases h hpath with
      ⟨result', hleave, -⟩ | ⟨chunk, hnext, -, hview, hbound, hlimit⟩
    · rw [hround] at hleave
      cases hleave
    · rw [hround] at hnext
      cases hnext
      exact Scans.of_append hview hlimit (ih hbound)

/-- A round that goes on has read a byte within the limit. -/
theorem lt_of_next {bytes' : List UInt8}
    (hround : readRound read address limits bytes = .next bytes') :
    limits.traceeStringBytes - bytes'.length < limits.traceeStringBytes - bytes.length := by
  rw [readRound] at hround
  split at hround
  next hlimit =>
    dsimp only at hround
    split at hround
    next =>
      split at hround
      next => cases hround
      next => cases hround
      next observed hne hread =>
        have hpos : 0 < observed.length := List.length_pos_of_ne_nil hne
        have hbytes : bytes' = bytes ++ observed := by
          rw [observe] at hround
          cases hfind : observed.findIdx? (· == 0) with
          | some terminator =>
            simp only [hfind] at hround
            split at hround
            · cases hround
            · cases hround
          | none =>
            simp only [hfind] at hround
            split at hround
            · cases hround
            · cases hround
              rfl
        rw [hbytes, List.length_append]
        omega
    next => cases hround
  next => cases hround

theorem leaves_readTraceeString (read : ReadMemory) (address : UInt64)
    (limits : TraceCaptureLimits) :
    Leaves (readRound read address limits) [] (readTraceeString read address limits) := by
  obtain ⟨result, hrun⟩ := exists_run_eq (fun _ _ => lt_of_next)
    (Nat.lt_succ_self (limits.traceeStringBytes - ([] : List UInt8).length))
  have hresult : readTraceeString read address limits = result := by
    rw [readTraceeString]
    exact congrArg (fun answer => answer.getD (.error .traceeStringLimitExceeded)) hrun
  rw [hresult]
  exact ⟨_, hrun⟩

theorem scans_readTraceeString (h : Answers memory read) (address : UInt64)
    (limits : TraceCaptureLimits) :
    Scans (viewFrom memory address) limits [] (readTraceeString read address limits) :=
  scans_of_leaves h (Nat.zero_le _) (leaves_readTraceeString read address limits)

/-! ## The string -/

/-- The bytes before the first terminator, which is readable with all of them. -/
structure IsString (memory : Memory) (address : UInt64) (bytes : List UInt8) : Prop where
  inView : InView (viewFrom memory address) 0 bytes
  terminator : viewFrom memory address bytes.length = some 0

theorem InView.concat {start : Nat} {b : UInt8} (h : InView view start bytes)
    (hview : view (start + bytes.length) = some b) (hne : b ≠ 0) :
    InView view start (bytes ++ [b]) := by
  intro i hi
  rw [List.length_append, List.length_singleton] at hi
  by_cases hlt : i < bytes.length
  · rw [List.getElem_append_left hlt]
    exact h i hlt
  · have heq : i = bytes.length := by omega
    subst heq
    rw [List.getElem_concat_length rfl]
    exact ⟨hview, hne⟩

theorem Scans.string {s : List UInt8} (h : Scans (viewFrom memory address) limits bytes result)
    (hbytes : InView (viewFrom memory address) 0 bytes) (hs : result = .ok s) :
    IsString memory address s ∧ s.length ≤ limits.pathBytes ∧
      s.length < limits.traceeStringBytes := by
  induction h with
  | terminator hpath hlimit hview =>
    cases hs
    exact ⟨⟨hbytes, hview⟩, hpath, hlimit⟩
  | byte _ _ hview hne _ ih => exact ih (hbytes.concat (by rwa [Nat.zero_add]) hne) hs
  | _ => cases hs

/-- The function returns the string exactly when it can be read within both limits.  Neither the
string nor the error depends on how the reads are split. -/
theorem readTraceeString_spec (memory : Memory) (address : UInt64) (limits : TraceCaptureLimits)
    (read : ReadMemory) (h : Answers memory read) :
    (∀ bytes, readTraceeString read address limits = .ok bytes ↔
      IsString memory address bytes ∧ bytes.length ≤ limits.pathBytes ∧
        bytes.length < limits.traceeStringBytes) ∧
    ∀ read', Answers memory read' →
      readTraceeString read' address limits = readTraceeString read address limits := by
  have hscans := scans_readTraceeString h address limits
  refine ⟨fun bytes => ⟨fun heq => ?_, fun ⟨hstring, hpath, hlimit⟩ => ?_⟩, fun read' h' => ?_⟩
  · have hnil : InView (viewFrom memory address) 0 [] := fun i hi => absurd hi (Nat.not_lt_zero i)
    exact hscans.string hnil heq
  · have hend : Scans (viewFrom memory address) limits ([] ++ bytes) (.ok bytes) :=
      .terminator hpath hlimit hstring.terminator
    have hfits : ([] : List UInt8).length + bytes.length ≤ limits.traceeStringBytes := by
      rw [List.length_nil]
      omega
    exact hscans.unique (Scans.of_append hstring.inView hfits hend)
  · exact (scans_readTraceeString h' address limits).unique hscans

/-- `/usr/lib` at address 1, and a byte after its terminator. -/
def sampleBytes : List UInt8 := [0, 0x2f, 0x75, 0x73, 0x72, 0x2f, 0x6c, 0x69, 0x62, 0, 0x41]

def sampleMemory : Memory := fun address => sampleBytes[address.toNat]?

/-- Reads of one to four bytes, by the address. -/
def sampleRead : ReadMemory := fun address count =>
  some ((sampleBytes.drop address).take (min count (address % 4 + 1)))

def sampleLimits : TraceCaptureLimits :=
  ⟨8, 64, by decide, by decide, by decide, by decide⟩

theorem byteAt_sampleMemory (address : Nat) :
    sampleMemory.byteAt address = sampleBytes[address]? := by
  unfold Memory.byteAt sampleMemory
  split
  next h => rw [UInt64.toNat_ofNat_of_lt' h]
  next h =>
    have hlength : sampleBytes.length ≤ address := (by decide : _ ≤ 2 ^ 64).trans (not_lt.mp h)
    exact (List.getElem?_eq_none hlength).symm

theorem answers_sampleRead : Answers sampleMemory sampleRead where
  length_le address count chunk h := by
    cases h
    rw [List.length_take]
    omega
  available address count chunk h i hi := by
    cases h
    rw [byteAt_sampleMemory, List.getElem_take, List.getElem_drop]
    exact List.getElem?_eq_getElem _
  positive address count hcount hsome := by
    rw [byteAt_sampleMemory, isSome_getElem?] at hsome
    refine ⟨_, rfl, List.ne_nil_of_length_pos ?_⟩
    rw [List.length_take, List.length_drop]
    omega

theorem readTraceeString_spec_sample :
    readTraceeString sampleRead 1 sampleLimits = .ok (sampleBytes.drop 1 |>.take 8) ∧
    IsString sampleMemory 1 (sampleBytes.drop 1 |>.take 8) := by
  have hread : readTraceeString sampleRead 1 sampleLimits =
      .ok (sampleBytes.drop 1 |>.take 8) := by decide +kernel
  have hspec := readTraceeString_spec sampleMemory 1 sampleLimits sampleRead answers_sampleRead
  exact ⟨hread, ((hspec.1 _).mp hread).1⟩

end ProofboundRuntime.Linux.TraceeString
