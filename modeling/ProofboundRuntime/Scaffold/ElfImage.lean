import ProofboundRuntime.Scaffold.Elf

/-!
# The fields of an ELF image

An image by the numbers at its places: the table of program headers, the entries of the dynamic
section and the places of its strings.  Each loop of `parse_elf` is then known by these fields:
`foldlM_readSegment_eq_ok` for the program headers, `readTags_eq_ok` for the dynamic section.
-/

namespace ProofboundRuntime.Scaffold

open Result Checked
open ProofboundRuntime.Path (isAbsolute)

/-! ## Numbers at a place -/

/-- The number that so many bytes spell at a place. -/
def leAt (width : Nat) (bytes : List UInt8) (offset : Nat) : Nat :=
  LittleEndian.ofBytes ((bytes.drop offset).take width)

variable {bytes : List UInt8}

theorem readLe_eq_leAt (hlength : bytes.length < usizeBound) {width offset : Nat}
    (h : offset + width ≤ bytes.length) :
    readLe width bytes offset = .ok (leAt width bytes offset) := by
  have hpart : ((bytes.drop offset).take width).length = width := by
    rw [List.length_take, List.length_drop]
    omega
  unfold readLe indexTo
  rw [(slice_eq_ok hlength).mpr ⟨h, rfl⟩, ok_bind, if_pos hpart.ge, ok_bind,
    List.take_of_length_le hpart.le]
  rfl

/-- A number in a part of the bytes. -/
theorem leAt_part {start size width offset : Nat} (h : offset + width ≤ size) :
    leAt width ((bytes.drop start).take size) offset = leAt width bytes (start + offset) := by
  unfold leAt
  rw [List.drop_take, List.drop_drop, List.take_take, Nat.min_eq_left (by omega)]

/-! ## The header -/

def tableOffset (bytes : List UInt8) : Nat := leAt 8 bytes 32

def entrySize (bytes : List UInt8) : Nat := leAt 2 bytes 54

def entryCount (bytes : List UInt8) : Nat := leAt 2 bytes 56

def tableBytes (bytes : List UInt8) : Nat := entrySize bytes * entryCount bytes

/-- The checks of the header. -/
structure HeaderAccepted (bytes : List UInt8) (architecture : Architecture) : Prop where
  length : elfHeaderBytes ≤ bytes.length
  ident : bytes.take 7 = [0x7f, 0x45, 0x4c, 0x46, 2, 1, 1]
  headerSize : leAt 2 bytes 52 = elfHeaderBytes
  entrySize : programHeaderBytes ≤ entrySize bytes
  machine : leAt 2 bytes 18 = expectedMachine architecture
  tableBytes : tableBytes bytes ≤ maxStringTableBytes

structure ProgramHeader where
  kind : Nat
  offset : Nat
  address : Nat
  size : Nat
deriving DecidableEq

def programHeader (bytes : List UInt8) (index : Nat) : ProgramHeader :=
  let start := tableOffset bytes + index * entrySize bytes
  ⟨leAt 4 bytes start, leAt 8 bytes (start + 8), leAt 8 bytes (start + 16),
    leAt 8 bytes (start + 32)⟩

def programHeaders (bytes : List UInt8) : List ProgramHeader :=
  (List.range (entryCount bytes)).map (programHeader bytes)

/-! ## The program headers -/

/-- The text that `PT_INTERP` points to. -/
structure IsInterpreter (bytes : List UInt8) (header : ProgramHeader) (text : String) : Prop where
  inside : header.offset + header.size ≤ bytes.length
  terminated : (bytes.drop header.offset).take header.size = Utf8.bytes text ++ [0]
  nonempty : Utf8.bytes text ≠ []
  noNul : 0 ∉ Utf8.bytes text
  absolute : isAbsolute (Utf8.bytes text) = true

def ProgramHeader.load (header : ProgramHeader) : LoadSegment :=
  ⟨header.offset, header.address, header.size⟩

def ProgramHeader.place (header : ProgramHeader) : Nat × Nat := (header.offset, header.size)

/-- The headers of a kind. -/
def ofKind (kind : Nat) (headers : List ProgramHeader) : List ProgramHeader :=
  headers.filter (·.kind = kind)

/-- The headers are taken by the loop: at most one `PT_DYNAMIC`, and at most one `PT_INTERP` with a
text. -/
structure HeadersAccepted (bytes : List UInt8) (headers : List ProgramHeader) : Prop where
  dynamic : (ofKind 2 headers).length ≤ 1
  interpreter : (ofKind 3 headers).length ≤ 1
  text : ∀ header ∈ ofKind 3 headers, ∃ text, IsInterpreter bytes header text

/-- What the loop collects of accepted headers. -/
def segmentsOf (bytes : List UInt8) (headers : List ProgramHeader) : Segments :=
  ⟨(ofKind 3 headers).head?.bind fun header =>
      (interpreterText bytes header.offset header.size).toOption,
    (ofKind 2 headers).head?.map ProgramHeader.place, (ofKind 1 headers).map ProgramHeader.load⟩

variable {text : String}

theorem interpreterText_eq_ok (hlength : bytes.length < usizeBound) {header : ProgramHeader} :
    interpreterText bytes header.offset header.size = .ok text ↔
      IsInterpreter bytes header text := by
  unfold interpreterText
  simp only [bind_eq_ok, slice_eq_ok hlength, lift_eq_ok, okOr_eq_ok, rejectIf_eq_ok, pure_eq_ok,
    Utf8.fromUtf8_eq_some]
  constructor
  · rintro ⟨raw, ⟨hinside, hraw⟩, _, hlast, _, htext, text', hbytes, _, habsolute, heq⟩
    subst heq
    rw [not_not] at hlast
    rw [not_or] at htext
    rw [← hbytes] at htext
    refine ⟨hinside, ?_, htext.1, htext.2, by simpa using habsolute⟩
    rw [← hraw, hbytes]
    exact (List.dropLast_append_getLast? 0 hlast).symm
  · intro h
    refine ⟨_, ⟨h.inside, rfl⟩, (), ?_, (), ?_, text, ?_, (), ?_, rfl⟩
    · rw [h.terminated]
      simp
    · rw [h.terminated, List.dropLast_concat, not_or]
      exact ⟨h.nonempty, h.noNul⟩
    · rw [h.terminated, List.dropLast_concat]
    · rw [h.absolute]
      simp

theorem ofKind_concat (kind : Nat) (headers : List ProgramHeader) (header : ProgramHeader) :
    ofKind kind (headers ++ [header]) =
      ofKind kind headers ++ if header.kind = kind then [header] else [] := by
  unfold ofKind
  rw [List.filter_append, List.filter_cons]
  simp

/-- One program header, on what was collected before it. -/
def addHeader (bytes : List UInt8) (segments : Segments) (header : ProgramHeader) :
    Outcome Segments :=
  if header.kind = 1 then pure { segments with loads := segments.loads ++ [header.load] }
  else if header.kind = 2 then do
    lift (rejectIf (segments.dynamic.isSome = true) .elfDynamicInvalid)
    pure { segments with dynamic := some header.place }
  else if header.kind = 3 then do
    lift (rejectIf (segments.interpreter.isSome = true) .elfInvalid)
    let text ← interpreterText bytes header.offset header.size
    pure { segments with interpreter := some text }
  else pure segments

/-- The table of program headers. -/
abbrev tableOf (bytes : List UInt8) : List UInt8 :=
  (bytes.drop (tableOffset bytes)).take (tableBytes bytes)

/-- The loop reads the fields of the header. -/
theorem readSegment_eq (hlength : bytes.length < usizeBound)
    (hinside : tableOffset bytes + tableBytes bytes ≤ bytes.length)
    (hsize : programHeaderBytes ≤ entrySize bytes) {index : Nat}
    (hindex : index < entryCount bytes) (segments : Segments) :
    readSegment bytes (tableOf bytes) (entrySize bytes) segments index =
      addHeader bytes segments (programHeader bytes index) := by
  have hentry : index * entrySize bytes + programHeaderBytes ≤ tableBytes bytes := by
    have hle : (index + 1) * entrySize bytes ≤ entryCount bytes * entrySize bytes :=
      Nat.mul_le_mul_right _ hindex
    rw [Nat.add_mul, Nat.one_mul] at hle
    unfold tableBytes
    rw [Nat.mul_comm (entrySize bytes)]
    omega
  have htable : (tableOf bytes).length = tableBytes bytes := by
    rw [List.length_take, List.length_drop]
    omega
  have hslice : (slice (tableOf bytes) (index * entrySize bytes) programHeaderBytes
      ScaffoldError.elfInvalid) = .ok ((bytes.drop
        (tableOffset bytes + index * entrySize bytes)).take programHeaderBytes) := by
    refine (slice_eq_ok (by omega)).mpr ⟨by omega, ?_⟩
    rw [List.drop_take, List.drop_drop, List.take_take, Nat.min_eq_left (by omega)]
  have hread : ∀ {width offset : Nat}, offset + width ≤ programHeaderBytes →
      readLe width ((bytes.drop (tableOffset bytes + index * entrySize bytes)).take
        programHeaderBytes) offset =
        .ok (leAt width bytes (tableOffset bytes + index * entrySize bytes + offset)) := by
    intro width offset hle
    rw [← leAt_part hle]
    apply readLe_eq_leAt <;> rw [List.length_take, List.length_drop] <;> omega
  unfold readSegment addHeader readU32 readU64 mul
  rw [if_pos (by omega), ok_bind, hslice, ok_bind]
  simp only [hread (show 0 + 4 ≤ programHeaderBytes by decide),
    hread (show 8 + 8 ≤ programHeaderBytes by decide),
    hread (show 16 + 8 ≤ programHeaderBytes by decide),
    hread (show 32 + 8 ≤ programHeaderBytes by decide), ok_bind]
  rfl

/-- Only the end of an interpreter text can overflow in a program header. -/
theorem overflows_addHeader {segments : Segments} {header : ProgramHeader} :
    Overflows (addHeader bytes segments header) ↔ header.kind = 3 ∧
      segments.interpreter = none ∧ usizeBound ≤ header.offset + header.size := by
  unfold addHeader interpreterText
  split_ifs with hload hdynamic hinterpreter
  · exact iff_of_false id (by omega)
  · refine iff_of_false ?_ (by omega)
    simp only [overflows_bind, overflows_lift, overflows_pure, and_false, exists_false, or_self,
      not_false_eq_true]
  · simp only [overflows_bind, overflows_lift, overflows_pure, overflows_slice, and_false,
      exists_false, or_false, false_or, lift_eq_ok, rejectIf_eq_ok, exists_const,
      Option.not_isSome_iff_eq_none, hinterpreter, true_and]
  · exact iff_of_false id fun h => hinterpreter h.1

section Step

variable {headers : List ProgramHeader} {header : ProgramHeader}

theorem headersAccepted_nil : HeadersAccepted bytes [] := ⟨by decide, by decide, by simp [ofKind]⟩

theorem headersAccepted_concat :
    HeadersAccepted bytes (headers ++ [header]) ↔ HeadersAccepted bytes headers ∧
      (header.kind = 2 → ofKind 2 headers = []) ∧
      (header.kind = 3 → ofKind 3 headers = [] ∧ ∃ text, IsInterpreter bytes header text) := by
  constructor
  · rintro ⟨hdynamic, hinterpreter, htext⟩
    simp only [ofKind_concat, List.length_append, List.forall_mem_append] at hdynamic hinterpreter htext
    refine ⟨⟨by omega, by omega, htext.1⟩, fun hkind => ?_, fun hkind => ⟨?_, ?_⟩⟩
    · rw [if_pos hkind, List.length_singleton] at hdynamic
      exact List.eq_nil_of_length_eq_zero (by omega)
    · rw [if_pos hkind, List.length_singleton] at hinterpreter
      exact List.eq_nil_of_length_eq_zero (by omega)
    · rw [if_pos hkind] at htext
      exact htext.2 header List.mem_cons_self
  · rintro ⟨⟨hdynamic, hinterpreter, htext⟩, hsecond, hthird⟩
    refine ⟨?_, ?_, ?_⟩ <;> rw [ofKind_concat] <;> split_ifs with hkind
    · simp [hsecond hkind]
    · simpa using hdynamic
    · simp [(hthird hkind).1]
    · simpa using hinterpreter
    · simpa [(hthird hkind).1] using (hthird hkind).2
    · simpa using htext

/-- There is an interpreter when there is a header for it. -/
theorem HeadersAccepted.interpreter_eq_none (hlength : bytes.length < usizeBound)
    (h : HeadersAccepted bytes headers) :
    (segmentsOf bytes headers).interpreter = none ↔ ofKind 3 headers = [] := by
  unfold segmentsOf
  cases hkind : ofKind 3 headers with
  | nil => simp
  | cons header rest =>
    obtain ⟨text, htext⟩ := h.text header (hkind ▸ List.mem_cons_self)
    simp [(interpreterText_eq_ok hlength).mpr htext, Except.toOption]

/-- One header is taken exactly when it is accepted with those before it. -/
theorem addHeader_eq_ok (hlength : bytes.length < usizeBound) (h : HeadersAccepted bytes headers)
    {next : Segments} :
    addHeader bytes (segmentsOf bytes headers) header = .ok next ↔
      HeadersAccepted bytes (headers ++ [header]) ∧
        segmentsOf bytes (headers ++ [header]) = next := by
  have hnone := h.interpreter_eq_none hlength
  rw [headersAccepted_concat]
  unfold addHeader
  split_ifs with hload hdynamic hinterpreter
  · simp [h, hload, segmentsOf, ofKind_concat]
  · by_cases hempty : ofKind 2 headers = []
    · simp [h, hdynamic, segmentsOf, ofKind_concat, hempty, rejectIf_false]
    · have hsome : (segmentsOf bytes headers).dynamic.isSome = true := by
        simpa [segmentsOf] using hempty
      simp [hdynamic, hempty, rejectIf_true hsome]
  · by_cases hempty : ofKind 3 headers = []
    · have hnot : ¬ (segmentsOf bytes headers).interpreter.isSome = true := by
        simp [hnone.mpr hempty]
      rw [rejectIf_false hnot, lift_ok, ok_bind, bind_eq_ok]
      simp only [interpreterText_eq_ok hlength, pure_eq_ok]
      constructor
      · rintro ⟨text, htext, heq⟩
        refine ⟨⟨h, by omega, fun _ => ⟨hempty, text, htext⟩⟩, heq ▸ ?_⟩
        simp [segmentsOf, ofKind_concat, hinterpreter, hempty,
          (interpreterText_eq_ok hlength).mpr htext, Except.toOption]
      · rintro ⟨⟨_, _, htext⟩, heq⟩
        obtain ⟨-, text, htext⟩ := htext hinterpreter
        refine ⟨text, htext, heq ▸ ?_⟩
        simp [segmentsOf, ofKind_concat, hinterpreter, hempty,
          (interpreterText_eq_ok hlength).mpr htext, Except.toOption]
    · have hsome : (segmentsOf bytes headers).interpreter.isSome = true := by
        rw [Option.isSome_iff_ne_none]
        exact fun heq => hempty (hnone.mp heq)
      simp [hinterpreter, hempty, rejectIf_true hsome]
  · simp [h, hload, hdynamic, hinterpreter, segmentsOf, ofKind_concat]

end Step

theorem exists_of_forall₂ {α β : Type} {R : α → β → Prop} {as : List α} {bs : List β}
    (h : List.Forall₂ R as bs) {a : α} (ha : a ∈ as) : ∃ b, R a b := by
  induction h with
  | nil => cases ha
  | cons hhead _ ih =>
    rcases List.mem_cons.mp ha with heq | ha
    · exact ⟨_, heq ▸ hhead⟩
    · exact ih ha

/-- The loop over the first program headers. -/
theorem foldlM_readSegment_eq_ok (hlength : bytes.length < usizeBound)
    (hinside : tableOffset bytes + tableBytes bytes ≤ bytes.length)
    (hsize : programHeaderBytes ≤ entrySize bytes) {count : Nat} (hcount : count ≤ entryCount bytes)
    {segments : Segments} :
    (List.range count).foldlM (readSegment bytes (tableOf bytes) (entrySize bytes))
        ⟨none, none, []⟩ = .ok segments ↔
      HeadersAccepted bytes ((programHeaders bytes).take count) ∧
        segmentsOf bytes ((programHeaders bytes).take count) = segments := by
  induction count generalizing segments with
  | zero =>
    rw [List.range_zero, List.foldlM_nil, pure_eq_ok, List.take_zero]
    exact (and_iff_right headersAccepted_nil).symm
  | succ count ih =>
    have hlt : count < entryCount bytes := hcount
    have htake : (programHeaders bytes).take (count + 1) =
        (programHeaders bytes).take count ++ [programHeader bytes count] := by
      unfold programHeaders
      rw [← List.map_take, ← List.map_take, List.take_range, List.take_range,
        Nat.min_eq_left hcount, Nat.min_eq_left hlt.le, List.range_succ, List.map_append]
      rfl
    rw [List.range_succ, List.foldlM_append, bind_eq_ok, htake]
    simp only [ih hlt.le, List.foldlM_cons, List.foldlM_nil,
      readSegment_eq hlength hinside hsize hlt, bind_pure]
    constructor
    · rintro ⟨before, ⟨hbefore, heq⟩, hnext⟩
      subst heq
      exact (addHeader_eq_ok hlength hbefore).mp hnext
    · intro h
      have hbefore := (headersAccepted_concat.mp h.1).1
      exact ⟨_, ⟨hbefore, rfl⟩, (addHeader_eq_ok hlength hbefore).mpr h⟩

/-! ## The dynamic section -/

/-- The tag and the value of an entry. -/
def dynamicEntry (bytes : List UInt8) (start index : Nat) : Nat × Nat :=
  (leAt 8 bytes (start + 16 * index), leAt 8 bytes (start + 16 * index + 8))

/-- The entries before the first null entry. -/
def dynamicEntries (bytes : List UInt8) (start size : Nat) : List (Nat × Nat) :=
  ((List.range (size / 16)).map (dynamicEntry bytes start)).takeWhile (·.1 ≠ 0)

/-- The values of a tag. -/
def valuesOf (tag : Nat) (entries : List (Nat × Nat)) : List Nat :=
  (entries.filter (·.1 = tag)).map Prod.snd

/-- The value of a tag that counts: the last one. -/
def lastOf (tag : Nat) (entries : List (Nat × Nat)) : Option Nat := (valuesOf tag entries).getLast?

/-- What the loop has collected after some entries. -/
def tagsOf (entries : List (Nat × Nat)) : Tags :=
  ⟨lastOf 5 entries, lastOf 10 entries, valuesOf 1 entries, lastOf 15 entries, lastOf 29 entries⟩

theorem valuesOf_concat (tag : Nat) (entries : List (Nat × Nat)) (entry : Nat × Nat) :
    valuesOf tag (entries ++ [entry]) =
      valuesOf tag entries ++ if entry.1 = tag then [entry.2] else [] := by
  unfold valuesOf
  rw [List.filter_append, List.map_append, List.filter_cons]
  by_cases h : entry.1 = tag <;> simp [h]

theorem lastOf_concat (tag : Nat) (entries : List (Nat × Nat)) (entry : Nat × Nat) :
    lastOf tag (entries ++ [entry]) =
      if entry.1 = tag then some entry.2 else lastOf tag entries := by
  unfold lastOf
  rw [valuesOf_concat]
  by_cases h : entry.1 = tag <;> simp [h]

theorem tagsOf_concat (entries : List (Nat × Nat)) (entry : Nat × Nat) :
    tagsOf (entries ++ [entry]) = (tagsOf entries).add entry.1 entry.2 := by
  unfold Tags.add
  -- a tag is one of the five or none of them
  by_cases h1 : entry.1 = 1
  · simp [tagsOf, lastOf_concat, valuesOf_concat, h1]
  by_cases h5 : entry.1 = 5
  · simp [tagsOf, lastOf_concat, valuesOf_concat, h5]
  by_cases h10 : entry.1 = 10
  · simp [tagsOf, lastOf_concat, valuesOf_concat, h10]
  by_cases h15 : entry.1 = 15
  · simp [tagsOf, lastOf_concat, valuesOf_concat, h15]
  by_cases h29 : entry.1 = 29
  · simp [tagsOf, lastOf_concat, valuesOf_concat, h29]
  · simp [tagsOf, lastOf_concat, valuesOf_concat, h1, h5, h10, h15, h29]

/-- The loop from some entry on. -/
theorem readTags_from {start size count index : Nat} (hinside : start + size ≤ bytes.length)
    (hcount : 16 * (index + count) ≤ size) (entries : List (Nat × Nat)) :
    readTags ((bytes.drop start).take size) count (16 * index) (tagsOf entries) =
      .ok (tagsOf (entries ++
        ((List.range' index count).map (dynamicEntry bytes start)).takeWhile (·.1 ≠ 0))) := by
  induction count generalizing index entries with
  | zero =>
    rw [List.range'_zero, List.map_nil, List.takeWhile_nil, List.append_nil]
    rfl
  | succ count ih =>
    have hchunk : (((bytes.drop start).take size).drop (16 * index)).take 16 =
        (bytes.drop (start + 16 * index)).take 16 := by
      rw [List.drop_take, List.drop_drop, List.take_take, Nat.min_eq_left (by omega)]
    have hread : ∀ {offset}, offset + 8 ≤ 16 →
        readU64 ((bytes.drop (start + 16 * index)).take 16) offset =
          .ok (leAt 8 bytes (start + 16 * index + offset)) := by
      intro offset hoffset
      have hlength : ((bytes.drop (start + 16 * index)).take 16).length = 16 := by
        rw [List.length_take, List.length_drop]
        omega
      rw [← leAt_part hoffset]
      exact readLe_eq_leAt (hlength.symm ▸ by decide) (hlength.symm ▸ hoffset)
    rw [readTags, hchunk, hread (by decide), ok_bind, hread (by decide), ok_bind,
      List.range'_succ, List.map_cons, List.takeWhile_cons]
    have hentry : dynamicEntry bytes start index =
        (leAt 8 bytes (start + 16 * index), leAt 8 bytes (start + 16 * index + 8)) := rfl
    rw [Nat.add_zero]
    by_cases hnull : leAt 8 bytes (start + 16 * index) = 0
    · rw [if_pos hnull, hentry]
      simp [hnull]
    · have hnext := @ih (index + 1) (by omega)
        (entries ++ [dynamicEntry bytes start index])
      rw [tagsOf_concat, Nat.mul_add, Nat.mul_one, List.append_assoc] at hnext
      rw [if_neg hnull]
      refine hnext.trans ?_
      simp [hentry, hnull]

theorem readTags_eq_ok {start size : Nat} (hinside : start + size ≤ bytes.length) :
    readTags ((bytes.drop start).take size) (size / 16) 0 ⟨none, none, [], none, none⟩ =
      .ok (tagsOf (dynamicEntries bytes start size)) := by
  have h : readTags ((bytes.drop start).take size) (size / 16) (16 * 0) (tagsOf []) = _ :=
    readTags_from hinside (by omega) []
  rwa [← List.range_eq_range'] at h

/-! ## Strings -/

/-- The text stands at a place, with a null byte after it. -/
def NulAt (bytes : List UInt8) (place : Nat) (text : String) : Prop :=
  Utf8.bytes text ++ [0] <+: bytes.drop place ∧ 0 ∉ Utf8.bytes text

theorem nulAt_iff {place : Nat} :
    NulAt bytes place text ↔
      0 ∈ bytes.drop place ∧ (bytes.drop place).takeWhile (· ≠ 0) = Utf8.bytes text := by
  constructor
  · rintro ⟨⟨rest, hrest⟩, hnul⟩
    rw [← hrest]
    refine ⟨by simp, ?_⟩
    rw [List.append_assoc, List.takeWhile_append_of_pos]
    · simp
    · intro b hb
      exact decide_eq_true fun heq => hnul (heq ▸ hb)
  · rintro ⟨hmem, htext⟩
    have hnul : 0 ∉ Utf8.bytes text := by
      rw [← htext]
      intro hzero
      simpa using List.mem_takeWhile_imp hzero
    refine ⟨?_, hnul⟩
    have hsplit : (bytes.drop place).takeWhile (· ≠ 0) ++ (bytes.drop place).dropWhile (· ≠ 0) =
        bytes.drop place := List.takeWhile_append_dropWhile
    rw [htext] at hsplit
    cases hrest : (bytes.drop place).dropWhile (· ≠ 0) with
    | nil =>
      rw [hrest, List.append_nil] at hsplit
      rw [← hsplit] at hmem
      exact absurd hmem hnul
    | cons b rest =>
      have hb : b = 0 := by
        have hhead := List.head?_dropWhile_not (fun b : UInt8 => decide (b ≠ 0)) (bytes.drop place)
        rw [hrest] at hhead
        simpa using hhead
      rw [hrest, hb] at hsplit
      exact ⟨rest, by rw [← hsplit]; simp⟩

/-- The place of the first null byte. -/
theorem findIdx?_zero {tail : List UInt8} {stop : Nat} :
    tail.findIdx? (· == 0) = some stop ↔ 0 ∈ tail ∧ (tail.takeWhile (· ≠ 0)).length = stop := by
  induction tail generalizing stop with
  | nil => simp
  | cons b tail ih =>
    by_cases hb : b = 0
    · simp [List.findIdx?_cons, hb]
    · simp [List.findIdx?_cons, hb, ih, Ne.symm hb, and_assoc]

theorem indexTo_takeWhile (tail : List UInt8) :
    (indexTo tail (tail.takeWhile (· ≠ 0)).length : Outcome (List UInt8)) =
      .ok (tail.takeWhile (· ≠ 0)) := by
  have hpart : tail.takeWhile (· ≠ 0) <+: tail := List.takeWhile_prefix _
  unfold indexTo
  rw [if_pos hpart.length_le, ← List.prefix_iff_eq_take.mp hpart]

theorem dynamicString_eq_ok {strings : List UInt8} {offset : Nat} :
    dynamicString strings offset = .ok text ↔
      NulAt strings offset text ∧ Utf8.bytes text ≠ [] := by
  rw [nulAt_iff]
  unfold dynamicString
  simp only [bind_eq_ok, lift_eq_ok, rejectIf_eq_ok, okOr_eq_ok, findIdx?_zero,
    Utf8.fromUtf8_eq_some]
  constructor
  · rintro ⟨_, _, stop, ⟨hmem, rfl⟩, _, hne, part, hpart, htext⟩
    rw [indexTo_takeWhile, Except.ok.injEq] at hpart
    rw [hpart, List.length_eq_zero_iff] at hne
    exact ⟨⟨hmem, hpart.trans htext.symm⟩, htext ▸ hne⟩
  · rintro ⟨⟨hmem, htext⟩, hne⟩
    refine ⟨(), ?_, _, ⟨hmem, rfl⟩, (), ?_, _, indexTo_takeWhile _, htext.symm⟩
    · intro hlt
      simp [List.drop_eq_nil_of_le hlt.le] at hmem
    · rwa [htext, List.length_eq_zero_iff]

/-- A string in a part of the bytes. -/
theorem nulAt_part {start size offset : Nat} :
    NulAt ((bytes.drop start).take size) offset text ↔
      NulAt bytes (start + offset) text ∧ offset + (Utf8.bytes text).length + 1 ≤ size := by
  unfold NulAt
  rw [List.drop_take, List.drop_drop, List.prefix_take_iff, List.length_append,
    List.length_singleton]
  constructor
  · rintro ⟨⟨hstands, hle⟩, hnul⟩
    exact ⟨⟨hstands, hnul⟩, by omega⟩
  · rintro ⟨⟨hstands, hnul⟩, hle⟩
    exact ⟨⟨hstands, by omega⟩, hnul⟩

end ProofboundRuntime.Scaffold
