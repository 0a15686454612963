import ProofboundRuntime.Scaffold.ElfImage

/-!
# Sums and slices of `parse_elf`

Four sums of the parser are taken without a check: the ends of the table of program headers, of
the interpreter text, of the dynamic section and of the string table.  Their operands are numbers
of the image, so each can overflow (`parseElf_overflows`).  The end of the string table is not
compared with the end of the load segment that holds its address either.  `inRange_iff` says by
the fields of the image when the parser stays in range.
-/

namespace ProofboundRuntime.Scaffold

open Result Checked

/-- The bytes of a file in memory. -/
structure Image where
  bytes : List UInt8
  length_lt : bytes.length < usizeBound

/-! ## Fields that are accepted -/

/-- The header is accepted and the table lies inside the image. -/
structure TableAccepted (bytes : List UInt8) (architecture : Architecture) : Prop where
  header : HeaderAccepted bytes architecture
  inside : tableOffset bytes + tableBytes bytes ≤ bytes.length

/-- The section is one that the parser reads. -/
structure SectionAccepted (bytes : List UInt8) (architecture : Architecture)
    (header : ProgramHeader) : Prop where
  table : TableAccepted bytes architecture
  headers : HeadersAccepted bytes (programHeaders bytes)
  dynamic : header ∈ ofKind 2 (programHeaders bytes)
  chunks : header.size % 16 = 0
  bound : header.size ≤ maxStringTableBytes

/-- The entries of a dynamic section. -/
def ProgramHeader.entries (bytes : List UInt8) (header : ProgramHeader) : List (Nat × Nat) :=
  dynamicEntries bytes header.offset header.size

/-- What the loop collects of all program headers. -/
abbrev imageSegments (bytes : List UInt8) : Segments := segmentsOf bytes (programHeaders bytes)

/-- The place in the file of an address. -/
def stringPlace (bytes : List UInt8) (address : Nat) : Option Nat :=
  ((ofKind 1 (programHeaders bytes)).map ProgramHeader.load).findSome?
    (LoadSegment.fileOffset address)

/-- The entries name a string table with an address, a place in the file and a size. -/
structure NamesTable (bytes : List UInt8) (entries : List (Nat × Nat)) (address place size : Nat) :
    Prop where
  hasAddress : lastOf 5 entries = some address
  hasSize : lastOf 10 entries = some size
  nonempty : size ≠ 0
  bound : size ≤ maxStringTableBytes
  hasPlace : stringPlace bytes address = some place

/-- The parser comes to the string table of the section. -/
structure TableRead (bytes : List UInt8) (architecture : Architecture) (header : ProgramHeader)
    (address place size : Nat) : Prop where
  accepted : SectionAccepted bytes architecture header
  inside : header.offset + header.size ≤ bytes.length
  names : NamesTable bytes (header.entries bytes) address place size

/-- The parser comes to an unchecked sum that does not fit. -/
inductive SumOverflows (bytes : List UInt8) (architecture : Architecture) : Prop where
  | table (header : HeaderAccepted bytes architecture)
      (sum : usizeBound ≤ tableOffset bytes + tableBytes bytes)
  | interpreter (table : TableAccepted bytes architecture) (index : Nat)
      (lt : index < entryCount bytes)
      (before : HeadersAccepted bytes ((programHeaders bytes).take index))
      (first : ofKind 3 ((programHeaders bytes).take index) = [])
      (kind : (programHeader bytes index).kind = 3)
      (sum : usizeBound ≤ (programHeader bytes index).offset + (programHeader bytes index).size)
  | dynamic (header : ProgramHeader) (accepted : SectionAccepted bytes architecture header)
      (sum : usizeBound ≤ header.offset + header.size)
  | strings (header : ProgramHeader) (address place size : Nat)
      (read : TableRead bytes architecture header address place size)
      (sum : usizeBound ≤ place + size)

/-- The offsets in the string table that the section uses. -/
def stringValues (entries : List (Nat × Nat)) : List Nat :=
  valuesOf 1 entries ++ (lastOf 15 entries).toList ++ (lastOf 29 entries).toList

/-- The parser accepts the strings of a table at a place. -/
structure StringsAccepted (bytes : List UInt8) (entries : List (Nat × Nat)) (place size : Nat) :
    Prop where
  inside : place + size ≤ bytes.length
  texts : ∀ value ∈ stringValues entries, ∃ text, NulAt bytes (place + value) text ∧
    value + (Utf8.bytes text).length + 1 ≤ size ∧ Utf8.bytes text ≠ []
  names : ∀ value ∈ valuesOf 1 entries, ∀ text, NulAt bytes (place + value) text →
    '/' ∉ text.toList

/-! ## The steps of the parser -/

variable {bytes : List UInt8} {architecture : Architecture}

/-- The loop overflows at a first interpreter text, after headers that are taken. -/
theorem overflows_foldlM_readSegment (hlength : bytes.length < usizeBound)
    (hinside : tableOffset bytes + tableBytes bytes ≤ bytes.length)
    (hsize : programHeaderBytes ≤ entrySize bytes) :
    Overflows ((List.range (entryCount bytes)).foldlM
        (readSegment bytes (tableOf bytes) (entrySize bytes)) ⟨none, none, []⟩) ↔
      ∃ index < entryCount bytes,
        HeadersAccepted bytes ((programHeaders bytes).take index) ∧
        ofKind 3 ((programHeaders bytes).take index) = [] ∧
        (programHeader bytes index).kind = 3 ∧
        usizeBound ≤ (programHeader bytes index).offset + (programHeader bytes index).size := by
  rw [overflows_foldlM]
  constructor
  · rintro ⟨i, index, hindex, segments, hbefore, hover⟩
    obtain ⟨hlt, hi⟩ := List.getElem?_eq_some_iff.mp hindex
    rw [List.getElem_range] at hi
    rw [List.length_range] at hlt
    subst hi
    rw [List.take_range, Nat.min_eq_left hlt.le,
      foldlM_readSegment_eq_ok hlength hinside hsize hlt.le] at hbefore
    obtain ⟨haccepted, heq⟩ := hbefore
    rw [readSegment_eq hlength hinside hsize hlt, overflows_addHeader, ← heq,
      haccepted.interpreter_eq_none hlength] at hover
    exact ⟨i, hlt, haccepted, hover.2.1, hover.1, hover.2.2⟩
  · rintro ⟨index, hlt, haccepted, hempty, hkind, hsum⟩
    refine ⟨index, index, List.getElem?_range hlt,
      segmentsOf bytes ((programHeaders bytes).take index), ?_, ?_⟩
    · rw [List.take_range, Nat.min_eq_left hlt.le,
        foldlM_readSegment_eq_ok hlength hinside hsize hlt.le]
      exact ⟨haccepted, rfl⟩
    · rw [readSegment_eq hlength hinside hsize hlt, overflows_addHeader]
      exact ⟨hkind, (haccepted.interpreter_eq_none hlength).mpr hempty, hsum⟩

theorem not_overflows_dynamicString (strings : List UInt8) (offset : Nat) :
    ¬ Overflows (dynamicString strings offset) := by
  unfold dynamicString
  simp only [overflows_bind, overflows_lift, overflows_indexTo, and_false, exists_false, or_self,
    not_false_eq_true]

theorem not_overflows_optionalPaths (strings : List UInt8) (offset : Option Nat) :
    ¬ Overflows (optionalPaths strings offset) := by
  cases offset with
  | none => exact id
  | some offset =>
    unfold optionalPaths dynamicPaths
    simp only [overflows_bind, not_overflows_dynamicString, overflows_pure, and_false,
      exists_false, or_self, not_false_eq_true]

section Dynamic

variable {entries : List (Nat × Nat)} {header : ProgramHeader} {address place size : Nat}
  {info : DynamicInfo}

/-- The string table is the slice at its place. -/
theorem overflows_stringTable :
    Overflows (stringTable bytes (imageSegments bytes).loads (tagsOf entries)) ↔
      ∃ address place size, NamesTable bytes entries address place size ∧
        usizeBound ≤ place + size := by
  unfold stringTable
  simp only [overflows_bind, overflows_lift, lift_eq_ok, okOr_eq_ok, rejectIf_eq_ok,
    overflows_slice, not_or, Nat.not_lt, false_or, exists_const]
  constructor
  · rintro ⟨address, haddress, size, hsize, ⟨hne, hbound⟩, place, hplace, hsum⟩
    exact ⟨address, place, size, ⟨haddress, hsize, hne, hbound, hplace⟩, hsum⟩
  · rintro ⟨address, place, size, ⟨haddress, hsize, hne, hbound, hplace⟩, hsum⟩
    exact ⟨address, haddress, size, hsize, ⟨hne, hbound⟩, place, hplace, hsum⟩

theorem stringTable_eq_ok (hlength : bytes.length < usizeBound) {strings : List UInt8} :
    stringTable bytes (imageSegments bytes).loads (tagsOf entries) = .ok strings ↔
      ∃ address place size, NamesTable bytes entries address place size ∧
        place + size ≤ bytes.length ∧ strings = (bytes.drop place).take size := by
  unfold stringTable
  simp only [bind_eq_ok, lift_eq_ok, okOr_eq_ok, rejectIf_eq_ok, slice_eq_ok hlength, not_or,
    Nat.not_lt, exists_const]
  constructor
  · rintro ⟨address, haddress, size, hsize, ⟨hne, hbound⟩, place, hplace, hstrings⟩
    exact ⟨address, place, size, ⟨haddress, hsize, hne, hbound, hplace⟩, hstrings⟩
  · rintro ⟨address, place, size, ⟨haddress, hsize, hne, hbound, hplace⟩, hstrings⟩
    exact ⟨address, haddress, size, hsize, ⟨hne, hbound⟩, place, hplace, hstrings⟩

/-- Only the ends of the section and of the string table can overflow in a dynamic section. -/
theorem overflows_parseDynamic (hlength : bytes.length < usizeBound) :
    Overflows (parseDynamic bytes (imageSegments bytes) header.offset header.size) ↔
      header.size % 16 = 0 ∧ header.size ≤ maxStringTableBytes ∧
        (usizeBound ≤ header.offset + header.size ∨
          header.offset + header.size ≤ bytes.length ∧ ∃ address place size,
            NamesTable bytes (header.entries bytes) address place size ∧
              usizeBound ≤ place + size) := by
  rw [← overflows_stringTable, ProgramHeader.entries]
  unfold parseDynamic
  simp only [overflows_bind, overflows_lift, lift_eq_ok, rejectIf_eq_ok, not_or, not_not,
    Nat.not_lt, false_or, exists_const, and_assoc, overflows_slice, slice_eq_ok hlength]
  refine and_congr_right fun _ => and_congr_right fun _ => or_congr_right ?_
  constructor
  · rintro ⟨entries, hinside, hentries, h⟩
    subst hentries
    -- after the string table no sum is taken
    simpa only [readTags_eq_ok hinside, overflows_ok, false_or, Except.ok.injEq, exists_eq_left',
      not_overflows_optionalPaths, not_overflows_collect (not_overflows_dynamicString _),
      overflows_pure, and_false, exists_false, or_false, hinside, true_and] using h
  · rintro ⟨hinside, h⟩
    refine ⟨_, hinside, rfl, .inr ⟨_, readTags_eq_ok hinside, .inl h⟩⟩

/-! ## Strings that are read -/

theorem NulAt.unique {text text' : String} (h : NulAt bytes place text)
    (h' : NulAt bytes place text') : text = text' := by
  rw [nulAt_iff] at h h'
  exact Utf8.bytes_injective (h.2.symm.trans h'.2)

/-- The paths are the entries of the text at an offset of the table. -/
def PathsBy (Stands : Nat → String → Prop) (value : Option Nat) (paths : List String) : Prop :=
  match value with
  | none => paths = []
  | some value => ∃ text, Stands value text ∧ paths = searchEntries text

/-- The names and the paths of a dynamic section, by the texts at offsets of the table. -/
structure StringsBy (Stands : Nat → String → Prop) (entries : List (Nat × Nat))
    (info : DynamicInfo) : Prop where
  needed : List.Forall₂ Stands (valuesOf 1 entries) info.needed
  rpath : PathsBy Stands (lastOf 15 entries) info.rpath
  runpath : PathsBy Stands (lastOf 29 entries) info.runpath

/-- What the parser reads of the dynamic section, from the string table at a place. -/
def Reads (bytes : List UInt8) (entries : List (Nat × Nat)) (place : Nat) : DynamicInfo → Prop :=
  StringsBy (fun value => NulAt bytes (place + value)) entries

section StringsBy

variable {Stands Stands' : Nat → String → Prop} {last : Option Nat} {paths : List String}

theorem PathsBy.imp (h : PathsBy Stands last paths)
    (himp : ∀ value ∈ last.toList, ∀ text, Stands value text → Stands' value text) :
    PathsBy Stands' last paths := by
  cases last with
  | none => exact h
  | some value =>
    obtain ⟨text, htext, hpaths⟩ := h
    exact ⟨text, himp value (Option.mem_toList.mpr rfl) text htext, hpaths⟩

theorem PathsBy.exists_text (h : PathsBy Stands last paths) {value : Nat}
    (hvalue : value ∈ last.toList) : ∃ text, Stands value text := by
  cases last with
  | none => cases hvalue
  | some v =>
    obtain ⟨text, htext, -⟩ := h
    exact ⟨text, List.mem_singleton.mp hvalue ▸ htext⟩

theorem mem_stringValues {value : Nat} :
    value ∈ stringValues entries ↔ value ∈ valuesOf 1 entries ∨
      value ∈ (lastOf 15 entries).toList ∨ value ∈ (lastOf 29 entries).toList := by
  rw [stringValues, List.mem_append, List.mem_append, or_assoc]

theorem StringsBy.imp (h : StringsBy Stands entries info)
    (himp : ∀ value ∈ stringValues entries, ∀ text, Stands value text → Stands' value text) :
    StringsBy Stands' entries info := by
  simp only [mem_stringValues, or_imp, forall_and] at himp
  have hneeded := (List.forall₂_and_left _ _).mpr ⟨himp.1, h.needed⟩
  exact ⟨hneeded.imp fun value name hname => hname.1 name hname.2, h.rpath.imp himp.2.1,
    h.runpath.imp himp.2.2⟩

theorem StringsBy.exists_text (h : StringsBy Stands entries info) {value : Nat}
    (hvalue : value ∈ stringValues entries) : ∃ text, Stands value text := by
  rcases mem_stringValues.mp hvalue with hvalue | hvalue | hvalue
  · exact exists_of_forall₂ h.needed hvalue
  · exact h.rpath.exists_text hvalue
  · exact h.runpath.exists_text hvalue

end StringsBy

theorem dynamicString_part {value : Nat} {text : String} :
    dynamicString ((bytes.drop place).take size) value = .ok text ↔
      NulAt bytes (place + value) text ∧ value + (Utf8.bytes text).length + 1 ≤ size ∧
        Utf8.bytes text ≠ [] := by
  rw [dynamicString_eq_ok, nulAt_part, and_assoc]

theorem optionalPaths_part {offset : Option Nat} {paths : List String}
    (h : optionalPaths ((bytes.drop place).take size) offset = .ok paths) :
    PathsBy (fun value => NulAt bytes (place + value)) offset paths ∧ ∀ value ∈ offset.toList, ∃ text,
      NulAt bytes (place + value) text ∧ value + (Utf8.bytes text).length + 1 ≤ size ∧
        Utf8.bytes text ≠ [] := by
  cases offset with
  | none => exact ⟨(pure_eq_ok.mp h).symm, by simp⟩
  | some value =>
    obtain ⟨text, htext, h⟩ := bind_eq_ok.mp h
    have hpart := dynamicString_part.mp htext
    refine ⟨⟨text, hpart.1, (pure_eq_ok.mp h).symm⟩, fun other hother => ?_⟩
    rw [Option.toList_some, List.mem_singleton] at hother
    exact ⟨text, hother ▸ hpart⟩

theorem exists_optionalPaths {offset : Option Nat}
    (h : ∀ value ∈ offset.toList, ∃ text, dynamicString ((bytes.drop place).take size) value =
      .ok text) :
    ∃ paths, optionalPaths ((bytes.drop place).take size) offset = .ok paths := by
  cases offset with
  | none => exact ⟨[], rfl⟩
  | some value =>
    obtain ⟨text, htext⟩ := h value (Option.mem_toList.mpr rfl)
    refine ⟨searchEntries text, ?_⟩
    rw [optionalPaths, dynamicPaths, htext, ok_bind]
    rfl

/-- The parser accepts a dynamic section whose strings are accepted. -/
theorem exists_parseDynamic (hlength : bytes.length < usizeBound)
    (hread : TableRead bytes architecture header address place size)
    (hstrings : StringsAccepted bytes (header.entries bytes) place size) :
    ∃ info, parseDynamic bytes (imageSegments bytes) header.offset header.size = .ok info := by
  have htexts : ∀ value ∈ stringValues (header.entries bytes), ∃ text,
      dynamicString ((bytes.drop place).take size) value = .ok text := by
    intro value hvalue
    obtain ⟨text, htext⟩ := hstrings.texts value hvalue
    exact ⟨text, dynamicString_part.mpr htext⟩
  simp only [mem_stringValues, or_imp, forall_and] at htexts
  obtain ⟨hneeded, hrpath, hrunpath⟩ := htexts
  obtain ⟨needed, hneeded⟩ := exists_collect hneeded
  obtain ⟨rpath, hrpath⟩ := exists_optionalPaths hrpath
  obtain ⟨runpath, hrunpath⟩ := exists_optionalPaths hrunpath
  have hnames : ¬ (needed.any fun name => name.toList.contains '/') = true := by
    rw [List.any_eq_true]
    rintro ⟨name, hname, hslash⟩
    obtain ⟨value, hvalue, htext⟩ := (mem_of_collect hneeded).mp hname
    exact hstrings.names value hvalue name (dynamicString_part.mp htext).1 (by simpa using hslash)
  have hchecks : ¬ (header.size % 16 ≠ 0 ∨ maxStringTableBytes < header.size) := by
    have := hread.accepted.chunks
    have := hread.accepted.bound
    omega
  apply Exists.intro
  unfold parseDynamic
  rw [rejectIf_false hchecks, lift_ok, ok_bind, (slice_eq_ok hlength).mpr ⟨hread.inside, rfl⟩,
    ok_bind, readTags_eq_ok hread.inside, ok_bind, ← ProgramHeader.entries,
    (stringTable_eq_ok hlength).mpr ⟨address, place, size, hread.names, hstrings.inside, rfl⟩,
    ok_bind]
  dsimp only [tagsOf]
  rw [hneeded, ok_bind, rejectIf_false hnames, lift_ok, ok_bind, hrpath, ok_bind, hrunpath]
  rfl

/-- What is known of an accepted dynamic section. -/
theorem reads_of_parseDynamic (hlength : bytes.length < usizeBound)
    (h : parseDynamic bytes (imageSegments bytes) header.offset header.size = .ok info) :
    header.size % 16 = 0 ∧ header.size ≤ maxStringTableBytes ∧
      header.offset + header.size ≤ bytes.length ∧ ∃ address place size,
        NamesTable bytes (header.entries bytes) address place size ∧
        StringsAccepted bytes (header.entries bytes) place size ∧
        Reads bytes (header.entries bytes) place info := by
  unfold parseDynamic at h
  obtain ⟨hchecks, h⟩ := check_bind_eq_ok.mp h
  rw [lift_eq_ok, rejectIf_eq_ok] at hchecks
  obtain ⟨entries, hentries, h⟩ := bind_eq_ok.mp h
  obtain ⟨hinside, rfl⟩ := (slice_eq_ok hlength).mp hentries
  rw [readTags_eq_ok hinside, ok_bind] at h
  obtain ⟨strings, hstrings, h⟩ := bind_eq_ok.mp h
  obtain ⟨address, place, size, hnames, hplace, rfl⟩ := (stringTable_eq_ok hlength).mp hstrings
  obtain ⟨needed, hneeded, h⟩ := bind_eq_ok.mp h
  obtain ⟨hslash, h⟩ := check_bind_eq_ok.mp h
  rw [lift_eq_ok, rejectIf_eq_ok, List.any_eq_true] at hslash
  obtain ⟨rpath, hrpath, h⟩ := bind_eq_ok.mp h
  obtain ⟨runpath, hrunpath, h⟩ := bind_eq_ok.mp h
  cases pure_eq_ok.mp h
  obtain ⟨hrpath, hrpathTexts⟩ := optionalPaths_part hrpath
  obtain ⟨hrunpath, hrunpathTexts⟩ := optionalPaths_part hrunpath
  refine ⟨by omega, by omega, hinside, address, place, size, hnames, ⟨hplace, ?_, ?_⟩, ?_, hrpath,
    hrunpath⟩
  · intro value hvalue
    rcases mem_stringValues.mp hvalue with hvalue | hvalue | hvalue
    · obtain ⟨text, -, htext⟩ := exists_of_collect hneeded hvalue
      exact ⟨text, dynamicString_part.mp htext⟩
    · exact hrpathTexts value hvalue
    · exact hrunpathTexts value hvalue
  · intro value hvalue text htext hmem
    obtain ⟨name, hname, hfound⟩ := exists_of_collect hneeded hvalue
    refine hslash ⟨name, hname, ?_⟩
    rw [(dynamicString_part.mp hfound).1.unique htext]
    simpa using hmem
  · exact (collect_eq_ok.mp hneeded).imp fun _ _ htext => (dynamicString_part.mp htext).1

end Dynamic

/-! ## The whole parser -/

/-- The parser after the checks of the header. -/
theorem parseElf_cases (bytes : List UInt8) (architecture : Architecture) :
    HeaderAccepted bytes architecture ∧ parseElf bytes architecture =
        parseTable bytes (tableOffset bytes) (entrySize bytes) (entryCount bytes) ∨
      ¬ HeaderAccepted bytes architecture ∧
        ∃ e, parseElf bytes architecture = .error (.error e) := by
  unfold parseElf
  by_cases hheader : bytes.length < elfHeaderBytes
  · right
    rw [rejectIf_true hheader]
    exact ⟨fun h => absurd h.length (Nat.not_le.mpr hheader), .elfInvalid, rfl⟩
  have hread : ∀ {width offset : Nat}, offset + width ≤ elfHeaderBytes →
      readLe width (bytes.take elfHeaderBytes) offset = .ok (leAt width bytes offset) := by
    intro width offset hle
    have hshort : (bytes.take elfHeaderBytes).length = elfHeaderBytes := by
      rw [List.length_take]
      omega
    have hpart : leAt width ((bytes.drop 0).take elfHeaderBytes) offset =
      leAt width bytes (0 + offset) := leAt_part hle
    rw [List.drop_zero, Nat.zero_add] at hpart
    rw [readLe_eq_leAt (hshort.symm ▸ by decide) (hshort.symm ▸ hle), hpart]
  unfold readU16 readU64
  rw [rejectIf_false hheader, lift_ok, ok_bind]
  dsimp only
  rw [hread (by decide), ok_bind, hread (by decide), ok_bind, List.take_take,
    Nat.min_eq_left (by decide)]
  by_cases hform : bytes.take 7 ≠ [0x7f, 0x45, 0x4c, 0x46, 2, 1, 1] ∨
      leAt 2 bytes 52 ≠ elfHeaderBytes ∨ leAt 2 bytes 54 < programHeaderBytes
  · right
    rw [rejectIf_true hform]
    refine ⟨fun h => ?_, .elfInvalid, rfl⟩
    rcases hform with hident | hsize | hentry
    · exact hident h.ident
    · exact hsize h.headerSize
    · exact absurd h.entrySize (Nat.not_le.mpr hentry)
  rw [rejectIf_false hform, lift_ok, ok_bind, hread (by decide), ok_bind]
  by_cases hmachine : leAt 2 bytes 18 ≠ expectedMachine architecture
  · right
    rw [rejectIf_true hmachine]
    exact ⟨fun h => hmachine h.machine, .elfArchitectureMismatch, rfl⟩
  rw [rejectIf_false hmachine, lift_ok, ok_bind, hread (by decide), ok_bind, hread (by decide),
    ok_bind]
  by_cases hbound : maxStringTableBytes < leAt 2 bytes 54 * leAt 2 bytes 56
  · right
    rw [rejectIf_true hbound]
    exact ⟨fun h => absurd h.tableBytes (Nat.not_le.mpr hbound), .boundExceeded, rfl⟩
  · left
    rw [rejectIf_false hbound, lift_ok, ok_bind]
    push Not at hheader hform hmachine hbound
    exact ⟨⟨hheader, hform.1, hform.2.1, hform.2.2, hmachine, hbound⟩, rfl⟩

/-- The parser after the loop over the program headers. -/
def finish (bytes : List UInt8) (segments : Segments) : Outcome DynamicInfo :=
  match segments.dynamic with
  | none => pure (.static segments.interpreter)
  | some (start, size) => parseDynamic bytes segments start size

/-- The parser after the table was taken. -/
theorem parseTable_eq (hlength : bytes.length < usizeBound)
    (hinside : tableOffset bytes + tableBytes bytes ≤ bytes.length) :
    parseTable bytes (tableOffset bytes) (entrySize bytes) (entryCount bytes) =
      (List.range (entryCount bytes)).foldlM
        (readSegment bytes (tableOf bytes) (entrySize bytes)) ⟨none, none, []⟩ >>=
        finish bytes := by
  rw [parseTable, ← tableBytes, (slice_eq_ok hlength).mpr ⟨hinside, rfl⟩, ok_bind]
  rfl

/-- The loop takes all program headers when they are accepted. -/
theorem loop_eq_ok (hlength : bytes.length < usizeBound) (htable : TableAccepted bytes architecture)
    {segments : Segments} :
    (List.range (entryCount bytes)).foldlM (readSegment bytes (tableOf bytes) (entrySize bytes))
        ⟨none, none, []⟩ = .ok segments ↔
      HeadersAccepted bytes (programHeaders bytes) ∧ imageSegments bytes = segments := by
  rw [foldlM_readSegment_eq_ok hlength htable.inside htable.header.entrySize le_rfl,
    List.take_of_length_le]
  rw [programHeaders, List.length_map, List.length_range]

/-- Accepted headers have at most one dynamic section. -/
theorem finish_eq (h : HeadersAccepted bytes (programHeaders bytes)) :
    (ofKind 2 (programHeaders bytes) = [] ∧
        finish bytes (imageSegments bytes) = .ok (.static (imageSegments bytes).interpreter)) ∨
      ∃ header, ofKind 2 (programHeaders bytes) = [header] ∧
        finish bytes (imageSegments bytes) =
          parseDynamic bytes (imageSegments bytes) header.offset header.size := by
  have hle := h.dynamic
  have hplace : (imageSegments bytes).dynamic =
    (ofKind 2 (programHeaders bytes)).head?.map ProgramHeader.place := rfl
  rw [finish, hplace]
  cases hdynamic : ofKind 2 (programHeaders bytes) with
  | nil => exact .inl ⟨rfl, rfl⟩
  | cons header rest =>
    rw [hdynamic, List.length_cons] at hle
    obtain rfl := List.eq_nil_of_length_eq_zero (show rest.length = 0 by omega)
    exact .inr ⟨header, rfl, rfl⟩

/-- After the loop, only the dynamic section and its strings can overflow. -/
theorem overflows_finish (hlength : bytes.length < usizeBound)
    (htable : TableAccepted bytes architecture)
    (hheaders : HeadersAccepted bytes (programHeaders bytes)) :
    Overflows (finish bytes (imageSegments bytes)) ↔
      (∃ header, SectionAccepted bytes architecture header ∧
        usizeBound ≤ header.offset + header.size) ∨
      ∃ header address place size, TableRead bytes architecture header address place size ∧
        usizeBound ≤ place + size := by
  have hmem : ∀ {header}, SectionAccepted bytes architecture header →
      header ∈ ofKind 2 (programHeaders bytes) := fun haccepted => haccepted.dynamic
  rcases finish_eq hheaders with ⟨hnil, hfinish⟩ | ⟨header, hheader, hfinish⟩
  · rw [hnil] at hmem
    rw [hfinish]
    refine iff_of_false id fun hover => ?_
    rcases hover with ⟨header, haccepted, -⟩ | ⟨header, _, _, _, hread, -⟩
    · cases hmem haccepted
    · cases hmem hread.accepted
  · rw [hheader] at hmem
    rw [hfinish, overflows_parseDynamic hlength]
    constructor
    · rintro ⟨hchunks, hbound, hover⟩
      have haccepted : SectionAccepted bytes architecture header :=
        ⟨htable, hheaders, hheader ▸ List.mem_cons_self, hchunks, hbound⟩
      rcases hover with hsum | ⟨hinside, address, place, size, hnames, hsum⟩
      · exact .inl ⟨header, haccepted, hsum⟩
      · exact .inr ⟨header, address, place, size, ⟨haccepted, hinside, hnames⟩, hsum⟩
    · intro hover
      rcases hover with ⟨other, haccepted, hsum⟩ | ⟨other, address, place, size, hread, hsum⟩
      · obtain rfl := List.mem_singleton.mp (hmem haccepted)
        exact ⟨haccepted.chunks, haccepted.bound, .inl hsum⟩
      · obtain rfl := List.mem_singleton.mp (hmem hread.accepted)
        exact ⟨hread.accepted.chunks, hread.accepted.bound,
          .inr ⟨hread.inside, address, place, size, hread.names, hsum⟩⟩

/-- The parser stops at an overflow exactly on these images. -/
theorem overflows_parseElf (hlength : bytes.length < usizeBound) :
    Overflows (parseElf bytes architecture) ↔ SumOverflows bytes architecture := by
  rcases parseElf_cases bytes architecture with ⟨hheader, hparse⟩ | ⟨hnot, e, hparse⟩
  swap
  · rw [hparse]
    refine iff_of_false id fun h => hnot ?_
    cases h with
    | table hheader => exact hheader
    | interpreter htable => exact htable.header
    | dynamic _ haccepted => exact haccepted.table.header
    | strings _ _ _ _ hread => exact hread.accepted.table.header
  rw [hparse]
  by_cases hinside : tableOffset bytes + tableBytes bytes ≤ bytes.length
  swap
  · -- the table is not taken, so its end is the only sum
    have hslice : Overflows (parseTable bytes (tableOffset bytes) (entrySize bytes)
        (entryCount bytes)) ↔ usizeBound ≤ tableOffset bytes + tableBytes bytes := by
      rw [parseTable, ← tableBytes, overflows_bind, overflows_slice]
      simp only [slice_eq_ok hlength, hinside, false_and, exists_false, or_false]
    rw [hslice]
    constructor
    · exact .table hheader
    · intro h
      cases h with
      | table _ hsum => exact hsum
      | interpreter htable => exact absurd htable.inside hinside
      | dynamic _ haccepted => exact absurd haccepted.table.inside hinside
      | strings _ _ _ _ hread => exact absurd hread.accepted.table.inside hinside
  have htable : TableAccepted bytes architecture := ⟨hheader, hinside⟩
  rw [parseTable_eq hlength hinside, overflows_bind,
    overflows_foldlM_readSegment hlength hinside hheader.entrySize]
  simp only [loop_eq_ok hlength htable, and_assoc, exists_and_left, exists_eq_left']
  constructor
  · intro h
    rcases h with ⟨index, hlt, hbefore, hfirst, hkind, hsum⟩ | ⟨hheaders, h⟩
    · exact .interpreter htable index hlt hbefore hfirst hkind hsum
    · rcases (overflows_finish hlength htable hheaders).mp h with ⟨header, haccepted, hsum⟩ |
        ⟨header, address, place, size, hread, hsum⟩
      · exact .dynamic header haccepted hsum
      · exact .strings header address place size hread hsum
  · intro h
    cases h with
    | table _ hsum => omega
    | interpreter _ index hlt hbefore hfirst hkind hsum =>
      exact .inl ⟨index, hlt, hbefore, hfirst, hkind, hsum⟩
    | dynamic header haccepted hsum =>
      exact .inr ⟨haccepted.headers, (overflows_finish hlength htable haccepted.headers).mpr
        (.inl ⟨header, haccepted, hsum⟩)⟩
    | strings header address place size hread hsum =>
      have hheaders := hread.accepted.headers
      exact .inr ⟨hheaders, (overflows_finish hlength htable hheaders).mpr
        (.inr ⟨header, address, place, size, hread, hsum⟩)⟩

/-- The parser accepts an image with accepted strings. -/
theorem exists_parseElf (hlength : bytes.length < usizeBound) {header : ProgramHeader}
    {address place size : Nat} (hread : TableRead bytes architecture header address place size)
    (hstrings : StringsAccepted bytes (header.entries bytes) place size) :
    ∃ info, parseElf bytes architecture = .ok info := by
  obtain ⟨htable, hheaders, hmem, -⟩ := hread.accepted
  rcases parseElf_cases bytes architecture with ⟨-, hparse⟩ | ⟨hnot, -⟩
  swap
  · exact absurd htable.header hnot
  rw [hparse, parseTable_eq hlength htable.inside,
    (loop_eq_ok hlength htable).mpr ⟨hheaders, rfl⟩, ok_bind]
  rcases finish_eq hheaders with ⟨hnil, -⟩ | ⟨other, hother, hfinish⟩
  · simp [hnil] at hmem
  · rw [hother, List.mem_singleton] at hmem
    subst hmem
    rw [hfinish]
    exact exists_parseDynamic hlength hread hstrings

/-- An accepted image has no dynamic section, or one that is read. -/
theorem reads_of_parseElf (hlength : bytes.length < usizeBound) {info : DynamicInfo}
    (h : parseElf bytes architecture = .ok info) :
    (ofKind 2 (programHeaders bytes) = [] ∧
        info.needed = [] ∧ info.rpath = [] ∧ info.runpath = []) ∨
      ∃ header address place size, ofKind 2 (programHeaders bytes) = [header] ∧
        TableRead bytes architecture header address place size ∧
        StringsAccepted bytes (header.entries bytes) place size ∧
        Reads bytes (header.entries bytes) place info := by
  rcases parseElf_cases bytes architecture with ⟨hheader, hparse⟩ | ⟨-, e, hparse⟩
  swap
  · simp [hparse] at h
  rw [hparse] at h
  obtain ⟨table, htable, -⟩ := bind_eq_ok.mp h
  obtain ⟨hinside, -⟩ := (slice_eq_ok hlength).mp htable
  have htable : TableAccepted bytes architecture := ⟨hheader, hinside⟩
  rw [parseTable_eq hlength hinside] at h
  obtain ⟨segments, hloop, h⟩ := bind_eq_ok.mp h
  obtain ⟨hheaders, rfl⟩ := (loop_eq_ok hlength htable).mp hloop
  rcases finish_eq hheaders with ⟨hnil, hfinish⟩ | ⟨header, hheader, hfinish⟩
  · rw [hfinish] at h
    cases h
    exact .inl ⟨hnil, rfl, rfl, rfl⟩
  · rw [hfinish] at h
    obtain ⟨hchunks, hbound, hinside, address, place, size, hnames, hstrings, hreads⟩ :=
      reads_of_parseDynamic hlength h
    have haccepted : SectionAccepted bytes architecture header :=
      ⟨htable, hheaders, hheader ▸ List.mem_cons_self, hchunks, hbound⟩
    exact .inr ⟨header, address, place, size, hheader, ⟨haccepted, hinside, hnames⟩, hstrings,
      hreads⟩

/-! ## Indices -/

theorem inBounds_readLe (width : Nat) (bytes : List UInt8) (offset : Nat) :
    InBounds (readLe width bytes offset) := by
  unfold readLe
  refine inBounds_bind.mpr ⟨inBounds_slice .., fun part hpart => ?_⟩
  unfold slice at hpart
  split_ifs at hpart with hover hinside
  cases hpart
  rw [indexTo, if_pos, ok_bind]
  · trivial
  · rw [List.length_take, List.length_drop]
    omega

theorem inBounds_readTags (entries : List UInt8) (count start : Nat) (tags : Tags) :
    InBounds (readTags entries count start tags) := by
  induction count generalizing start tags with
  | zero => trivial
  | succ count ih =>
    unfold readTags readU64
    refine inBounds_bind.mpr ⟨inBounds_readLe .., fun tag _ => ?_⟩
    refine inBounds_bind.mpr ⟨inBounds_readLe .., fun value _ => ?_⟩
    split
    · trivial
    · exact ih _ _

theorem inBounds_dynamicString (strings : List UInt8) (offset : Nat) :
    InBounds (dynamicString strings offset) := by
  unfold dynamicString
  simp only [inBounds_bind, inBounds_lift, lift_eq_ok, okOr_eq_ok, findIdx?_zero, true_and]
  rintro - - stop ⟨-, rfl⟩ - -
  rw [indexTo_takeWhile]
  exact ⟨trivial, fun _ _ => trivial⟩

theorem inBounds_optionalPaths (strings : List UInt8) (offset : Option Nat) :
    InBounds (optionalPaths strings offset) := by
  cases offset with
  | none => trivial
  | some offset =>
    exact inBounds_bind.mpr ⟨inBounds_dynamicString .., fun _ _ => trivial⟩

/-- No slice is indexed outside its bounds. -/
theorem inBounds_parseElf (bytes : List UInt8) (architecture : Architecture) :
    InBounds (parseElf bytes architecture) := by
  have hsegment : ∀ table entrySize segments index,
      InBounds (readSegment bytes table entrySize segments index) := by
    intro table entrySize segments index
    unfold readSegment readU32 readU64 interpreterText
    simp only [inBounds_bind, inBounds_mul, inBounds_slice, inBounds_readLe, true_and]
    intro start _ entry _ kind _
    split_ifs <;> simp only [inBounds_bind, inBounds_lift, inBounds_slice, inBounds_readLe,
      inBounds_pure, implies_true, and_self]
  have hdynamic : ∀ segments start size, InBounds (parseDynamic bytes segments start size) := by
    intro segments start size
    unfold parseDynamic stringTable
    simp only [inBounds_bind, inBounds_lift, inBounds_slice, inBounds_readTags, inBounds_pure,
      inBounds_collect (inBounds_dynamicString _), inBounds_optionalPaths, implies_true, and_self]
  have htable : ∀ tableOffset entrySize entryCount,
      InBounds (parseTable bytes tableOffset entrySize entryCount) := by
    intro tableOffset entrySize entryCount
    unfold parseTable
    refine inBounds_bind.mpr ⟨inBounds_slice .., fun table _ => ?_⟩
    refine inBounds_bind.mpr ⟨inBounds_foldlM (hsegment table entrySize) _ _, fun segments _ => ?_⟩
    split
    · trivial
    · exact hdynamic segments _ _
  unfold parseElf readU16 readU64
  simp only [inBounds_bind, inBounds_lift, inBounds_readLe, htable, implies_true, and_self]

/-! ## Strings -/

/-- The load segment holds the address.  One whose end is no address holds none. -/
def ProgramHeader.Holds (address : Nat) (header : ProgramHeader) : Prop :=
  header.address + header.size < usizeBound ∧ header.address ≤ address ∧
    address < header.address + header.size

instance (address : Nat) : DecidablePred (ProgramHeader.Holds address) := fun header =>
  inferInstanceAs (Decidable (header.address + header.size < usizeBound ∧
    header.address ≤ address ∧ address < header.address + header.size))

/-- The first load segment that holds the address. -/
def firstSegment (bytes : List UInt8) (address : Nat) : Option ProgramHeader :=
  (ofKind 1 (programHeaders bytes)).find? fun header => decide (header.Holds address)

/-- The place in the file of an address that the segment holds. -/
def ProgramHeader.placeOf (address : Nat) (segment : ProgramHeader) : Nat :=
  segment.offset + (address - segment.address)

/-- The text stands at a place, with a null byte after it, inside the bytes of the segment. -/
def StringIn (bytes : List UInt8) (segment : ProgramHeader) (place : Nat) (text : String) : Prop :=
  NulAt bytes place text ∧ segment.offset ≤ place ∧
    place + (Utf8.bytes text).length + 1 ≤ segment.offset + segment.size

/-- The names and the paths are strings of the first load segment that holds the address of the
string table. -/
structure StringsInside (bytes : List UInt8) (info : DynamicInfo) : Prop where
  none : ofKind 2 (programHeaders bytes) = [] →
    info.needed = [] ∧ info.rpath = [] ∧ info.runpath = []
  some : ∀ header ∈ ofKind 2 (programHeaders bytes),
    ∃ address ∈ lastOf 5 (header.entries bytes), ∃ segment ∈ firstSegment bytes address,
      StringsBy (fun value => StringIn bytes segment (segment.placeOf address + value))
        (header.entries bytes) info

/-- The end of the string at a place, with its null byte. -/
def stringEnd (bytes : List UInt8) (place : Nat) : Nat :=
  place + ((bytes.drop place).takeWhile (· ≠ 0)).length + 1

/-- The strings that the entries use end in the segment that holds the address of the table. -/
def EndInside (bytes : List UInt8) (entries : List (Nat × Nat)) (address : Nat)
    (segment : ProgramHeader) : Prop :=
  ∀ value ∈ stringValues entries, segment.placeOf address < usizeBound ∧
    stringEnd bytes (segment.placeOf address + value) ≤ segment.offset + segment.size

theorem fileOffset_load {address place : Nat} {header : ProgramHeader} :
    header.load.fileOffset address = some place ↔
      header.Holds address ∧ header.placeOf address = place ∧ place < usizeBound := by
  unfold LoadSegment.fileOffset ProgramHeader.load ProgramHeader.Holds ProgramHeader.placeOf
    usizeBound
  dsimp only
  split
  next h =>
    rw [Option.some_inj]
    constructor
    · intro heq
      exact ⟨⟨h.1, h.2.1, h.2.2.1⟩, heq, heq ▸ h.2.2.2⟩
    · rintro ⟨_, heq, _⟩
      exact heq
  next h =>
    constructor
    · rintro ⟨⟩
    · rintro ⟨hholds, heq, hlt⟩
      exact absurd ⟨hholds.1, hholds.2.1, hholds.2.2, heq.symm ▸ hlt⟩ h

/-- A place is that of a segment that holds the address. -/
theorem exists_firstSegment {address place : Nat} (h : stringPlace bytes address = some place) :
    ∃ segment, firstSegment bytes address = some segment := by
  unfold stringPlace at h
  rw [List.findSome?_map] at h
  obtain ⟨header, hmem, hplace⟩ := List.exists_of_findSome?_eq_some h
  rw [← Option.isSome_iff_exists, firstSegment, List.find?_isSome]
  exact ⟨header, hmem, decide_eq_true (fileOffset_load.mp hplace).1⟩

theorem stringPlace_eq {address : Nat} {segment : ProgramHeader}
    (h : firstSegment bytes address = some segment)
    (hfits : segment.placeOf address < usizeBound) :
    stringPlace bytes address = some (segment.placeOf address) := by
  unfold firstSegment at h
  rw [stringPlace, List.findSome?_map]
  -- no segment before it holds the address, so none of them has a place
  obtain ⟨hholds, before, after, hsplit, hbefore⟩ := List.find?_eq_some_iff_append.mp h
  rw [hsplit, List.findSome?_append, List.findSome?_eq_none_iff.mpr, Option.none_or,
    List.findSome?_cons]
  · have hplace : (LoadSegment.fileOffset address ∘ ProgramHeader.load) segment =
        some (segment.placeOf address) :=
      fileOffset_load.mpr ⟨of_decide_eq_true hholds, rfl, hfits⟩
    rw [hplace]
  · intro header hheader
    rw [Function.comp_apply, Option.eq_none_iff_forall_ne_some]
    intro place hplace
    have hnot := hbefore header hheader
    simp [decide_eq_true (fileOffset_load.mp hplace).1] at hnot

theorem NulAt.stringEnd_eq {place : Nat} {text : String} (h : NulAt bytes place text) :
    stringEnd bytes place = place + (Utf8.bytes text).length + 1 := by
  rw [stringEnd, (nulAt_iff.mp h).2]

theorem NulAt.lt_length {place : Nat} {text : String} (h : NulAt bytes place text) :
    place < bytes.length := by
  by_contra hle
  have hmem := (nulAt_iff.mp h).1
  simp [List.drop_eq_nil_of_le (Nat.not_lt.mp hle)] at hmem

section Segment

variable {entries : List (Nat × Nat)} {segment : ProgramHeader} {address place : Nat}
  {info : DynamicInfo}

/-- A text that ends in the segment is a string of it. -/
theorem stringIn_of_endInside (hsegment : firstSegment bytes address = some segment)
    (hplace : stringPlace bytes address = some place)
    (hends : EndInside bytes entries address segment) {value : Nat}
    (hvalue : value ∈ stringValues entries) {text : String} (h : NulAt bytes (place + value) text) :
    StringIn bytes segment (segment.placeOf address + value) text := by
  obtain ⟨hfits, hend⟩ := hends value hvalue
  have hsame := stringPlace_eq hsegment hfits
  rw [hplace, Option.some_inj] at hsame
  subst hsame
  rw [h.stringEnd_eq] at hend
  have hoffset : segment.offset ≤ segment.placeOf address := Nat.le_add_right _ _
  exact ⟨h, by omega, hend⟩

theorem endInside_of_stringIn (hlength : bytes.length < usizeBound) {value : Nat} {text : String}
    (h : StringIn bytes segment (segment.placeOf address + value) text) :
    segment.placeOf address < usizeBound ∧
      stringEnd bytes (segment.placeOf address + value) ≤ segment.offset + segment.size := by
  have hlt := h.1.lt_length
  refine ⟨by omega, ?_⟩
  rw [h.1.stringEnd_eq]
  exact h.2.2

/-- The strings that were read are those of the segment exactly when they end inside it. -/
theorem Reads.stringsInside_iff (hlength : bytes.length < usizeBound) {header : ProgramHeader}
    (hheader : ofKind 2 (programHeaders bytes) = [header])
    (haddress : lastOf 5 (header.entries bytes) = some address)
    (hplace : stringPlace bytes address = some place)
    (hsegment : firstSegment bytes address = some segment)
    (h : Reads bytes (header.entries bytes) place info) :
    StringsInside bytes info ↔ EndInside bytes (header.entries bytes) address segment := by
  have hmem : header ∈ ofKind 2 (programHeaders bytes) := by
    rw [hheader]
    exact List.mem_cons_self
  constructor
  · intro hinside value hvalue
    obtain ⟨address', haddress', segment', hsegment', hstrings⟩ := hinside.some header hmem
    cases haddress.symm.trans haddress'
    cases hsegment.symm.trans hsegment'
    obtain ⟨text, htext⟩ := hstrings.exists_text hvalue
    exact endInside_of_stringIn hlength htext
  · intro hends
    refine ⟨fun hnil => ?_, fun header' hheader' => ?_⟩
    · simp [hnil] at hmem
    · rw [hheader, List.mem_singleton] at hheader'
      subst hheader'
      exact ⟨address, haddress, segment, hsegment, StringsBy.imp h fun value hvalue text =>
        stringIn_of_endInside hsegment hplace hends hvalue⟩

end Segment

/-! ## The range of the parser -/

/-- No sum overflows, no slice is taken outside of what it is taken from, and on success every
name and path is a string of the first load segment that holds the string table. -/
structure InRange (image : Image) (architecture : Architecture) : Prop where
  sums : ¬ Overflows (parseElf image.bytes architecture)
  slices : InBounds (parseElf image.bytes architecture)
  strings : ∀ info, parseElf image.bytes architecture = .ok info → StringsInside image.bytes info

/-- The parser stays in range unless it comes to a sum that overflows, or accepts the strings of
an image of which one ends past the load segment of the string table.  A table that ends in the
segment has no such string. -/
theorem inRange_iff (image : Image) (architecture : Architecture) :
    (InRange image architecture ↔
      ¬ SumOverflows image.bytes architecture ∧
        ∀ header address place size, TableRead image.bytes architecture header address place size →
          StringsAccepted image.bytes (header.entries image.bytes) place size →
          ∀ segment ∈ firstSegment image.bytes address,
            EndInside image.bytes (header.entries image.bytes) address segment) ∧
    ∀ header address place size, TableRead image.bytes architecture header address place size →
      StringsAccepted image.bytes (header.entries image.bytes) place size →
      ∀ segment ∈ firstSegment image.bytes address, segment.placeOf address = place →
        place + size ≤ segment.offset + segment.size →
        EndInside image.bytes (header.entries image.bytes) address segment := by
  have hlength := image.length_lt
  refine ⟨⟨fun h => ?_, fun h => ?_⟩, ?_⟩
  · refine ⟨fun hover => h.sums ((overflows_parseElf hlength).mpr hover), ?_⟩
    intro header address place size hread hstrings segment hsegment
    obtain ⟨info, hinfo⟩ := exists_parseElf hlength hread hstrings
    have hmem := hread.accepted.dynamic
    rcases reads_of_parseElf hlength hinfo with ⟨hnil, -⟩ | ⟨other, address', place', size',
      hheader, hread', -, hreads⟩
    · simp [hnil] at hmem
    · rw [hheader, List.mem_singleton] at hmem
      subst hmem
      cases hread.names.hasAddress.symm.trans hread'.names.hasAddress
      exact (hreads.stringsInside_iff hlength hheader hread'.names.hasAddress
        hread'.names.hasPlace hsegment).mp (h.strings info hinfo)
  · refine ⟨fun hover => h.1 ((overflows_parseElf hlength).mp hover), inBounds_parseElf _ _, ?_⟩
    intro info hinfo
    rcases reads_of_parseElf hlength hinfo with ⟨hnil, hempty⟩ | ⟨header, address, place, size,
      hheader, hread, hstrings, hreads⟩
    · refine ⟨fun _ => hempty, fun header hheader => ?_⟩
      simp [hnil] at hheader
    · obtain ⟨segment, hsegment⟩ := exists_firstSegment hread.names.hasPlace
      exact (hreads.stringsInside_iff hlength hheader hread.names.hasAddress hread.names.hasPlace
        hsegment).mpr (h.2 header address place size hread hstrings segment hsegment)
  · intro header address place size hread hstrings segment hsegment hplace hend value hvalue
    obtain ⟨text, htext, hle, -⟩ := hstrings.texts value hvalue
    have hinside := hstrings.inside
    rw [hplace, htext.stringEnd_eq]
    exact ⟨by omega, by omega⟩

/-- A header of an `x86_64` image with one program header, at the last place that there is. -/
def lastPlaceHeader : List UInt8 :=
  [0x7f, 0x45, 0x4c, 0x46, 2, 1, 1] ++ List.replicate 9 0 ++ [3, 0, 62, 0] ++
    List.replicate 12 0 ++ List.replicate 8 0xff ++ List.replicate 12 0 ++ [64, 0, 56, 0, 1, 0] ++
    List.replicate 6 0

theorem parseElf_overflows : ¬ InRange ⟨lastPlaceHeader, by decide⟩ .x86_64 := by
  intro h
  have hover : parseElf lastPlaceHeader .x86_64 = .error (.overflow .elfInvalid) := by
    decide +kernel
  apply h.sums
  rw [hover]
  trivial

end ProofboundRuntime.Scaffold
