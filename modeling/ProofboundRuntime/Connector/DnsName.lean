import ProofboundRuntime.Connector.DnsMessage

/-!
# Names in DNS messages

A name as `encode_query` writes it, and reading it back with `read_name`, at its
offset or through a compression pointer.

The rounds of `read_name` count labels, pointers and the end of the name alike
(`readNameLoop_labels`), so whether a pointer can be followed depends on the number of
labels: `readsBack_iff`.
-/

namespace ProofboundRuntime.Connector.Dns

open Result
open ProofboundRuntime.Core (ServiceName)

/-! ## Encoding -/

/-- The labels of a name. -/
def labels (name : ServiceName) : List (List UInt8) := (Utf8.bytes name.asStr).splitOn 0x2e

def encodeLabel (label : List UInt8) : Except DnsError (List UInt8) := do
  rejectIf (256 ≤ label.length) .malformedResponse
  pure (UInt8.ofNat label.length :: label)

/-- `encode_query`. -/
def encodeQuery (transaction : Nat) (name : ServiceName) (type : RecordType) :
    Except DnsError (List UInt8) := do
  let header := BigEndian.toBytes 2 transaction ++ [0x01, 0x00, 0, 1, 0, 0, 0, 0, 0, 0]
  let encoded ← collect encodeLabel (labels name)
  pure (header ++ encoded.flatten ++ [0] ++ BigEndian.toBytes 2 type.code ++
    BigEndian.toBytes 2 classIn)

/-- Labels one after the other, with the empty label at the end. -/
def encodeLabels (labels : List (List UInt8)) : List UInt8 :=
  (labels.flatMap fun label => UInt8.ofNat label.length :: label) ++ [0]

def encodeName (name : ServiceName) : List UInt8 := encodeLabels (labels name)

theorem encodeLabels_cons (label : List UInt8) (labels : List (List UInt8)) :
    encodeLabels (label :: labels) = UInt8.ofNat label.length :: (label ++ encodeLabels labels) := by
  simp [encodeLabels]

/-! ## The labels of a service name -/

variable {label : List UInt8} {name : ServiceName}

theorem validLabel_of_mem (h : label ∈ labels name) : ServiceName.validLabel label = true := by
  have haccepted := name.accepted
  simp only [ServiceName.accepts, Bool.and_eq_true] at haccepted
  exact List.all_eq_true.mp haccepted.2 label h

theorem length_bytes_le (name : ServiceName) : (Utf8.bytes name.asStr).length ≤ 253 := by
  have haccepted := name.accepted
  simp only [ServiceName.accepts, Bool.and_eq_true, decide_eq_true_eq] at haccepted
  exact haccepted.1.1.1.2

theorem intercalate_labels (name : ServiceName) :
    List.intercalate [0x2e] (labels name) = Utf8.bytes name.asStr :=
  List.intercalate_splitOn _

theorem mem_intercalate {α : Type} {separator : List α} {parts : List (List α)} {a : α}
    (h : a ∈ List.intercalate separator parts) : a ∈ separator ∨ ∃ part ∈ parts, a ∈ part := by
  induction parts with
  | nil => simp at h
  | cons part parts ih =>
    cases parts with
    | nil => exact .inr ⟨part, by simp, by simpa using h⟩
    | cons part' parts =>
      rw [List.intercalate_cons_cons, List.mem_append, List.mem_append] at h
      rcases h with (h | h) | h
      · exact .inr ⟨part, by simp, h⟩
      · exact .inl h
      · rcases ih h with h | ⟨other, hother, h⟩
        · exact .inl h
        · exact .inr ⟨other, List.mem_cons_of_mem part hother, h⟩

/-- Nonempty parts and what separates them. -/
theorem length_intercalate {α : Type} {a : α} {parts : List (List α)}
    (h : ∀ part ∈ parts, part ≠ []) :
    2 * parts.length ≤ (List.intercalate [a] parts).length + 1 := by
  induction parts with
  | nil => simp
  | cons part parts ih =>
    obtain ⟨hpart, hparts⟩ := List.forall_mem_cons.mp h
    have hpos := List.length_pos_iff.mpr hpart
    cases parts with
    | nil =>
      rw [List.intercalate_singleton, List.length_singleton]
      omega
    | cons part' parts =>
      have hlength := ih hparts
      rw [List.intercalate_cons_cons, List.length_append, List.length_append,
        List.length_singleton, List.length_cons]
      omega

/-- What is checked of a label. -/
structure Label (label : List UInt8) : Prop where
  nonempty : label ≠ []
  short : label.length ≤ 63
  head : label.head? ≠ some 0x2d
  last : label.getLast? ≠ some 0x2d
  bytes : label.all ServiceName.isLabelByte = true

theorem validLabel_iff : ServiceName.validLabel label = true ↔ Label label := by
  simp only [ServiceName.validLabel, Bool.and_eq_true, decide_eq_true_eq]
  constructor
  · rintro ⟨⟨⟨⟨h1, h2⟩, h3⟩, h4⟩, h5⟩
    exact ⟨h1, h2, h3, h4, h5⟩
  · intro h
    exact ⟨⟨⟨⟨h.nonempty, h.short⟩, h.head⟩, h.last⟩, h.bytes⟩

theorem isLabelByte_bounds {b : UInt8} (h : ServiceName.isLabelByte b = true) :
    b < 128 ∧ asciiLower b = b := by
  have hall : ∀ n : Fin 256, ServiceName.isLabelByte (UInt8.ofNat n) = true →
      UInt8.ofNat n < 128 ∧ asciiLower (UInt8.ofNat n) = UInt8.ofNat n := by
    decide +kernel
  have hb := hall ⟨b.toNat, b.toNat_lt⟩
  rw [UInt8.ofNat_toNat] at hb
  exact hb h

theorem Label.map_asciiLower (h : Label label) : label.map asciiLower = label := by
  rw [List.map_congr_left fun b hb => (isLabelByte_bounds (List.all_eq_true.mp h.bytes b hb)).2]
  exact List.map_id label

theorem label_of_mem (h : label ∈ labels name) : Label label :=
  validLabel_iff.mp (validLabel_of_mem h)

theorem length_labels_le (name : ServiceName) : (labels name).length ≤ 127 := by
  have hlength := length_intercalate (a := 0x2e) fun label (hlabel : label ∈ labels name) =>
    (label_of_mem hlabel).nonempty
  rw [intercalate_labels] at hlength
  have hbytes := length_bytes_le name
  omega

theorem text_labels (name : ServiceName) :
    Ascii.text (List.intercalate [0x2e] (labels name)) = name.asStr := by
  apply Utf8.bytes_injective
  rw [Ascii.bytes_text, intercalate_labels]
  intro b hb
  rcases mem_intercalate hb with hb | ⟨label, hlabel, hb⟩
  · rw [List.mem_singleton.mp hb]
    decide
  · exact (isLabelByte_bounds (List.all_eq_true.mp (label_of_mem hlabel).bytes b hb)).1

/-! ## Rounds of `read_name` -/

section Rounds

variable {bytes rest : List UInt8} {cursor rounds : Nat} {acc : List (List UInt8)}
  {next : Option Nat} {visited : List Nat}

theorem getElem?_of_drop {b : UInt8} (h : bytes.drop cursor = b :: rest) :
    bytes[cursor]? = some b := by
  rw [← Nat.add_zero cursor, ← List.getElem?_drop, h]
  rfl

theorem drop_succ_of_drop {b : UInt8} (h : bytes.drop cursor = b :: rest) :
    bytes.drop (cursor + 1) = rest := by
  rw [← List.tail_drop, h, List.tail_cons]

/-- The bytes of a length. -/
theorem length_byte {n : Nat} (hpos : 0 < n) (hn : n ≤ 63) :
    ¬UInt8.ofNat n &&& 0xc0 = 0xc0 ∧ ¬(UInt8.ofNat n &&& 0xc0 ≠ 0 ∨ 63 < UInt8.ofNat n) ∧
      ¬UInt8.ofNat n = 0 ∧ (UInt8.ofNat n).toNat = n := by
  have hall : ∀ n : Fin 64, 0 < n.val → ¬UInt8.ofNat n &&& 0xc0 = 0xc0 ∧
      ¬(UInt8.ofNat n &&& 0xc0 ≠ 0 ∨ 63 < UInt8.ofNat n) ∧ ¬UInt8.ofNat n = 0 ∧
      (UInt8.ofNat n).toNat = n.val := by
    decide +kernel
  exact hall ⟨n, by omega⟩ hpos

/-- A round that reads a label. -/
theorem readNameLoop_label {label : List UInt8} (hlabel : Label label)
    (hdrop : bytes.drop cursor = UInt8.ofNat label.length :: (label ++ rest)) :
    readNameLoop bytes (rounds + 1) ⟨acc, cursor, next, visited⟩ =
      readNameLoop bytes rounds ⟨acc ++ [label], cursor + 1 + label.length, next, visited⟩ := by
  have hpos : 0 < label.length := List.length_pos_iff.mpr hlabel.nonempty
  obtain ⟨hpointer, hbits, hzero, htoNat⟩ := length_byte hpos hlabel.short
  have hrest := drop_succ_of_drop hdrop
  have hlength : ¬bytes.length < cursor + 1 + label.length := by
    have hsum := congrArg List.length hrest
    rw [List.length_drop, List.length_append] at hsum
    omega
  have htake : ((bytes.drop (cursor + 1)).take label.length).map asciiLower = label := by
    rw [hrest, List.take_left, hlabel.map_asciiLower]
  have hvalid : ¬(label.head? = some 0x2d ∨ label.getLast? = some 0x2d ∨
      ¬label.all ServiceName.isLabelByte = true) := by
    rw [not_or, not_or, not_not]
    exact ⟨hlabel.head, hlabel.last, hlabel.bytes⟩
  rw [readNameLoop]
  simp only [getElem?_of_drop hdrop, okOr_some, ok_bind, if_neg hpointer, rejectIf_false hbits,
    if_neg hzero, htoNat, rejectIf_false hlength, htake, rejectIf_false hvalid]

/-- The round that ends a name. -/
theorem readNameLoop_root (hdrop : bytes.drop cursor = 0 :: rest)
    (hshort : (List.intercalate [0x2e] acc).length ≤ 253) :
    readNameLoop bytes (rounds + 1) ⟨acc, cursor, next, visited⟩ =
      .ok (Ascii.text (List.intercalate [0x2e] acc), next.getD (cursor + 1)) := by
  have hpass : ¬253 < (List.intercalate [0x2e] acc).length := by omega
  rw [readNameLoop]
  simp only [getElem?_of_drop hdrop, okOr_some, ok_bind]
  rw [if_neg (by decide), rejectIf_false (by decide), ok_bind, if_pos trivial, rejectIf_false hpass]
  rfl

/-- A name is read in one round for each label and one for its end. -/
theorem readNameLoop_labels {names : List (List UInt8)} (hlabels : ∀ label ∈ names, Label label)
    (hdrop : bytes.drop cursor = encodeLabels names ++ rest)
    (hshort : (List.intercalate [0x2e] (acc ++ names)).length ≤ 253) :
    readNameLoop bytes rounds ⟨acc, cursor, next, visited⟩ =
      if names.length < rounds then
        .ok (Ascii.text (List.intercalate [0x2e] (acc ++ names)),
          next.getD (cursor + (encodeLabels names).length))
      else .error .malformedResponse := by
  induction names generalizing cursor rounds acc with
  | nil =>
    cases rounds with
    | zero => rfl
    | succ rounds =>
      rw [List.append_nil] at hshort ⊢
      rw [if_pos (by simp), readNameLoop_root hdrop hshort]
      rfl
  | cons label names ih =>
    obtain ⟨hlabel, hlabels⟩ := List.forall_mem_cons.mp hlabels
    cases rounds with
    | zero => rfl
    | succ rounds =>
      rw [encodeLabels_cons, List.cons_append, List.append_assoc] at hdrop
      have hnext : bytes.drop (cursor + 1 + label.length) = encodeLabels names ++ rest := by
        rw [← List.drop_drop, drop_succ_of_drop hdrop, List.drop_left]
      have happend : acc ++ label :: names = acc ++ [label] ++ names := by simp
      have hlength : cursor + 1 + label.length + (encodeLabels names).length =
          cursor + (encodeLabels (label :: names)).length := by
        rw [encodeLabels_cons, List.length_cons, List.length_append]
        omega
      rw [happend] at hshort ⊢
      rw [readNameLoop_label hlabel hdrop, ih hlabels hnext hshort, hlength]
      simp only [List.length_cons, Nat.add_lt_add_iff_right]

/-- A round that follows a pointer. -/
theorem readNameLoop_pointer {position offset : Nat} (hoffset : offset < 2 ^ 14)
    (hlt : offset < bytes.length) (hvisited : offset ∉ visited)
    (hdrop : bytes.drop position =
      (0xc0 ||| UInt8.ofNat (offset / 256)) :: UInt8.ofNat (offset % 256) :: rest) :
    readNameLoop bytes (rounds + 1) ⟨acc, position, next, visited⟩ =
      readNameLoop bytes rounds
        ⟨acc, offset, next <|> some (position + 2), offset :: visited⟩ := by
  have hall : ∀ n : Fin 64, (0xc0 ||| UInt8.ofNat n) &&& 0xc0 = 0xc0 ∧
      ((0xc0 ||| UInt8.ofNat n) &&& 0x3f).toNat = n.val := by
    decide +kernel
  obtain ⟨hpointer, hhigh⟩ := hall ⟨offset / 256, by omega⟩
  have hlow : (UInt8.ofNat (offset % 256)).toNat = offset % 256 := by
    rw [UInt8.toNat_ofNat']
    omega
  have htarget : offset / 256 * 256 + offset % 256 = offset := by omega
  have hpass : ¬(bytes.length ≤ offset ∨ offset ∈ visited) := by
    rw [not_or]
    exact ⟨by omega, hvisited⟩
  rw [readNameLoop]
  simp only [getElem?_of_drop hdrop, getElem?_of_drop (drop_succ_of_drop hdrop), okOr_some,
    ok_bind, if_pos hpointer, hhigh, hlow, htarget, rejectIf_false hpass]

/-- Only short names are returned. -/
theorem length_of_readNameLoop {reader : NameReader} {text : String} {stop : Nat}
    (h : readNameLoop bytes rounds reader = .ok (text, stop)) : text.length ≤ 253 := by
  induction rounds generalizing reader with
  | zero => cases h
  | succ rounds ih =>
    simp only [readNameLoop, bind_eq_ok] at h
    obtain ⟨length, -, h⟩ := h
    split at h
    · obtain ⟨_, -, h⟩ := bind_eq_ok.mp h
      obtain ⟨_, -, h⟩ := bind_eq_ok.mp h
      exact ih h
    · obtain ⟨_, -, h⟩ := bind_eq_ok.mp h
      split at h
      · simp only [bind_eq_ok, rejectIf_eq_ok, pure_eq_ok] at h
        obtain ⟨_, hshort, h⟩ := h
        cases h
        rw [Ascii.text, String.length_ofList, List.length_map]
        omega
      · obtain ⟨_, -, h⟩ := bind_eq_ok.mp h
        obtain ⟨_, -, h⟩ := bind_eq_ok.mp h
        exact ih h

end Rounds

/-! ## Reading back -/

/-- The message has the name at the offset. -/
def HoldsName (bytes : List UInt8) (offset : Nat) (name : ServiceName) : Prop :=
  encodeName name <+: bytes.drop offset

/-- The message has a compression pointer to the offset. -/
def HoldsPointer (bytes : List UInt8) (position offset : Nat) : Prop :=
  offset < 2 ^ 14 ∧
    [0xc0 ||| UInt8.ofNat (offset / 256), UInt8.ofNat (offset % 256)] <+: bytes.drop position

/-- The name is read at its offset and through the pointer, and every name that is read
is short. -/
structure ReadsBack (bytes : List UInt8) (offset position : Nat) (name : ServiceName) : Prop where
  direct : readName bytes offset = .ok (name.asStr, offset + (encodeName name).length)
  pointed : readName bytes position = .ok (name.asStr, position + 2)
  short : ∀ start text stop, readName bytes start = .ok (text, stop) → text.length ≤ 253

section

variable {bytes : List UInt8} {offset position : Nat} {name : ServiceName}

theorem HoldsName.drop (h : HoldsName bytes offset name) :
    ∃ rest, bytes.drop offset = encodeLabels (labels name) ++ rest := by
  obtain ⟨rest, hrest⟩ := h
  exact ⟨rest, hrest.symm⟩

theorem HoldsName.lt_length (h : HoldsName bytes offset name) : offset < bytes.length := by
  obtain ⟨rest, hrest⟩ := h.drop
  have hlength := congrArg List.length hrest
  simp only [encodeLabels, List.length_drop, List.length_append, List.length_singleton] at hlength
  omega

/-- What `n` rounds make of the name, read on at its offset. -/
theorem readNameLoop_of_holdsName (h : HoldsName bytes offset name) (rounds : Nat)
    (next : Option Nat) (visited : List Nat) :
    readNameLoop bytes rounds ⟨[], offset, next, visited⟩ =
      if (labels name).length < rounds then
        .ok (name.asStr, next.getD (offset + (encodeName name).length))
      else .error .malformedResponse := by
  obtain ⟨rest, hrest⟩ := h.drop
  have hshort : (List.intercalate [0x2e] ([] ++ labels name)).length ≤ 253 := by
    rw [List.nil_append, intercalate_labels]
    exact length_bytes_le name
  rw [readNameLoop_labels (fun label hlabel => label_of_mem hlabel) hrest hshort, List.nil_append,
    text_labels]
  rfl

theorem readName_of_holdsName (h : HoldsName bytes offset name) :
    readName bytes offset = .ok (name.asStr, offset + (encodeName name).length) := by
  have hlabels := length_labels_le name
  rw [readName, readNameLoop_of_holdsName h, if_pos (by rw [maxNamePointers]; omega)]
  rfl

/-- One round is spent on the pointer. -/
theorem readName_of_holdsPointer (hname : HoldsName bytes offset name)
    (hpointer : HoldsPointer bytes position offset) :
    readName bytes position =
      if (labels name).length < 127 then .ok (name.asStr, position + 2)
      else .error .malformedResponse := by
  obtain ⟨hoffset, rest, hrest⟩ := hpointer
  rw [readName, maxNamePointers,
    readNameLoop_pointer hoffset hname.lt_length List.not_mem_nil hrest.symm,
    readNameLoop_of_holdsName hname]
  rfl

/-- A name with the most labels is not read through a pointer. -/
theorem readsBack_iff (hname : HoldsName bytes offset name)
    (hpointer : HoldsPointer bytes position offset) :
    ReadsBack bytes offset position name ↔ (labels name).length ≤ 126 := by
  have hpointed := readName_of_holdsPointer hname hpointer
  constructor
  · intro h
    by_contra hlabels
    rw [if_neg (by omega), h.pointed] at hpointed
    cases hpointed
  · intro hlabels
    rw [if_pos (by omega)] at hpointed
    exact ⟨readName_of_holdsName hname, hpointed, fun _ _ _ => length_of_readNameLoop⟩

end

/-- `encode_query` writes the name after the header. -/
theorem holdsName_of_encodeQuery {transaction : Nat} {type : RecordType} {bytes : List UInt8}
    (h : encodeQuery transaction name type = .ok bytes) : HoldsName bytes headerBytes name := by
  have hlabel {label encoded : List UInt8} : encodeLabel label = .ok encoded ↔
      label.length < 256 ∧ UInt8.ofNat label.length :: label = encoded := by
    simp only [encodeLabel, check_bind_eq_ok, rejectIf_eq_ok, not_le, pure_eq_ok]
  simp only [encodeQuery, bind_eq_ok, pure_eq_ok] at h
  obtain ⟨encoded, hencoded, rfl⟩ := h
  obtain ⟨-, rfl⟩ := (collect_eq_ok_iff_map hlabel).mp hencoded
  refine ⟨BigEndian.toBytes 2 type.code ++ BigEndian.toBytes 2 classIn, ?_⟩
  rw [List.append_assoc, List.append_assoc, List.append_assoc]
  rw [List.drop_append_of_le_length (by simp [headerBytes])]
  simp [headerBytes, encodeName, encodeLabels, List.flatMap]

/-- The text of so many labels `a`. -/
def sampleText (count : Nat) : String :=
  Ascii.text (List.intercalate [0x2e] (List.replicate count [0x61]))

def manyLabels : ServiceName := ⟨sampleText 126, by decide +kernel⟩

def mostLabels : ServiceName := ⟨sampleText 127, by decide +kernel⟩

/-- The name, and a pointer to it. -/
def sampleBytes (name : ServiceName) : List UInt8 := encodeName name ++ [0xc0, 0]

theorem readsBack_sample :
    HoldsName (sampleBytes manyLabels) 0 manyLabels ∧
      HoldsPointer (sampleBytes manyLabels) 253 0 ∧
      ReadsBack (sampleBytes manyLabels) 0 253 manyLabels := by
  have hname : HoldsName (sampleBytes manyLabels) 0 manyLabels := ⟨[0xc0, 0], rfl⟩
  have hpointer : HoldsPointer (sampleBytes manyLabels) 253 0 :=
    ⟨by decide, [], by decide +kernel⟩
  exact ⟨hname, hpointer, (readsBack_iff hname hpointer).mpr (by decide +kernel)⟩

theorem not_readsBack_sample :
    HoldsName (sampleBytes mostLabels) 0 mostLabels ∧
      HoldsPointer (sampleBytes mostLabels) 255 0 ∧
      ¬ReadsBack (sampleBytes mostLabels) 0 255 mostLabels := by
  refine ⟨⟨[0xc0, 0], rfl⟩, ⟨by decide, [], by decide +kernel⟩, fun h => ?_⟩
  have hpointed := h.pointed
  revert hpointed
  decide +kernel

end ProofboundRuntime.Connector.Dns
