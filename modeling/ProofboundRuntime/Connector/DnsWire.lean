import ProofboundRuntime.Connector.DnsMessage
import ProofboundRuntime.Lib.Sha256

/-!
# What a DNS response says

The layout of a DNS message as a relation between bytes and a `Message`, without a
parser: names with their compression pointers (`LabelsAt`), records (`RecordAt`) and
the whole message (`Layout`).  A byte string has at most one message
(`Layout.unique`).

`parseResponse_exact`: what `parse_response` accepts is such a message with the
expected header and question, and it returns the records of its answer section.
-/

namespace ProofboundRuntime.Connector.Dns

open Result
open ProofboundRuntime.Core (ServiceName)

/-! ## Layout -/

/-- The labels of the name at an offset, and the offset after it. -/
inductive LabelsAt (bytes : List UInt8) : Nat → List (List UInt8) → Nat → Prop
  | root {cursor} (h : bytes[cursor]? = some 0) : LabelsAt bytes cursor [] (cursor + 1)
  | label {cursor labels stop} {length : UInt8} (h : bytes[cursor]? = some length)
    (hpos : 0 < length) (hlt : length < 64) (hle : cursor + 1 + length.toNat ≤ bytes.length)
    (hrest : LabelsAt bytes (cursor + 1 + length.toNat) labels stop) :
    LabelsAt bytes cursor ((bytes.drop (cursor + 1)).take length.toNat :: labels) stop
  | pointer {cursor labels stop} {high low : UInt8} (hhigh : bytes[cursor]? = some high)
    (hbits : 0xc0 ≤ high) (hlow : bytes[cursor + 1]? = some low)
    (hrest : LabelsAt bytes ((high.toNat - 0xc0) * 256 + low.toNat) labels stop) :
    LabelsAt bytes cursor labels (cursor + 2)

/-- The text of a name; names are compared in lower case. -/
def nameText (labels : List (List UInt8)) : String :=
  Ascii.text (List.intercalate [0x2e] (labels.map (List.map asciiLower)))

def NameAt (bytes : List UInt8) (cursor : Nat) (name : String) (stop : Nat) : Prop :=
  ∃ labels, LabelsAt bytes cursor labels stop ∧ nameText labels = name

/-- A big-endian number of `width` bytes. -/
def NumberAt (width : Nat) (bytes : List UInt8) (offset value : Nat) : Prop :=
  ((bytes.drop offset).take width).length = width ∧
    BigEndian.ofBytes ((bytes.drop offset).take width) = value

structure Record where
  owner : String
  type : Nat
  recordClass : Nat
  ttl : Nat
  dataStart : Nat
  dataLength : Nat
deriving DecidableEq

def Record.dataEnd (record : Record) : Nat := record.dataStart + record.dataLength

structure RecordAt (bytes : List UInt8) (cursor : Nat) (record : Record) (stop : Nat) : Prop where
  owner : ∃ nameEnd, NameAt bytes cursor record.owner nameEnd ∧ record.dataStart = nameEnd + 10 ∧
    NumberAt 2 bytes nameEnd record.type ∧ NumberAt 2 bytes (nameEnd + 2) record.recordClass ∧
    NumberAt 4 bytes (nameEnd + 4) record.ttl ∧ NumberAt 2 bytes (nameEnd + 8) record.dataLength
  stop : record.dataEnd = stop
  inside : record.dataEnd ≤ bytes.length

/-- Records one after the other. -/
inductive RecordsAt (bytes : List UInt8) : Nat → List Record → Nat → Prop
  | nil (cursor) : RecordsAt bytes cursor [] cursor
  | cons {cursor record next records stop} (hrecord : RecordAt bytes cursor record next)
    (hrest : RecordsAt bytes next records stop) : RecordsAt bytes cursor (record :: records) stop

/-- A message with one question. -/
structure Message where
  transaction : Nat
  flags : Nat
  question : String
  questionType : Nat
  questionClass : Nat
  answers : List Record
  authority : List Record
  additional : List Record

/-- The bytes of a message. -/
structure Layout (bytes : List UInt8) (message : Message) : Prop where
  transaction : NumberAt 2 bytes 0 message.transaction
  flags : NumberAt 2 bytes 2 message.flags
  questions : NumberAt 2 bytes 4 1
  answers : NumberAt 2 bytes 6 message.answers.length
  authority : NumberAt 2 bytes 8 message.authority.length
  additional : NumberAt 2 bytes 10 message.additional.length
  records : ∃ cursor, NameAt bytes 12 message.question cursor ∧
    NumberAt 2 bytes cursor message.questionType ∧
    NumberAt 2 bytes (cursor + 2) message.questionClass ∧
    RecordsAt bytes (cursor + 4) (message.answers ++ message.authority ++ message.additional)
      bytes.length

/-! ## A byte string has one message -/

section Unique

variable {bytes : List UInt8} {cursor : Nat}

variable {stop stop' : Nat}

theorem LabelsAt.unique {labels labels' : List (List UInt8)} (h : LabelsAt bytes cursor labels stop)
    (h' : LabelsAt bytes cursor labels' stop') : labels = labels' ∧ stop = stop' := by
  induction h generalizing labels' stop' with
  | root hbyte =>
    cases h' with
    | root => exact ⟨rfl, rfl⟩
    | label hbyte' hpos' =>
      rw [hbyte] at hbyte'
      cases hbyte'
      exact absurd hpos' (by decide)
    | pointer hhigh' hbits' =>
      rw [hbyte] at hhigh'
      cases hhigh'
      exact absurd hbits' (by decide)
  | label hbyte hpos hlt hle hrest ih =>
    cases h' with
    | root hbyte' =>
      rw [hbyte] at hbyte'
      cases hbyte'
      exact absurd hpos (by decide)
    | label hbyte' hpos' hlt' hle' hrest' =>
      rw [hbyte] at hbyte'
      cases hbyte'
      obtain ⟨rfl, rfl⟩ := ih hrest'
      exact ⟨rfl, rfl⟩
    | pointer hhigh' hbits' =>
      rw [hbyte] at hhigh'
      cases hhigh'
      exact absurd (UInt8.lt_of_le_of_lt hbits' hlt) (by decide)
  | pointer hhigh hbits hlow hrest ih =>
    cases h' with
    | root hbyte' =>
      rw [hhigh] at hbyte'
      cases hbyte'
      exact absurd hbits (by decide)
    | label hbyte' hpos' hlt' =>
      rw [hhigh] at hbyte'
      cases hbyte'
      exact absurd (UInt8.lt_of_le_of_lt hbits hlt') (by decide)
    | pointer hhigh' hbits' hlow' hrest' =>
      rw [hhigh] at hhigh'
      cases hhigh'
      rw [hlow] at hlow'
      cases hlow'
      exact ⟨(ih hrest').1, rfl⟩

theorem NameAt.unique {name name' : String} (h : NameAt bytes cursor name stop)
    (h' : NameAt bytes cursor name' stop') : name = name' ∧ stop = stop' := by
  obtain ⟨labels, hlabels, rfl⟩ := h
  obtain ⟨labels', hlabels', rfl⟩ := h'
  obtain ⟨rfl, rfl⟩ := hlabels.unique hlabels'
  exact ⟨rfl, rfl⟩

theorem NumberAt.unique {width offset value value' : Nat} (h : NumberAt width bytes offset value)
    (h' : NumberAt width bytes offset value') : value = value' :=
  h.2.symm.trans h'.2

theorem RecordAt.unique {record record' : Record} (h : RecordAt bytes cursor record stop)
    (h' : RecordAt bytes cursor record' stop') : record = record' ∧ stop = stop' := by
  obtain ⟨⟨nameEnd, hname, hstart, htype, hclass, httl, hlength⟩, rfl, -⟩ := h
  obtain ⟨⟨nameEnd', hname', hstart', htype', hclass', httl', hlength'⟩, rfl, -⟩ := h'
  obtain ⟨howner, rfl⟩ := hname.unique hname'
  have heq : record = record' := by
    cases record
    cases record'
    simp only [Record.mk.injEq]
    exact ⟨howner, htype.unique htype', hclass.unique hclass', httl.unique httl',
      hstart.trans hstart'.symm, hlength.unique hlength'⟩
  rw [heq]
  exact ⟨rfl, rfl⟩

theorem RecordsAt.unique {records records' : List Record} (h : RecordsAt bytes cursor records stop)
    (h' : RecordsAt bytes cursor records' stop') (hlength : records.length = records'.length) :
    records = records' := by
  induction h generalizing records' with
  | nil => exact (List.eq_nil_of_length_eq_zero hlength.symm).symm
  | cons hrecord hrest ih =>
    cases h' with
    | nil => cases hlength
    | cons hrecord' hrest' =>
      obtain ⟨rfl, rfl⟩ := hrecord.unique hrecord'
      rw [ih hrest' (Nat.succ.inj hlength)]

theorem Layout.unique {message message' : Message} (h : Layout bytes message)
    (h' : Layout bytes message') : message = message' := by
  obtain ⟨cursor, hname, htype, hclass, hrecords⟩ := h.records
  obtain ⟨cursor', hname', htype', hclass', hrecords'⟩ := h'.records
  obtain ⟨hquestion, rfl⟩ := hname.unique hname'
  have hanswers := h.answers.unique h'.answers
  have hauthority := h.authority.unique h'.authority
  have hadditional := h.additional.unique h'.additional
  have hall := hrecords.unique hrecords' (by simp only [List.length_append]; omega)
  obtain ⟨hfirst, hlast⟩ := List.append_inj hall (by simp only [List.length_append]; omega)
  obtain ⟨hfirst, hmiddle⟩ := List.append_inj hfirst hanswers
  cases message
  cases message'
  simp only [Message.mk.injEq]
  exact ⟨h.transaction.unique h'.transaction, h.flags.unique h'.flags, hquestion,
    htype.unique htype', hclass.unique hclass', hfirst, hmiddle, hlast⟩

end Unique

/-! ## What is read is there -/

section Readers

variable {bytes : List UInt8}

theorem readNumber_eq_ok {width offset value : Nat} :
    readNumber width bytes offset = .ok value ↔ NumberAt width bytes offset value := by
  unfold readNumber NumberAt
  dsimp only
  split
  next h => simp [h]
  next h => simp only [h, false_and, reduceCtorEq]

/-- The two high bits of a length tell pointers and labels apart. -/
theorem pointer_bits (b : UInt8) :
    (b &&& 0xc0 = 0xc0 → 0xc0 ≤ b ∧ (b &&& 0x3f).toNat = b.toNat - 0xc0) ∧
      (¬(b &&& 0xc0 ≠ 0 ∨ 63 < b) → b < 64) := by
  have hall : ∀ n : Fin 256,
      (UInt8.ofNat n &&& 0xc0 = 0xc0 → 0xc0 ≤ UInt8.ofNat n ∧
        (UInt8.ofNat n &&& 0x3f).toNat = (UInt8.ofNat n).toNat - 0xc0) ∧
      (¬(UInt8.ofNat n &&& 0xc0 ≠ 0 ∨ 63 < UInt8.ofNat n) → UInt8.ofNat n < 64) := by
    decide +kernel
  have hb := hall ⟨b.toNat, b.toNat_lt⟩
  rwa [UInt8.ofNat_toNat] at hb

/-- The rounds that are left read the labels from the cursor on. -/
theorem labelsAt_of_readNameLoop {rounds : Nat} {reader : NameReader} {text : String} {stop : Nat}
    (h : readNameLoop bytes rounds reader = .ok (text, stop)) :
    ∃ labels stop', LabelsAt bytes reader.cursor labels stop' ∧
      Ascii.text (List.intercalate [0x2e] (reader.labels ++ labels.map (List.map asciiLower))) =
        text ∧ reader.next.getD stop' = stop := by
  induction rounds generalizing reader with
  | zero => cases h
  | succ rounds ih =>
    simp only [readNameLoop, bind_eq_ok, okOr_eq_ok] at h
    obtain ⟨length, hlength, h⟩ := h
    split at h
    next hpointer =>
      obtain ⟨hbits, hhigh⟩ := (pointer_bits length).1 hpointer
      simp only [bind_eq_ok, okOr_eq_ok] at h
      obtain ⟨low, hlow, _, -, h⟩ := h
      obtain ⟨labels, stop', hlabels, htext, hstop⟩ := ih h
      rw [hhigh] at hlabels
      refine ⟨labels, reader.cursor + 2, .pointer hlength hbits hlow hlabels, htext, ?_⟩
      rw [← hstop]
      cases reader.next <;> rfl
    · simp only [check_bind_eq_ok, rejectIf_eq_ok] at h
      obtain ⟨hbits, h⟩ := h
      split at h
      next hzero =>
        simp only [check_bind_eq_ok, pure_eq_ok] at h
        obtain ⟨-, h⟩ := h
        cases h
        exact ⟨[], reader.cursor + 1, .root (hzero ▸ hlength), by simp, rfl⟩
      next hzero =>
        simp only [check_bind_eq_ok, rejectIf_eq_ok] at h
        obtain ⟨hinside, -, h⟩ := h
        obtain ⟨labels, stop', hlabels, htext, hstop⟩ := ih h
        have hpos : 0 < length := UInt8.pos_iff_ne_zero.mpr hzero
        refine ⟨_, stop', .label hlength hpos ((pointer_bits length).2 hbits) (by omega) hlabels,
          ?_, hstop⟩
        rw [← htext]
        simp

theorem nameAt_of_readName {start stop : Nat} {text : String}
    (h : readName bytes start = .ok (text, stop)) : NameAt bytes start text stop := by
  obtain ⟨labels, stop', hlabels, htext, hstop⟩ := labelsAt_of_readNameLoop h
  cases hstop
  exact ⟨labels, hlabels, htext⟩

end Readers

/-! ## Records -/

/-- The octets of an address. -/
def IpAddr.octets : IpAddr → List UInt8
  | .v4 octets => octets.toList
  | .v6 octets => octets.toList

/-- The kind of record that has an address. -/
def IpAddr.type : IpAddr → RecordType
  | .v4 _ => .a
  | .v6 _ => .aaaa

/-- The expiry of a record: its time to live after the observation, in nanoseconds. -/
def Expires (query : Query) (record : Record) (expiresNs : Nat) : Prop :=
  expiresNs = query.observedNs + record.ttl * 1000000000 ∧ expiresNs < 2 ^ 64

/-- The answer that an address record gives. -/
structure IsAnswer (bytes : List UInt8) (query : Query) (record : Record) (answer : DnsAnswer) :
    Prop where
  name : answer.name.asStr = record.owner
  octets : answer.address.octets = (bytes.drop record.dataStart).take record.dataLength
  type : answer.address.type = query.type
  identity : answer.messageIdentity = query.messageIdentity
  ttl : answer.ttlSeconds = record.ttl
  expires : Expires query record answer.recordExpiresNs
  effective : answer.effectiveExpiresNs = answer.recordExpiresNs

/-- The alias that a `CNAME` record gives. -/
structure IsAlias (bytes : List UInt8) (query : Query) (record : Record)
    (alias_ : DnsCnameObservation) : Prop where
  owner : alias_.owner.asStr = record.owner
  target : NameAt bytes record.dataStart alias_.target.asStr record.dataEnd
  identity : alias_.messageIdentity = query.messageIdentity
  ttl : alias_.ttlSeconds = record.ttl
  expires : Expires query record alias_.expiresNs

/-- The records of class `IN` and one type. -/
def ofType (type : Nat) (records : List Record) : List Record :=
  records.filter fun record => record.recordClass = classIn ∧ record.type = type

/-- What a section adds to a response: its aliases and its addresses, in order. -/
def Adds (bytes : List UInt8) (query : Query) (records : List Record)
    (parsed parsed' : ParsedResponse) : Prop :=
  ∃ aliases answers,
    parsed'.cnames = aliases.foldl (fun cnames record => pushCname record cnames) parsed.cnames ∧
    parsed'.addresses = parsed.addresses ++ answers ∧
    List.Forall₂ (IsAlias bytes query) (ofType cnameCode records) aliases ∧
    List.Forall₂ (IsAnswer bytes query) (ofType query.type.code records) answers

section Records

variable {bytes : List UInt8} {query : Query}

theorem adds_nil (parsed : ParsedResponse) : Adds bytes query [] parsed parsed :=
  ⟨[], [], rfl, by simp, .nil, .nil⟩

theorem adds_of_class {record : Record} (h : ¬record.recordClass = classIn)
    (parsed : ParsedResponse) : Adds bytes query [record] parsed parsed := by
  have hnone (type : Nat) : ofType type [record] = [] := by
    rw [ofType, List.filter_cons_of_neg (by simp [h]), List.filter_nil]
  refine ⟨[], [], rfl, by simp, ?_, ?_⟩
  · rw [hnone]
    exact .nil
  · rw [hnone]
    exact .nil

theorem Adds.append {records records' : List Record} {parsed parsed' parsed'' : ParsedResponse}
    (h : Adds bytes query records parsed parsed') (h' : Adds bytes query records' parsed' parsed'') :
    Adds bytes query (records ++ records') parsed parsed'' := by
  obtain ⟨aliases, answers, hcnames, haddresses, haliases, hanswers⟩ := h
  obtain ⟨aliases', answers', hcnames', haddresses', haliases', hanswers'⟩ := h'
  refine ⟨aliases ++ aliases', answers ++ answers', ?_, ?_, ?_, ?_⟩
  · rw [hcnames', hcnames, List.foldl_append]
  · rw [haddresses', haddresses, List.append_assoc]
  · rw [ofType, List.filter_append]
    exact List.rel_append haliases haliases'
  · rw [ofType, List.filter_append]
    exact List.rel_append hanswers hanswers'

theorem expiry_eq_ok {ttl observedNs expiresNs : Nat}
    (h : expiry ttl observedNs = .ok expiresNs) :
    expiresNs = observedNs + ttl * 1000000000 ∧ expiresNs < 2 ^ 64 := by
  simp only [expiry, check_bind_eq_ok, rejectIf_eq_ok, pure_eq_ok] at h
  omega

theorem recordAddress_eq_some {type : RecordType} {data : List UInt8} {address : IpAddr}
    (h : recordAddress type data = some address) :
    address.octets = data ∧ address.type = type := by
  cases type with
  | a | aaaa =>
    simp only [recordAddress, Option.dite_none_right_eq_some] at h
    obtain ⟨hlength, h⟩ := h
    cases h
    exact ⟨rfl, rfl⟩

theorem new_eq_some {text : String} {name : ServiceName} (h : ServiceName.new text = some name) :
    name.asStr = text := by
  simp only [ServiceName.new, Option.dite_none_right_eq_some] at h
  obtain ⟨_, h⟩ := h
  cases h
  rfl

/-- One answer record adds an alias or an address if it is of that type. -/
theorem adds_of_readAnswerRecord {record : Record} {parsed parsed' : ParsedResponse}
    (hclass : record.recordClass = classIn)
    (h : readAnswerRecord bytes query record.owner record.type record.ttl record.dataStart
      record.dataEnd parsed = .ok parsed') :
    Adds bytes query [record] parsed parsed' := by
  simp only [readAnswerRecord, bind_eq_ok, okOr_eq_ok] at h
  obtain ⟨owner, howner, h⟩ := h
  have hname := new_eq_some howner
  split at h
  next hcname =>
    simp only [bind_eq_ok, okOr_eq_ok, rejectIf_eq_ok, not_not, pure_eq_ok, cnameObservation] at h
    obtain ⟨⟨target, consumed⟩, hread, _, rfl, name, htarget, _, ⟨expiresNs, hexpiry, rfl⟩, rfl⟩ := h
    have hother : ¬record.type = query.type.code := by
      rw [hcname]
      cases query.type <;> decide
    refine ⟨[_], [], rfl, by simp, ?_, ?_⟩
    · rw [ofType, List.filter_cons_of_pos (by simp [hclass, hcname]), List.filter_nil]
      refine .cons ⟨hname, ?_, rfl, rfl, expiry_eq_ok hexpiry⟩ .nil
      rw [new_eq_some htarget]
      exact nameAt_of_readName hread
    · rw [ofType, List.filter_cons_of_neg (by simp [hother]), List.filter_nil]
      exact .nil
  next hcname =>
    split at h
    next htype =>
      simp only [bind_eq_ok, okOr_eq_ok, pure_eq_ok, answer] at h
      obtain ⟨address, haddress, _, ⟨expiresNs, hexpiry, rfl⟩, rfl⟩ := h
      obtain ⟨hoctets, hkind⟩ := recordAddress_eq_some haddress
      refine ⟨[], [_], rfl, rfl, ?_, ?_⟩
      · rw [ofType, List.filter_cons_of_neg (by simp [hcname]), List.filter_nil]
        exact .nil
      · rw [ofType, List.filter_cons_of_pos (by simp [hclass, htype]), List.filter_nil]
        refine .cons ⟨hname, ?_, hkind, rfl, rfl, expiry_eq_ok hexpiry, rfl⟩ .nil
        rw [hoctets, Record.dataEnd, Nat.add_sub_cancel_left]
    next htype =>
      rw [pure_eq_ok] at h
      subst h
      refine ⟨[], [], rfl, by simp, ?_, ?_⟩
      · rw [ofType, List.filter_cons_of_neg (by simp [hcname]), List.filter_nil]
        exact .nil
      · rw [ofType, List.filter_cons_of_neg (by simp [htype]), List.filter_nil]
        exact .nil

theorem take_cons_of_lt {index answers : Nat} (h : index < answers) (record : Record)
    (records : List Record) : (record :: records).take (answers - index) =
      [record] ++ records.take (answers - (index + 1)) := by
  obtain ⟨count, hcount⟩ : ∃ count, answers - index = count + 1 := ⟨answers - index - 1, by omega⟩
  rw [hcount, List.take_succ_cons, show answers - (index + 1) = count by omega]
  rfl

/-- The records that are read, of which those before `answers` count. -/
theorem adds_of_readRecords {answers left index cursor cursor' : Nat}
    {parsed parsed' : ParsedResponse}
    (h : readRecords bytes query answers left index cursor parsed = .ok (parsed', cursor')) :
    ∃ records, records.length = left ∧ RecordsAt bytes cursor records cursor' ∧
      Adds bytes query (records.take (answers - index)) parsed parsed' := by
  induction left generalizing index cursor parsed with
  | zero =>
    cases h
    refine ⟨[], rfl, .nil _, ?_⟩
    rw [List.take_nil]
    exact adds_nil _
  | succ left ih =>
    simp only [readRecords, bind_eq_ok, rejectIf_eq_ok] at h
    obtain ⟨⟨owner, nameEnd⟩, hname, type, htype, recordClass, hclass, ttl, httl, dataLength,
      hlength, _, hinside, h⟩ := h
    let record : Record := ⟨owner, type, recordClass, ttl, nameEnd + 10, dataLength⟩
    have hrecord : RecordAt bytes cursor record record.dataEnd :=
      { owner := ⟨nameEnd, nameAt_of_readName hname, rfl, readNumber_eq_ok.mp htype,
          readNumber_eq_ok.mp hclass, readNumber_eq_ok.mp httl, readNumber_eq_ok.mp hlength⟩
        stop := rfl
        inside := Nat.le_of_not_lt hinside }
    split at h
    next hanswer =>
      obtain ⟨next, hnext, h⟩ := bind_eq_ok.mp h
      obtain ⟨records, hcount, hrecords, hadds⟩ := ih h
      refine ⟨record :: records, by rw [List.length_cons, hcount], .cons hrecord hrecords, ?_⟩
      have hadd : Adds bytes query [record] parsed next :=
        adds_of_readAnswerRecord hanswer.2 hnext
      rw [take_cons_of_lt hanswer.1]
      exact hadd.append hadds
    next hanswer =>
      obtain ⟨records, hcount, hrecords, hadds⟩ := ih h
      refine ⟨record :: records, by rw [List.length_cons, hcount], .cons hrecord hrecords, ?_⟩
      rcases Nat.lt_or_ge index answers with hindex | hindex
      · rw [take_cons_of_lt hindex]
        exact (adds_of_class (fun hclass => hanswer ⟨hindex, hclass⟩) parsed).append hadds
      · rw [show answers - (index + 1) = 0 by omega, List.take_zero] at hadds
        rwa [show answers - index = 0 by omega, List.take_zero]

end Records

/-! ## Aliases by owner -/

/-- The aliases are kept by their owner, each owner once. -/
structure Groups (aliases : List DnsCnameObservation)
    (cnames : List (ServiceName × List DnsCnameObservation)) : Prop where
  kept : KeptByOwner cnames
  owners : (cnames.map Prod.fst).Nodup
  mem : ∀ record, (∃ entry ∈ cnames, record ∈ entry.2) ↔ record ∈ aliases

section Grouping

variable {cnames : List (ServiceName × List DnsCnameObservation)}
  {aliases : List DnsCnameObservation}

theorem exists_mem_pushCname (pushed record : DnsCnameObservation) :
    (∃ entry ∈ pushCname pushed cnames, record ∈ entry.2) ↔
      (∃ entry ∈ cnames, record ∈ entry.2) ∨ record = pushed := by
  induction cnames with
  | nil => simp [pushCname]
  | cons entry cnames ih =>
    rw [pushCname]
    split
    · simp only [List.mem_cons, exists_eq_or_imp, List.mem_append, List.not_mem_nil, or_false]
      rw [or_right_comm]
    · simp only [List.mem_cons, exists_eq_or_imp, ih, or_assoc]

theorem owners_pushCname (record : DnsCnameObservation) (h : (cnames.map Prod.fst).Nodup) :
    ((pushCname record cnames).map Prod.fst).Nodup ∧
      ∀ owner ∈ (pushCname record cnames).map Prod.fst,
        owner ∈ cnames.map Prod.fst ∨ owner = record.owner := by
  induction cnames with
  | nil => simp [pushCname]
  | cons entry cnames ih =>
    rw [List.map_cons, List.nodup_cons] at h
    obtain ⟨hnodup, hmem⟩ := ih h.2
    rw [pushCname]
    split
    next heq =>
      refine ⟨List.nodup_cons.mpr h, fun owner howner => .inl howner⟩
    next hne =>
      refine ⟨List.nodup_cons.mpr ⟨fun hentry => ?_, hnodup⟩, fun owner howner => ?_⟩
      · rcases hmem _ hentry with hentry | hentry
        · exact h.1 hentry
        · exact hne hentry
      · rcases List.mem_cons.mp howner with rfl | howner
        · exact .inl List.mem_cons_self
        · exact (hmem owner howner).imp_left (List.mem_cons_of_mem _)

theorem Groups.push (h : Groups aliases cnames) (record : DnsCnameObservation) :
    Groups (aliases ++ [record]) (pushCname record cnames) where
  kept := h.kept.pushCname record
  owners := (owners_pushCname record h.owners).1
  mem other := by
    rw [exists_mem_pushCname, h.mem, List.mem_append, List.mem_singleton]

theorem groups_foldl (records : List DnsCnameObservation) (h : Groups aliases cnames) :
    Groups (aliases ++ records)
      (records.foldl (fun cnames record => pushCname record cnames) cnames) := by
  induction records generalizing aliases cnames with
  | nil =>
    rwa [List.append_nil]
  | cons record records ih =>
    rw [List.append_cons]
    exact ih (h.push record)

/-- An owner has one entry. -/
theorem Groups.entry_eq (h : Groups aliases cnames)
    {entry entry' : ServiceName × List DnsCnameObservation} (hentry : entry ∈ cnames)
    (hentry' : entry' ∈ cnames) (howner : entry.1 = entry'.1) : entry = entry' :=
  List.inj_on_of_nodup_map h.owners hentry hentry' howner

end Grouping

section Canonical

variable {records : List DnsCnameObservation}

instance : Std.TransCmp cnameCmp := by
  show Std.TransCmp (compareLex (compareOn fun record : DnsCnameObservation =>
    Utf8.bytes record.target.asStr) _)
  infer_instance

theorem cnameCmp_isLE {a b : DnsCnameObservation} (h : (cnameCmp a b).isLE) :
    (Utf8.cmp a.target.asStr b.target.asStr).isLE ∧
      (a.target = b.target → a.expiresNs ≤ b.expiresNs) := by
  change ((Utf8.cmp a.target.asStr b.target.asStr).then
    ((compare a.expiresNs b.expiresNs).then _)).isLE at h
  refine ⟨Ordering.isLE_left_of_isLE_then h, fun heq => ?_⟩
  have hself : Utf8.cmp b.target.asStr b.target.asStr = .eq := Std.ReflCmp.compare_self
  rw [heq, hself, Ordering.eq_then] at h
  exact Nat.isLE_compare.mp (Ordering.isLE_left_of_isLE_then h)

theorem asStr_injective : Function.Injective ServiceName.asStr := by
  intro a b h
  cases a
  cases b
  cases h
  rfl

theorem same_target_iff (a b : DnsCnameObservation) :
    (a.target == b.target) = true ↔ a.target.asStr = b.target.asStr := by
  rw [beq_iff_eq, asStr_injective.eq_iff]

theorem mem_of_mem_canonicalCnames {record : DnsCnameObservation}
    (h : record ∈ canonicalCnames records) : record ∈ records :=
  Sorting.mem_sortBy.mp (Sorting.mem_of_mem_dedupBy h)

theorem exists_mem_canonicalCnames {record : DnsCnameObservation} (h : record ∈ records) :
    ∃ kept ∈ canonicalCnames records,
      kept.target = record.target ∧ kept.expiresNs ≤ record.expiresNs := by
  have hsorted : (Sorting.sortBy cnameCmp records).Pairwise fun a b => (cnameCmp a b).isLE :=
    Sorting.sortBy_pairwise records
  obtain ⟨kept, hkept, hkey, hle⟩ :=
    Sorting.exists_mem_dedupBy same_target_iff hsorted (Sorting.mem_sortBy.mpr h)
  have htarget := asStr_injective hkey
  refine ⟨kept, hkept, htarget, ?_⟩
  rcases hle with rfl | hle
  · exact le_rfl
  · exact (cnameCmp_isLE hle).2 htarget

theorem nodup_canonicalCnames (records : List DnsCnameObservation) :
    ((canonicalCnames records).map DnsCnameObservation.target).Nodup := by
  have hsorted : (Sorting.sortBy cnameCmp records).Pairwise fun a b =>
      (Utf8.cmp a.target.asStr b.target.asStr).isLE :=
    (Sorting.sortBy_pairwise records).imp fun h => (cnameCmp_isLE h).1
  have hnodup : (((canonicalCnames records).map DnsCnameObservation.target).map
      ServiceName.asStr).Nodup := by
    rw [List.map_map]
    exact (Sorting.dedupBy_strict same_target_iff hsorted).nodup
  exact hnodup.of_map

end Canonical

/-- Of the aliases with one owner and target, the one that expires first is kept. -/
structure Deduplicated (aliases : List DnsCnameObservation)
    (cnames : List (ServiceName × List DnsCnameObservation)) : Prop where
  kept : KeptByOwner cnames
  owners : (cnames.map Prod.fst).Nodup
  targets : ∀ entry ∈ cnames, (entry.2.map DnsCnameObservation.target).Nodup
  earliest : ∀ entry ∈ cnames, ∀ record ∈ entry.2, record ∈ aliases ∧
    ∀ other ∈ aliases, other.owner = record.owner → other.target = record.target →
      record.expiresNs ≤ other.expiresNs
  complete : ∀ other ∈ aliases, ∃ entry ∈ cnames, ∃ record ∈ entry.2,
    record.owner = other.owner ∧ record.target = other.target

theorem Groups.deduplicated {aliases : List DnsCnameObservation}
    {cnames : List (ServiceName × List DnsCnameObservation)} (h : Groups aliases cnames) :
    Deduplicated aliases (cnames.map fun entry => (entry.1, canonicalCnames entry.2)) where
  kept := by
    intro entry hentry record hrecord
    obtain ⟨group, hgroup, rfl⟩ := List.mem_map.mp hentry
    exact h.kept group hgroup record (mem_of_mem_canonicalCnames hrecord)
  owners := by
    rw [List.map_map]
    exact h.owners
  targets := by
    intro entry hentry
    obtain ⟨group, -, rfl⟩ := List.mem_map.mp hentry
    exact nodup_canonicalCnames group.2
  earliest := by
    intro entry hentry record hrecord
    obtain ⟨group, hgroup, rfl⟩ := List.mem_map.mp hentry
    have hmem := mem_of_mem_canonicalCnames hrecord
    refine ⟨(h.mem record).mp ⟨group, hgroup, hmem⟩, fun other hother howner htarget => ?_⟩
    -- the other is of the same group, whose kept record of that target is this one
    obtain ⟨group', hgroup', hother⟩ := (h.mem other).mpr hother
    have hsame : group = group' := h.entry_eq hgroup hgroup'
      (by rw [← h.kept group hgroup record hmem, ← howner, h.kept group' hgroup' other hother])
    obtain ⟨kept, hkept, hkeptTarget, hle⟩ := exists_mem_canonicalCnames (hsame ▸ hother)
    have heq : kept = record := List.inj_on_of_nodup_map (nodup_canonicalCnames group.2) hkept
      hrecord (hkeptTarget.trans htarget)
    rwa [← heq]
  complete := by
    intro other hother
    obtain ⟨group, hgroup, hother⟩ := (h.mem other).mpr hother
    obtain ⟨kept, hkept, htarget, -⟩ := exists_mem_canonicalCnames hother
    refine ⟨_, List.mem_map_of_mem hgroup, kept, hkept, ?_, htarget⟩
    rw [h.kept group hgroup kept (mem_of_mem_canonicalCnames hkept), h.kept group hgroup other hother]

/-! ## Responses -/

/-- The header and the question that are expected. -/
structure Expected (query : Query) (message : Message) : Prop where
  transaction : message.transaction = query.transaction
  response : message.flags / 2 ^ 15 % 2 = 1
  opcode : message.flags / 2 ^ 11 % 16 = 0
  notTruncated : message.flags / 2 ^ 9 % 2 = 0
  noError : message.flags % 16 = 0
  question : message.question = query.name.asStr
  questionType : message.questionType = query.type.code
  questionClass : message.questionClass = classIn

/-- A mask of `k` bits from bit `i` on. -/
theorem and_mask (n i k : Nat) : n &&& (2 ^ k - 1) * 2 ^ i = n / 2 ^ i % 2 ^ k * 2 ^ i := by
  rw [← Nat.shiftLeft_eq, ← Nat.shiftLeft_eq, ← Nat.shiftRight_eq_div_pow]
  apply Nat.eq_of_testBit_eq
  intro j
  rw [Nat.testBit_and, Nat.testBit_shiftLeft, Nat.testBit_shiftLeft, Nat.testBit_two_pow_sub_one,
    Nat.testBit_mod_two_pow, Nat.testBit_shiftRight]
  by_cases hij : i ≤ j
  · simp [hij, Bool.and_comm]
  · simp [hij]

/-- A byte string that is accepted is a message, and what is returned is in its answer
section. -/
theorem parseResponse_exact {bytes : List UInt8} {query : Query} {parsed : ParsedResponse}
    (h : parseResponse bytes query = .ok parsed) :
    ∃ message, Layout bytes message ∧ (∀ other, Layout bytes other → other = message) ∧
      Expected query message ∧
      List.Forall₂ (IsAnswer bytes query) (ofType query.type.code message.answers)
        parsed.addresses ∧
      ∃ aliases, List.Forall₂ (IsAlias bytes query) (ofType cnameCode message.answers) aliases ∧
        Deduplicated aliases parsed.cnames := by
  simp only [parseResponse, bind_eq_ok, rejectIf_eq_ok, pure_eq_ok, not_not] at h
  obtain ⟨_, -, transaction, htransaction, _, rfl, flags, hflags, _, hbits, _, hcode, questions,
    hquestions, answers, hanswers, authority, hauthority, additional, hadditional, _, rfl,
    ⟨question, cursor⟩, hquestion, _, rfl, questionType, htype, _, rfl, questionClass, hclass, _,
    rfl, ⟨read, cursor'⟩, hread, _, rfl, rfl⟩ := h
  obtain ⟨records, hcount, hrecords, aliases, addresses, hcnames, haddresses, haliases, hanswer⟩ :=
    adds_of_readRecords hread
  let message : Message :=
    { transaction := query.transaction
      flags := flags
      question := query.name.asStr
      questionType := query.type.code
      questionClass := classIn
      answers := records.take answers
      authority := (records.drop answers).take authority
      additional := (records.drop answers).drop authority }
  have hlayout : Layout bytes message :=
    { transaction := readNumber_eq_ok.mp htransaction
      flags := readNumber_eq_ok.mp hflags
      questions := readNumber_eq_ok.mp hquestions
      answers := by
        show NumberAt 2 bytes 6 (records.take answers).length
        rw [List.length_take, min_eq_left (by omega)]
        exact readNumber_eq_ok.mp hanswers
      authority := by
        show NumberAt 2 bytes 8 ((records.drop answers).take authority).length
        rw [List.length_take, List.length_drop, min_eq_left (by omega)]
        exact readNumber_eq_ok.mp hauthority
      additional := by
        show NumberAt 2 bytes 10 ((records.drop answers).drop authority).length
        rw [List.length_drop, List.length_drop,
          show records.length - answers - authority = additional by omega]
        exact readNumber_eq_ok.mp hadditional
      records := by
        refine ⟨cursor, nameAt_of_readName hquestion, readNumber_eq_ok.mp htype,
          readNumber_eq_ok.mp hclass, ?_⟩
        rw [List.append_assoc, List.take_append_drop, List.take_append_drop]
        exact hrecords }
  have hexpected : Expected query message := by
    have h15 := and_mask flags 15 1
    have h11 := and_mask flags 11 4
    have h9 := and_mask flags 9 1
    have h0 := and_mask flags 0 4
    norm_num at h15 h11 h9 h0 hbits hcode
    refine ⟨rfl, ?_, ?_, ?_, ?_, rfl, rfl, rfl⟩
    · show flags / 2 ^ 15 % 2 = 1
      omega
    · show flags / 2 ^ 11 % 16 = 0
      omega
    · show flags / 2 ^ 9 % 2 = 0
      omega
    · show flags % 16 = 0
      omega
  refine ⟨message, hlayout, fun other hother => hother.unique hlayout, hexpected, ?_, aliases,
    haliases, ?_⟩
  · rwa [haddresses]
  · have hgroups : Groups [] [] := ⟨by simp [KeptByOwner], by simp, by simp⟩
    have hgrouped := groups_foldl aliases hgroups
    rw [hcnames]
    exact hgrouped.deduplicated

/-- A record of the name in the question. -/
def wireRecord (code ttl : UInt8) (data : List UInt8) : List UInt8 :=
  [0xc0, 12, 0, code, 0, 1, 0, 0, 0, ttl, 0, UInt8.ofNat data.length] ++ data

/-- `a.example` is an alias of `b.example`, said twice; the authority section has an
address. -/
def wireResponse : List UInt8 :=
  [0, 7, 0x81, 0x80, 0, 1, 0, 2, 0, 1, 0, 0] ++
    [1, 0x61, 7, 0x65, 0x78, 0x61, 0x6d, 0x70, 0x6c, 0x65, 0, 0, 1, 0, 1] ++
    wireRecord 5 60 [1, 0x62, 0xc0, 14] ++ wireRecord 5 40 [1, 0x62, 0xc0, 14] ++
    wireRecord 1 50 [192, 0, 2, 1]

def wireQuery : Query where
  transaction := 7
  name := ⟨"a.example", by decide +kernel⟩
  type := .a
  messageIdentity := Sha256.hash wireResponse
  observedNs := 1000

theorem parseResponse_exact_sample :
    ∃ parsed, parseResponse wireResponse wireQuery = .ok parsed ∧ parsed.addresses = [] ∧
      parsed.cnames.map (fun entry => entry.2.map DnsCnameObservation.expiresNs) =
        [[40000001000]] ∧
      ∃ message, Layout wireResponse message ∧
        (∀ other, Layout wireResponse other → other = message) ∧ Expected wireQuery message ∧
        List.Forall₂ (IsAnswer wireResponse wireQuery)
          (ofType wireQuery.type.code message.answers) parsed.addresses ∧
        ∃ aliases, List.Forall₂ (IsAlias wireResponse wireQuery)
            (ofType cnameCode message.answers) aliases ∧
          Deduplicated aliases parsed.cnames := by
  let parsed := (parseResponse wireResponse wireQuery).toOption.getD ⟨[], []⟩
  have h : parseResponse wireResponse wireQuery = .ok parsed := by decide +kernel
  exact ⟨parsed, h, by decide +kernel, by decide +kernel, parseResponse_exact h⟩

end ProofboundRuntime.Connector.Dns
