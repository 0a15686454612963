import ProofboundRuntime.Core.Identity
import ProofboundRuntime.Core.Network
import ProofboundRuntime.Lib.BigEndian
import ProofboundRuntime.Lib.Dedup

/-!
# DNS responses

`parse_response` of the connector, on the bytes of one response.  Offsets are `usize`
in the source; they stay below the length of a message plus a few bytes, so no
addition overflows, and times are `u64`, with a check where one is computed.
-/

namespace ProofboundRuntime.Connector.Dns

open Result
open ProofboundRuntime.Core (ServiceName Sha256Digest)

inductive DnsError where
  | randomUnavailable
  | resolverUnavailable
  | requestFailed
  | responseFailed
  | responseTooLarge
  | messageLimit
  | deadline
  | malformedResponse
  | resolverFailure
  | invalidCnameChain
  | invalidAnswerSet
  | expiredAnswer
deriving DecidableEq

inductive IpAddr where
  | v4 (octets : Vector UInt8 4)
  | v6 (octets : Vector UInt8 16)
deriving DecidableEq

/-- The two kinds of address records that are asked for. -/
inductive RecordType where
  | a
  | aaaa
deriving DecidableEq

/-- `DNS_TYPE_A` and `DNS_TYPE_AAAA`. -/
def RecordType.code : RecordType → Nat
  | .a => 1
  | .aaaa => 28

/-- `DNS_TYPE_CNAME`. -/
def cnameCode : Nat := 5

/-- `DNS_CLASS_IN`. -/
def classIn : Nat := 1

/-- `DNS_HEADER_BYTES`. -/
def headerBytes : Nat := 12

/-- `MAX_DNS_NAME_POINTERS`. -/
def maxNamePointers : Nat := 128

structure DnsAnswer where
  name : ServiceName
  address : IpAddr
  messageIdentity : Sha256Digest
  ttlSeconds : Nat
  recordExpiresNs : Nat
  effectiveExpiresNs : Nat
deriving DecidableEq

structure DnsCnameObservation where
  owner : ServiceName
  target : ServiceName
  messageIdentity : Sha256Digest
  ttlSeconds : Nat
  expiresNs : Nat
deriving DecidableEq

/-- `ParsedResponse`; the aliases are kept by their owner. -/
structure ParsedResponse where
  cnames : List (ServiceName × List DnsCnameObservation)
  addresses : List DnsAnswer
deriving DecidableEq

/-! ## Fields -/

/-- A number of `width` bytes at an offset. -/
def readNumber (width : Nat) (bytes : List UInt8) (offset : Nat) : Except DnsError Nat :=
  let value := (bytes.drop offset).take width
  if value.length = width then .ok (BigEndian.ofBytes value) else .error .malformedResponse

def readU16 (bytes : List UInt8) (offset : Nat) : Except DnsError Nat := readNumber 2 bytes offset

def readU32 (bytes : List UInt8) (offset : Nat) : Except DnsError Nat := readNumber 4 bytes offset

def asciiLower (b : UInt8) : UInt8 := if 0x41 ≤ b ∧ b ≤ 0x5a then b + 0x20 else b

/-- The locals of `read_name`. -/
structure NameReader where
  labels : List (List UInt8)
  cursor : Nat
  next : Option Nat
  visited : List Nat

/-- The loop of `read_name`.  Bytes that are no UTF-8 are no label bytes either. -/
def readNameLoop (bytes : List UInt8) : Nat → NameReader → Except DnsError (String × Nat)
  | 0, _ => .error .malformedResponse
  | rounds + 1, reader => do
    let length ← okOr bytes[reader.cursor]? .malformedResponse
    if length &&& 0xc0 = 0xc0 then
      let low ← okOr bytes[reader.cursor + 1]? .malformedResponse
      let pointer := (length &&& 0x3f).toNat * 256 + low.toNat
      rejectIf (bytes.length ≤ pointer ∨ pointer ∈ reader.visited) .malformedResponse
      readNameLoop bytes rounds { reader with
        cursor := pointer
        next := reader.next <|> some (reader.cursor + 2)
        visited := pointer :: reader.visited }
    else
      rejectIf (length &&& 0xc0 ≠ 0 ∨ 63 < length) .malformedResponse
      let cursor := reader.cursor + 1
      if length = 0 then
        let name := List.intercalate [0x2e] reader.labels
        rejectIf (253 < name.length) .malformedResponse
        pure (Ascii.text name, reader.next.getD cursor)
      else
        let stop := cursor + length.toNat
        rejectIf (bytes.length < stop) .malformedResponse
        let label := ((bytes.drop cursor).take length.toNat).map asciiLower
        rejectIf (label.head? = some 0x2d ∨ label.getLast? = some 0x2d ∨
          ¬label.all ServiceName.isLabelByte) .malformedResponse
        readNameLoop bytes rounds { reader with
          labels := reader.labels ++ [label]
          cursor := stop }

/-- `read_name`: the name at an offset, and where it ends. -/
def readName (bytes : List UInt8) (start : Nat) : Except DnsError (String × Nat) :=
  readNameLoop bytes maxNamePointers ⟨[], start, none, []⟩

/-- `expiry`. -/
def expiry (ttlSeconds observedNs : Nat) : Except DnsError Nat := do
  rejectIf (ttlSeconds = 0) .expiredAnswer
  rejectIf (2 ^ 64 ≤ observedNs + ttlSeconds * 1000000000) .expiredAnswer
  pure (observedNs + ttlSeconds * 1000000000)

/-! ## Records -/

/-- What is expected of a response, and how it is recorded. -/
structure Query where
  transaction : Nat
  name : ServiceName
  type : RecordType
  messageIdentity : Sha256Digest
  observedNs : Nat

/-- `cname_observation`. -/
def cnameObservation (query : Query) (owner target : ServiceName) (ttl : Nat) :
    Except DnsError DnsCnameObservation := do
  let expiresNs ← expiry ttl query.observedNs
  pure ⟨owner, target, query.messageIdentity, ttl, expiresNs⟩

/-- `answer`. -/
def answer (query : Query) (name : ServiceName) (address : IpAddr) (ttl : Nat) :
    Except DnsError DnsAnswer := do
  let recordExpiresNs ← expiry ttl query.observedNs
  pure ⟨name, address, query.messageIdentity, ttl, recordExpiresNs, recordExpiresNs⟩

/-- `entry(owner).or_default().push(record)`. -/
def pushCname (record : DnsCnameObservation) :
    List (ServiceName × List DnsCnameObservation) → List (ServiceName × List DnsCnameObservation)
  | [] => [(record.owner, [record])]
  | (owner, records) :: cnames =>
    if owner = record.owner then (owner, records ++ [record]) :: cnames
    else (owner, records) :: pushCname record cnames

/-- The address in the data of an address record. -/
def recordAddress (type : RecordType) (data : List UInt8) : Option IpAddr :=
  match type with
  | .a => if h : data.length = 4 then some (.v4 ⟨data.toArray, by simpa using h⟩) else none
  | .aaaa => if h : data.length = 16 then some (.v6 ⟨data.toArray, by simpa using h⟩) else none

/-- One record of an answer section in class `IN`. -/
def readAnswerRecord (bytes : List UInt8) (query : Query) (ownerText : String)
    (recordType ttl cursor dataEnd : Nat) (parsed : ParsedResponse) :
    Except DnsError ParsedResponse := do
  let owner ← okOr (ServiceName.new ownerText) .malformedResponse
  if recordType = cnameCode then
    let (target, consumed) ← readName bytes cursor
    rejectIf (consumed ≠ dataEnd) .malformedResponse
    let target ← okOr (ServiceName.new target) .malformedResponse
    let record ← cnameObservation query owner target ttl
    pure { parsed with cnames := pushCname record parsed.cnames }
  else if recordType = query.type.code then
    let data := (bytes.drop cursor).take (dataEnd - cursor)
    let address ← okOr (recordAddress query.type data) .malformedResponse
    let record ← answer query owner address ttl
    pure { parsed with addresses := parsed.addresses ++ [record] }
  else pure parsed

/-- The records from `index` on: `left` of them, of which the first `answers` of the
message are answers. -/
def readRecords (bytes : List UInt8) (query : Query) (answers : Nat) :
    (left index cursor : Nat) → ParsedResponse → Except DnsError (ParsedResponse × Nat)
  | 0, _, cursor, parsed => .ok (parsed, cursor)
  | left + 1, index, cursor, parsed => do
    let (ownerText, cursor) ← readName bytes cursor
    let recordType ← readU16 bytes cursor
    let recordClass ← readU16 bytes (cursor + 2)
    let ttl ← readU32 bytes (cursor + 4)
    let dataLength ← readU16 bytes (cursor + 8)
    let cursor := cursor + 10
    let dataEnd := cursor + dataLength
    rejectIf (bytes.length < dataEnd) .malformedResponse
    let parsed ←
      if index < answers ∧ recordClass = classIn then
        readAnswerRecord bytes query ownerText recordType ttl cursor dataEnd parsed
      else pure parsed
    readRecords bytes query answers left (index + 1) dataEnd parsed

/-- The order of the aliases of one owner. -/
def cnameCmp : DnsCnameObservation → DnsCnameObservation → Ordering :=
  compareLex (fun a b => Utf8.cmp a.target.asStr b.target.asStr)
    (compareLex (compareOn DnsCnameObservation.expiresNs)
      (compareLex (compareOn fun record => record.messageIdentity.toList)
        (compareOn DnsCnameObservation.ttlSeconds)))

/-- The aliases of one owner, one for each target. -/
def canonicalCnames (records : List DnsCnameObservation) : List DnsCnameObservation :=
  Sorting.dedupBy (fun a b => a.target == b.target) (Sorting.sortBy cnameCmp records)

/-- `parse_response`. -/
def parseResponse (bytes : List UInt8) (query : Query) : Except DnsError ParsedResponse := do
  rejectIf (bytes.length < headerBytes) .malformedResponse
  let transaction ← readU16 bytes 0
  rejectIf (transaction ≠ query.transaction) .malformedResponse
  let flags ← readU16 bytes 2
  rejectIf (flags &&& 0x8000 = 0 ∨ flags &&& 0x7800 ≠ 0 ∨ flags &&& 0x0200 ≠ 0) .malformedResponse
  rejectIf (flags &&& 0x000f ≠ 0) .resolverFailure
  let questions ← readU16 bytes 4
  let answers ← readU16 bytes 6
  let authority ← readU16 bytes 8
  let additional ← readU16 bytes 10
  rejectIf (questions ≠ 1) .malformedResponse
  let (question, cursor) ← readName bytes headerBytes
  rejectIf (question ≠ query.name.asStr) .malformedResponse
  let questionType ← readU16 bytes cursor
  rejectIf (questionType ≠ query.type.code) .malformedResponse
  let questionClass ← readU16 bytes (cursor + 2)
  rejectIf (questionClass ≠ classIn) .malformedResponse
  let (parsed, cursor) ←
    readRecords bytes query answers (answers + authority + additional) 0 (cursor + 4) ⟨[], []⟩
  rejectIf (cursor ≠ bytes.length) .malformedResponse
  pure { parsed with cnames := parsed.cnames.map fun entry => (entry.1, canonicalCnames entry.2) }

/-! ## Aliases are kept by their owner -/

def KeptByOwner (cnames : List (ServiceName × List DnsCnameObservation)) : Prop :=
  ∀ entry ∈ cnames, ∀ record ∈ entry.2, record.owner = entry.1

theorem KeptByOwner.pushCname {cnames : List (ServiceName × List DnsCnameObservation)}
    (h : KeptByOwner cnames) (record : DnsCnameObservation) :
    KeptByOwner (pushCname record cnames) := by
  induction cnames with
  | nil => simp [Dns.pushCname, KeptByOwner]
  | cons entry cnames ih =>
    obtain ⟨howner, hcnames⟩ := List.forall_mem_cons.mp h
    rw [Dns.pushCname]
    split
    next heq =>
      refine List.forall_mem_cons.mpr ⟨fun other hother => ?_, hcnames⟩
      rcases List.mem_append.mp hother with hother | hother
      · exact howner other hother
      · rw [List.mem_singleton.mp hother]
        exact heq.symm
    next => exact List.forall_mem_cons.mpr ⟨howner, ih hcnames⟩

variable {bytes : List UInt8} {query : Query}

theorem keptByOwner_readAnswerRecord {ownerText : String} {recordType ttl cursor dataEnd : Nat}
    {parsed parsed' : ParsedResponse} (h : KeptByOwner parsed.cnames)
    (hread : readAnswerRecord bytes query ownerText recordType ttl cursor dataEnd parsed =
      .ok parsed') : KeptByOwner parsed'.cnames := by
  simp only [readAnswerRecord, bind_eq_ok] at hread
  obtain ⟨owner, -, hread⟩ := hread
  split at hread
  · simp only [bind_eq_ok, pure_eq_ok] at hread
    obtain ⟨_, -, _, -, _, -, record, -, rfl⟩ := hread
    exact h.pushCname record
  · split at hread
    · simp only [bind_eq_ok, pure_eq_ok] at hread
      obtain ⟨_, -, _, -, rfl⟩ := hread
      exact h
    · rw [pure_eq_ok] at hread
      exact hread ▸ h

theorem keptByOwner_readRecords {answers left index cursor cursor' : Nat}
    {parsed parsed' : ParsedResponse} (h : KeptByOwner parsed.cnames)
    (hread : readRecords bytes query answers left index cursor parsed = .ok (parsed', cursor')) :
    KeptByOwner parsed'.cnames := by
  induction left generalizing index cursor parsed with
  | zero =>
    cases hread
    exact h
  | succ left ih =>
    simp only [readRecords, bind_eq_ok] at hread
    obtain ⟨_, -, _, -, _, -, _, -, _, -, _, -, hread⟩ := hread
    split at hread
    · obtain ⟨next, hnext, hread⟩ := bind_eq_ok.mp hread
      exact ih (keptByOwner_readAnswerRecord h hnext) hread
    · exact ih h hread

theorem keptByOwner_parseResponse {parsed : ParsedResponse}
    (hparse : parseResponse bytes query = .ok parsed) : KeptByOwner parsed.cnames := by
  simp only [parseResponse, bind_eq_ok, pure_eq_ok] at hparse
  obtain ⟨_, -, _, -, _, -, _, -, _, -, _, -, _, -, _, -, _, -, _, -, _, -, _, -, _, -, _, -, _, -, _,
    -, _, -, read, hread, _, -, rfl⟩ := hparse
  have hkept : KeptByOwner read.1.cnames :=
    keptByOwner_readRecords (by simp [KeptByOwner]) hread
  intro entry hentry record hrecord
  obtain ⟨original, horiginal, rfl⟩ := List.mem_map.mp hentry
  have hmem := Sorting.mem_of_mem_dedupBy hrecord
  rw [Sorting.mem_sortBy] at hmem
  exact hkept original horiginal record hmem

end ProofboundRuntime.Connector.Dns
