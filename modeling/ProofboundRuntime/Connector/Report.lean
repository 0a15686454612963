import ProofboundRuntime.Lib.Layout
import ProofboundRuntime.Core.Receipt
import ProofboundRuntime.Connector.DnsMessage

/-!
# Reports of the connector process

`connector_process.rs`: the connector reports to its supervisor with one packet when the
session is authenticated, one when the traffic has ended, and one when it fails.  The
packets have a fixed layout that the encoder writes in sequence and the decoder reads by
offset.

`decodeReport_eq_ok` says which packets are accepted: exactly the encodings of the
reports that `ConnectorReport.Valid` describes, each decoded to its report.
-/

namespace ProofboundRuntime.Connector.Process

open Result Layout
open ProofboundRuntime.Core (ExecutionId Sha256Digest)
open Connector.Dns (IpAddr)

/-! ## Reports -/

inductive ConnectorFailureStage where
  | bootstrap
  | resolution
  | authentication
  | channel
deriving DecidableEq

structure ConnectorFailure where
  stage : ConnectorFailureStage
  code : UInt8
deriving DecidableEq

/-- The `ConnectorProcessError`s of the codec and of the connector's own process. -/
inductive ConnectorProcessError where
  | artifactIdentity
  | artifactIdentityDrift
  | artifactTooLarge
  | planInvalid
  | bindingInvalid
  | bootstrapInvalid
  | protocol
  | engine
deriving DecidableEq

@[ext] structure ConnectorProcessGeneration where
  get : UInt64
  ne_zero : get ≠ 0

instance : DecidableEq ConnectorProcessGeneration :=
  fun _ _ => decidable_of_iff _ ConnectorProcessGeneration.ext_iff.symm

def ConnectorProcessGeneration.new (value : UInt64) :
    Except ConnectorProcessError ConnectorProcessGeneration :=
  if h : value = 0 then .error .bindingInvalid else .ok ⟨value, h⟩

structure ServiceChannelId where
  bytes : Vector UInt8 16
  ne_zero : bytes ≠ Vector.replicate 16 0
deriving DecidableEq

def ServiceChannelId.new (value : Vector UInt8 16) :
    Except ConnectorProcessError ServiceChannelId :=
  if h : value = Vector.replicate 16 0 then .error .bindingInvalid else .ok ⟨value, h⟩

structure TcpPort where
  get : UInt16
  ne_zero : get ≠ 0
deriving DecidableEq

/-- `SocketAddr::new` of an address and a port; an IPv6 endpoint has no flow or scope. -/
structure SocketAddr where
  ip : IpAddr
  port : UInt16
deriving DecidableEq

inductive TlsVersion where
  | tls12
  | tls13
deriving DecidableEq

structure ConnectorReady where
  executionId : ExecutionId
  policyDigest : Sha256Digest
  processGeneration : ConnectorProcessGeneration
  channelId : ServiceChannelId
  setupBindingDigest : Sha256Digest
  dnsObservationDigest : Sha256Digest
  selectedEndpoint : SocketAddr
  tlsVersion : TlsVersion
  tlsImplementationDigest : Sha256Digest
  certificateChainDigest : Sha256Digest
  handshakeBytes : UInt64
  authenticatedNs : UInt64
deriving DecidableEq

structure ConnectorTerminal where
  childToServiceBytes : UInt64
  serviceToChildBytes : UInt64
  activeNs : UInt64
  closedNs : UInt64
deriving DecidableEq

inductive ConnectorReport where
  | ready (ready : ConnectorReady)
  | terminal (terminal : ConnectorTerminal)
  | failure (failure : ConnectorFailure)
deriving DecidableEq

/-! ## Encoding -/

/-- `REPORT_MAGIC`. -/
def reportMagic : List UInt8 := Utf8.bytes "PBRCP001"

/-- `READY_REPORT`. -/
def readyReport : UInt8 := 1

/-- `TERMINAL_REPORT`. -/
def terminalReport : UInt8 := 2

/-- `FAILURE_REPORT`. -/
def failureReport : UInt8 := 3

/-- `u64::to_be_bytes`. -/
def toBeBytes (value : UInt64) : List UInt8 := BigEndian.toBytes 8 value.toNat

def encodeEndpoint (endpoint : SocketAddr) : List UInt8 :=
  (match endpoint.ip with
    | .v4 octets => 4 :: octets.toList ++ List.replicate 12 0
    | .v6 octets => 6 :: octets.toList) ++
  BigEndian.toBytes 2 endpoint.port.toNat

def TlsVersion.code : TlsVersion → UInt8
  | .tls12 => 12
  | .tls13 => 13

def ConnectorFailureStage.code : ConnectorFailureStage → UInt8
  | .bootstrap => 1
  | .resolution => 2
  | .authentication => 3
  | .channel => 4

/-- The parts of a ready report in their order. -/
def readyParts (ready : ConnectorReady) : List (List UInt8) :=
  [reportMagic, [readyReport], ready.executionId.bytes.toList, ready.policyDigest.toList,
    toBeBytes ready.processGeneration.get, ready.channelId.bytes.toList,
    ready.setupBindingDigest.toList, ready.dnsObservationDigest.toList,
    encodeEndpoint ready.selectedEndpoint, [ready.tlsVersion.code],
    ready.tlsImplementationDigest.toList, ready.certificateChainDigest.toList,
    toBeBytes ready.handshakeBytes, toBeBytes ready.authenticatedNs]

def encodeReady (ready : ConnectorReady) : List UInt8 := (readyParts ready).flatten

def terminalParts (terminal : ConnectorTerminal) : List (List UInt8) :=
  [reportMagic, [terminalReport], toBeBytes terminal.childToServiceBytes,
    toBeBytes terminal.serviceToChildBytes, toBeBytes terminal.activeNs,
    toBeBytes terminal.closedNs]

def encodeTerminal (terminal : ConnectorTerminal) : List UInt8 := (terminalParts terminal).flatten

def failureParts (failure : ConnectorFailure) : List (List UInt8) :=
  [reportMagic, [failureReport], [failure.stage.code], [failure.code]]

def encodeFailure (failure : ConnectorFailure) : List UInt8 := (failureParts failure).flatten

/-- The packet of a report. -/
def ConnectorReport.encode : ConnectorReport → List UInt8
  | .ready report => encodeReady report
  | .terminal report => encodeTerminal report
  | .failure report => encodeFailure report

/-! ## Decoding -/

/-- `array_at`: the bytes at an offset, as many as are asked for. -/
def arrayAt {n : Nat} (bytes : List UInt8) (offset : Nat) :
    Except ConnectorProcessError (Vector UInt8 n) :=
  if h : offset + n ≤ bytes.length then
    .ok ⟨(slice bytes offset n).toArray, by rw [List.size_toArray, length_slice h]⟩
  else .error .protocol

/-- `u64::from_be_bytes`. -/
def fromBeBytes (bytes : Vector UInt8 8) : UInt64 := UInt64.ofNat (BigEndian.ofBytes bytes.toList)

def decodeEndpoint (bytes : Vector UInt8 19) : Except ConnectorProcessError SocketAddr := do
  let port := UInt16.ofNat (BigEndian.ofBytes [bytes[17], bytes[18]])
  rejectIf (port = 0) .protocol
  if bytes[0] = 4 ∧ slice bytes.toList 5 12 = List.replicate 12 0 then
    pure ⟨.v4 #v[bytes[1], bytes[2], bytes[3], bytes[4]], port⟩
  else if bytes[0] = 6 then do
    let octets ← arrayAt bytes.toList 1
    pure ⟨.v6 octets, port⟩
  else throw .protocol

def decodeTlsVersion (code : UInt8) : Except ConnectorProcessError TlsVersion :=
  if code = 12 then pure .tls12 else if code = 13 then pure .tls13 else throw .protocol

/-- The fields of a ready report, at their offsets. -/
def decodeReady (bytes : List UInt8) : Except ConnectorProcessError ConnectorReady := do
  let executionId ← (ExecutionId.fromBytes (← arrayAt bytes 9)).mapError fun _ => .protocol
  let policyDigest ← arrayAt bytes 25
  let processGeneration ←
    (ConnectorProcessGeneration.new (fromBeBytes (← arrayAt bytes 57))).mapError fun _ => .protocol
  let channelId ← (ServiceChannelId.new (← arrayAt bytes 65)).mapError fun _ => .protocol
  let setupBindingDigest ← arrayAt bytes 81
  let dnsObservationDigest ← arrayAt bytes 113
  let selectedEndpoint ← decodeEndpoint (← arrayAt bytes 145)
  let tlsVersion ← decodeTlsVersion (bytes.getD 164 0)
  let tlsImplementationDigest ← arrayAt bytes 165
  let certificateChainDigest ← arrayAt bytes 197
  let handshakeBytes ← arrayAt bytes 229
  let authenticatedNs ← arrayAt bytes 237
  pure ⟨executionId, policyDigest, processGeneration, channelId, setupBindingDigest,
    dnsObservationDigest, selectedEndpoint, tlsVersion, tlsImplementationDigest,
    certificateChainDigest, fromBeBytes handshakeBytes, fromBeBytes authenticatedNs⟩

def decodeTerminal (bytes : List UInt8) : Except ConnectorProcessError ConnectorTerminal := do
  let childToServiceBytes ← arrayAt bytes 9
  let serviceToChildBytes ← arrayAt bytes 17
  let activeNs ← arrayAt bytes 25
  let closedNs ← arrayAt bytes 33
  pure ⟨fromBeBytes childToServiceBytes, fromBeBytes serviceToChildBytes, fromBeBytes activeNs,
    fromBeBytes closedNs⟩

def decodeStage (code : UInt8) : Except ConnectorProcessError ConnectorFailureStage :=
  if code = 1 then pure .bootstrap
  else if code = 2 then pure .resolution
  else if code = 3 then pure .authentication
  else if code = 4 then pure .channel
  else throw .protocol

def validFailureCode (stage : ConnectorFailureStage) (code : UInt8) : Bool :=
  match stage with
  | .bootstrap => 1 ≤ code && code ≤ 5
  | .resolution => 1 ≤ code && code ≤ 12
  | .authentication => 1 ≤ code && code ≤ 19
  | .channel => (1 ≤ code && code ≤ 4) || (33 ≤ code && code ≤ 51)

def decodeFailure (bytes : List UInt8) : Except ConnectorProcessError ConnectorFailure := do
  let stage ← decodeStage (bytes.getD 9 0)
  rejectIf (validFailureCode stage (bytes.getD 10 0) = false) .protocol
  pure ⟨stage, bytes.getD 10 0⟩

def decodeReport (bytes : List UInt8) : Except ConnectorProcessError ConnectorReport := do
  rejectIf (slice bytes 0 8 ≠ reportMagic) .protocol
  if bytes[8]? = some readyReport ∧ bytes.length = 245 then
    (.ready ·) <$> decodeReady bytes
  else if bytes[8]? = some terminalReport ∧ bytes.length = 41 then
    (.terminal ·) <$> decodeTerminal bytes
  else if bytes[8]? = some failureReport ∧ bytes.length = 11 then
    (.failure ·) <$> decodeFailure bytes
  else throw .protocol

/-! ## The fields -/

variable {bytes : List UInt8} {offset : Nat}

theorem arrayAt_eq_ok {n : Nat} {array : Vector UInt8 n} (h : offset + n ≤ bytes.length) :
    arrayAt bytes offset = .ok array ↔ slice bytes offset n = array.toList := by
  rw [arrayAt, dif_pos h, Except.ok.injEq, ← Vector.toList_inj]
  rfl

theorem getD_eq_iff {b : UInt8} (h : offset < bytes.length) :
    bytes.getD offset 0 = b ↔ slice bytes offset 1 = [b] := by
  rw [slice, List.drop_eq_getElem_cons h, List.take_succ_cons, List.take_zero,
    List.getD_eq_getElem _ _ h, List.cons.injEq, and_iff_left rfl]

@[simp] theorem length_toBeBytes (value : UInt64) : (toBeBytes value).length = 8 :=
  BigEndian.length_toBytes 8 _

variable {value : UInt64}

theorem fromBeBytes_eq_iff {bytes : Vector UInt8 8} :
    fromBeBytes bytes = value ↔ bytes.toList = toBeBytes value := by
  have hlt : BigEndian.ofBytes bytes.toList < 2 ^ 64 := by
    have := BigEndian.ofBytes_lt bytes.toList
    rwa [Vector.length_toList] at this
  rw [fromBeBytes, toBeBytes]
  constructor
  · rintro rfl
    rw [UInt64.toNat_ofNat_of_lt' hlt]
    have := BigEndian.toBytes_ofBytes bytes.toList
    rw [Vector.length_toList] at this
    exact this.symm
  · intro h
    rw [h, BigEndian.ofBytes_toBytes value.toNat_lt, UInt64.ofNat_toNat]

theorem ConnectorProcessGeneration.new_eq_ok {generation : ConnectorProcessGeneration} :
    new value = .ok generation ↔ value = generation.get := by
  rw [new]
  split
  next h =>
    simp only [reduceCtorEq, false_iff]
    exact fun heq => generation.ne_zero (heq ▸ h)
  next h =>
    cases generation
    simp

theorem ServiceChannelId.new_eq_ok {value : Vector UInt8 16} {id : ServiceChannelId} :
    new value = .ok id ↔ value = id.bytes := by
  rw [new]
  split
  next h =>
    simp only [reduceCtorEq, false_iff]
    exact fun heq => id.ne_zero (heq ▸ h)
  next h =>
    cases id
    simp

theorem executionId_fromBytes_eq_ok {value : Vector UInt8 16} {id : ExecutionId} :
    ExecutionId.fromBytes value = .ok id ↔ value = id.bytes := by
  rw [ExecutionId.fromBytes]
  obtain ⟨bytes, version, variant⟩ := id
  split
  next h =>
    simp only [reduceCtorEq, false_iff]
    rintro rfl
    exact h version
  next h =>
    split
    next h =>
      simp only [reduceCtorEq, false_iff]
      rintro rfl
      exact h variant
    next h => simp

theorem decodeTlsVersion_eq_ok {code : UInt8} {version : TlsVersion} :
    decodeTlsVersion code = .ok version ↔ code = version.code := by
  rw [decodeTlsVersion]
  split_ifs with h12 h13
  · cases version <;> simp [h12, TlsVersion.code]
  · cases version <;> simp [h13, TlsVersion.code]
  · cases version <;> simp [h12, h13, TlsVersion.code]

theorem decodeStage_eq_ok {code : UInt8} {stage : ConnectorFailureStage} :
    decodeStage code = .ok stage ↔ code = stage.code := by
  rw [decodeStage]
  split_ifs with h1 h2 h3 h4
  · cases stage <;> simp [h1, ConnectorFailureStage.code]
  · cases stage <;> simp [h2, ConnectorFailureStage.code]
  · cases stage <;> simp [h3, ConnectorFailureStage.code]
  · cases stage <;> simp [h4, ConnectorFailureStage.code]
  · cases stage <;> simp [h1, h2, h3, h4, ConnectorFailureStage.code]

variable {port : UInt16}

theorem port_eq_iff {a b : UInt8} :
    UInt16.ofNat (BigEndian.ofBytes [a, b]) = port ↔
      [a, b] = BigEndian.toBytes 2 port.toNat := by
  have hlt : BigEndian.ofBytes [a, b] < 2 ^ 16 := by
    have := BigEndian.ofBytes_lt [a, b]
    rwa [List.length_cons, List.length_singleton] at this
  constructor
  · rintro rfl
    rw [UInt16.toNat_ofNat_of_lt' hlt]
    exact (BigEndian.toBytes_ofBytes [a, b]).symm
  · intro h
    rw [h, BigEndian.ofBytes_toBytes port.toNat_lt, UInt16.ofNat_toNat]

theorem encodeEndpoint_v4 (octets : Vector UInt8 4) (port : UInt16) :
    encodeEndpoint ⟨.v4 octets, port⟩ = [[4], octets.toList, List.replicate 12 0,
      BigEndian.toBytes 2 port.toNat].flatten := by
  simp [encodeEndpoint]

theorem encodeEndpoint_v6 (octets : Vector UInt8 16) (port : UInt16) :
    encodeEndpoint ⟨.v6 octets, port⟩ = [[6], octets.toList,
      BigEndian.toBytes 2 port.toNat].flatten := by
  simp [encodeEndpoint]

theorem length_encodeEndpoint (endpoint : SocketAddr) : (encodeEndpoint endpoint).length = 19 := by
  obtain ⟨ip, port⟩ := endpoint
  cases ip <;> simp [encodeEndpoint]

/-- The bytes of an endpoint by what they hold at each offset. -/
theorem toList_eq_v4_iff {bytes : Vector UInt8 19} {octets : Vector UInt8 4} :
    bytes.toList = encodeEndpoint ⟨.v4 octets, port⟩ ↔
      bytes[0] = 4 ∧ #v[bytes[1], bytes[2], bytes[3], bytes[4]] = octets ∧
        slice bytes.toList 5 12 = List.replicate 12 0 ∧
        [bytes[17], bytes[18]] = BigEndian.toBytes 2 port.toNat := by
  rw [encodeEndpoint_v4, eq_flatten_iff, ← Vector.toList_inj]
  obtain ⟨⟨l⟩, hl⟩ := bytes
  match l, hl with
  | [_, _, _, _, _, _, _, _, _, _, _, _, _, _, _, _, _, _, _], _ => simp [slices, slice]

theorem toList_eq_v6_iff {bytes : Vector UInt8 19} {octets : Vector UInt8 16} :
    bytes.toList = encodeEndpoint ⟨.v6 octets, port⟩ ↔
      bytes[0] = 6 ∧ slice bytes.toList 1 16 = octets.toList ∧
        [bytes[17], bytes[18]] = BigEndian.toBytes 2 port.toNat := by
  rw [encodeEndpoint_v6, eq_flatten_iff]
  obtain ⟨⟨l⟩, hl⟩ := bytes
  match l, hl with
  | [_, _, _, _, _, _, _, _, _, _, _, _, _, _, _, _, _, _, _], _ => simp [slices, slice]

theorem decodeEndpoint_eq_ok {bytes : Vector UInt8 19} {endpoint : SocketAddr} :
    decodeEndpoint bytes = .ok endpoint ↔
      endpoint.port ≠ 0 ∧ bytes.toList = encodeEndpoint endpoint := by
  have hlength : 1 + 16 ≤ bytes.toList.length := by simp
  rw [decodeEndpoint, check_bind_eq_ok, rejectIf_eq_ok]
  obtain ⟨ip, port⟩ := endpoint
  constructor
  · intro ⟨hport, h⟩
    split_ifs at h with h4 h6
    · obtain ⟨rfl, rfl⟩ := SocketAddr.mk.inj (pure_eq_ok.mp h)
      exact ⟨hport, toList_eq_v4_iff.mpr ⟨h4.1, rfl, h4.2, port_eq_iff.mp rfl⟩⟩
    · obtain ⟨octets, hoctets, h⟩ := Result.bind_eq_ok.mp h
      obtain ⟨rfl, rfl⟩ := SocketAddr.mk.inj (pure_eq_ok.mp h)
      exact ⟨hport, toList_eq_v6_iff.mpr
        ⟨h6, (arrayAt_eq_ok hlength).mp hoctets, port_eq_iff.mp rfl⟩⟩
  · intro ⟨hport, h⟩
    cases ip with
    | v4 octets =>
      obtain ⟨hfamily, rfl, hpadding, hbytes⟩ := toList_eq_v4_iff.mp h
      rw [port_eq_iff.mpr hbytes, if_pos ⟨hfamily, hpadding⟩]
      exact ⟨hport, rfl⟩
    | v6 octets =>
      obtain ⟨hfamily, hoctets, hbytes⟩ := toList_eq_v6_iff.mp h
      have h4 : ¬(bytes[0] = 4 ∧ slice bytes.toList 5 12 = List.replicate 12 0) := by
        rw [hfamily]
        exact fun h => absurd h.1 (by decide)
      rw [port_eq_iff.mpr hbytes, if_neg h4, if_pos hfamily,
        (arrayAt_eq_ok hlength).mpr hoctets, ok_bind]
      exact ⟨hport, rfl⟩

/-! ## The packets that are accepted -/

/-- What the decoder asks of a report. -/
def ConnectorReport.Valid : ConnectorReport → Prop
  | .ready report => report.selectedEndpoint.port ≠ 0
  | .terminal _ => True
  | .failure report => validFailureCode report.stage report.code = true

theorem length_reportMagic : reportMagic.length = 8 := by decide

theorem eq_encodeReady_iff {ready : ConnectorReady} :
    bytes = encodeReady ready ↔ bytes.length = 245 ∧ slice bytes 0 8 = reportMagic ∧
      slice bytes 8 1 = [readyReport] ∧ slice bytes 9 16 = ready.executionId.bytes.toList ∧
      slice bytes 25 32 = ready.policyDigest.toList ∧
      slice bytes 57 8 = toBeBytes ready.processGeneration.get ∧
      slice bytes 65 16 = ready.channelId.bytes.toList ∧
      slice bytes 81 32 = ready.setupBindingDigest.toList ∧
      slice bytes 113 32 = ready.dnsObservationDigest.toList ∧
      slice bytes 145 19 = encodeEndpoint ready.selectedEndpoint ∧
      slice bytes 164 1 = [ready.tlsVersion.code] ∧
      slice bytes 165 32 = ready.tlsImplementationDigest.toList ∧
      slice bytes 197 32 = ready.certificateChainDigest.toList ∧
      slice bytes 229 8 = toBeBytes ready.handshakeBytes ∧
      slice bytes 237 8 = toBeBytes ready.authenticatedNs := by
  rw [encodeReady, eq_flatten_iff]
  simp [readyParts, slices, length_reportMagic, length_encodeEndpoint]

theorem eq_encodeTerminal_iff {terminal : ConnectorTerminal} :
    bytes = encodeTerminal terminal ↔ bytes.length = 41 ∧ slice bytes 0 8 = reportMagic ∧
      slice bytes 8 1 = [terminalReport] ∧
      slice bytes 9 8 = toBeBytes terminal.childToServiceBytes ∧
      slice bytes 17 8 = toBeBytes terminal.serviceToChildBytes ∧
      slice bytes 25 8 = toBeBytes terminal.activeNs ∧
      slice bytes 33 8 = toBeBytes terminal.closedNs := by
  rw [encodeTerminal, eq_flatten_iff]
  simp [terminalParts, slices, length_reportMagic]

theorem eq_encodeFailure_iff {failure : ConnectorFailure} :
    bytes = encodeFailure failure ↔ bytes.length = 11 ∧ slice bytes 0 8 = reportMagic ∧
      slice bytes 8 1 = [failureReport] ∧ slice bytes 9 1 = [failure.stage.code] ∧
      slice bytes 10 1 = [failure.code] := by
  rw [encodeFailure, eq_flatten_iff]
  simp [failureParts, slices, length_reportMagic]

theorem exists_arrayAt {n : Nat} (h : offset + n ≤ bytes.length) :
    ∃ array : Vector UInt8 n, arrayAt bytes offset = .ok array ∧
      array.toList = slice bytes offset n := by
  refine ⟨⟨(slice bytes offset n).toArray, ?_⟩, ?_, rfl⟩
  · rw [List.size_toArray, length_slice h]
  · rw [arrayAt, dif_pos h]

theorem decodeReady_eq_ok {ready : ConnectorReady} (hlength : bytes.length = 245)
    (hmagic : slice bytes 0 8 = reportMagic) (hkind : slice bytes 8 1 = [readyReport]) :
    decodeReady bytes = .ok ready ↔
      ready.selectedEndpoint.port ≠ 0 ∧ bytes = encodeReady ready := by
  have harray : ∀ {n offset : Nat} {array : Vector UInt8 n}, offset + n ≤ 245 →
      (arrayAt bytes offset = .ok array ↔ slice bytes offset n = array.toList) := fun h =>
    arrayAt_eq_ok (hlength ▸ h)
  have htls : ∀ {b : UInt8}, bytes.getD 164 0 = b ↔ slice bytes 164 1 = [b] :=
    getD_eq_iff (by omega)
  rw [eq_encodeReady_iff]
  simp only [decodeReady, Result.bind_eq_ok, mapError_eq_ok, pure_eq_ok,
    executionId_fromBytes_eq_ok, ConnectorProcessGeneration.new_eq_ok, fromBeBytes_eq_iff,
    ServiceChannelId.new_eq_ok, decodeEndpoint_eq_ok, decodeTlsVersion_eq_ok, htls]
  constructor
  · rintro ⟨_, hid, id, rfl, policy, hpolicy, _, hnumber, generation, hgeneration, _, hchannel,
      channel, rfl, setup, hsetup, dns, hdns, _, hendpoint, endpoint, ⟨hport, hencode⟩, version,
      hversion, implementation, himplementation, chain, hchain, handshake, hhandshake,
      authenticated, hauthenticated, rfl⟩
    rw [harray (by decide)] at *
    exact ⟨hport, hlength, hmagic, hkind, hid, hpolicy, hnumber.trans hgeneration, hchannel, hsetup,
      hdns, hendpoint.trans hencode, hversion, himplementation, hchain,
      hhandshake.trans (fromBeBytes_eq_iff.mp rfl),
      hauthenticated.trans (fromBeBytes_eq_iff.mp rfl)⟩
  · rintro ⟨hport, _, _, _, hid, hpolicy, hgeneration, hchannel, hsetup, hdns, hendpoint, hversion,
      himplementation, hchain, hhandshake, hauthenticated⟩
    have hexists : ∀ {n : Nat} (offset : Nat), offset + n ≤ 245 → ∃ array : Vector UInt8 n,
        arrayAt bytes offset = .ok array ∧ array.toList = slice bytes offset n :=
      fun offset h => exists_arrayAt (hlength ▸ h)
    obtain ⟨number, hnumber, hnumberAt⟩ := hexists 57 (show 57 + 8 ≤ 245 by decide)
    obtain ⟨address, haddress, haddressAt⟩ := hexists 145 (show 145 + 19 ≤ 245 by decide)
    obtain ⟨handshake, hhandshake', hhandshakeAt⟩ := hexists 229 (show 229 + 8 ≤ 245 by decide)
    obtain ⟨authenticated, hauthenticated', hauthenticatedAt⟩ :=
      hexists 237 (show 237 + 8 ≤ 245 by decide)
    refine ⟨_, (harray (by decide)).mpr hid, _, rfl, _, (harray (by decide)).mpr hpolicy, number,
      hnumber, _, hnumberAt.trans hgeneration, _, (harray (by decide)).mpr hchannel, _, rfl, _,
      (harray (by decide)).mpr hsetup, _, (harray (by decide)).mpr hdns, address, haddress, _,
      ⟨hport, haddressAt.trans hendpoint⟩, _, hversion, _,
      (harray (by decide)).mpr himplementation, _, (harray (by decide)).mpr hchain, handshake,
      hhandshake', authenticated, hauthenticated', ?_⟩
    rw [fromBeBytes_eq_iff.mpr (hhandshakeAt.trans hhandshake),
      fromBeBytes_eq_iff.mpr (hauthenticatedAt.trans hauthenticated)]

theorem numberAt_eq_ok (h : offset + 8 ≤ bytes.length) :
    (∃ array, arrayAt bytes offset = .ok array ∧ fromBeBytes array = value) ↔
      slice bytes offset 8 = toBeBytes value := by
  simp only [fromBeBytes_eq_iff, arrayAt_eq_ok h]
  constructor
  · intro ⟨array, harray, hvalue⟩
    rw [harray, hvalue]
  · intro hslice
    obtain ⟨array, -, harray⟩ := exists_arrayAt h
    exact ⟨array, harray.symm, harray.trans hslice⟩

theorem decodeTerminal_eq_ok {terminal : ConnectorTerminal} (hlength : bytes.length = 41)
    (hmagic : slice bytes 0 8 = reportMagic) (hkind : slice bytes 8 1 = [terminalReport]) :
    decodeTerminal bytes = .ok terminal ↔ bytes = encodeTerminal terminal := by
  have hnumber : ∀ {offset : Nat} {value : UInt64}, offset + 8 ≤ 41 →
      ((∃ array, arrayAt bytes offset = .ok array ∧ fromBeBytes array = value) ↔
        slice bytes offset 8 = toBeBytes value) := fun h => numberAt_eq_ok (hlength ▸ h)
  rw [eq_encodeTerminal_iff, ← hnumber (by decide), ← hnumber (by decide), ← hnumber (by decide),
    ← hnumber (by decide)]
  simp only [decodeTerminal, Result.bind_eq_ok, pure_eq_ok]
  constructor
  · rintro ⟨sent, hsent, received, hreceived, active, hactive, closed, hclosed, rfl⟩
    exact ⟨hlength, hmagic, hkind, ⟨sent, hsent, rfl⟩, ⟨received, hreceived, rfl⟩,
      ⟨active, hactive, rfl⟩, ⟨closed, hclosed, rfl⟩⟩
  · rintro ⟨_, _, _, ⟨sent, hsent, hsent'⟩, ⟨received, hreceived, hreceived'⟩,
      ⟨active, hactive, hactive'⟩, ⟨closed, hclosed, hclosed'⟩⟩
    refine ⟨sent, hsent, received, hreceived, active, hactive, closed, hclosed, ?_⟩
    rw [hsent', hreceived', hactive', hclosed']

theorem decodeFailure_eq_ok {failure : ConnectorFailure} (hlength : bytes.length = 11)
    (hmagic : slice bytes 0 8 = reportMagic) (hkind : slice bytes 8 1 = [failureReport]) :
    decodeFailure bytes = .ok failure ↔
      validFailureCode failure.stage failure.code = true ∧ bytes = encodeFailure failure := by
  have hbyte : ∀ {offset : Nat} {b : UInt8}, offset < 11 →
      (slice bytes offset 1 = [b] ↔ bytes.getD offset 0 = b) := fun h =>
    (getD_eq_iff (hlength ▸ h)).symm
  rw [eq_encodeFailure_iff, hbyte (show 9 < 11 by decide), hbyte (show 10 < 11 by decide)]
  simp only [decodeFailure, Result.bind_eq_ok, decodeStage_eq_ok, rejectIf_eq_ok, pure_eq_ok,
    Bool.not_eq_false]
  constructor
  · rintro ⟨stage, hstage, _, hvalid, rfl⟩
    exact ⟨hvalid, hlength, hmagic, hkind, hstage, rfl⟩
  · rintro ⟨hvalid, _, _, _, hstage, hcode⟩
    refine ⟨failure.stage, hstage, (), ?_, ?_⟩
    · rwa [hcode]
    · rw [hcode]

theorem kindAt_iff {b : UInt8} : bytes[8]? = some b ↔ slice bytes 8 1 = [b] := by
  rw [slice, List.take_one, List.head?_drop]
  cases bytes[8]? <;> simp

/-- The accepted packets are the encodings of valid reports, and a packet is decoded to the
report it encodes. -/
theorem decodeReport_eq_ok {report : ConnectorReport} :
    decodeReport bytes = .ok report ↔ report.Valid ∧ bytes = report.encode := by
  rw [decodeReport, check_bind_eq_ok, rejectIf_eq_ok, not_not]
  simp only [kindAt_iff]
  constructor
  · intro ⟨hmagic, h⟩
    split_ifs at h with hready hterminal hfailure
    · obtain ⟨ready, hrun, rfl⟩ := map_eq_ok.mp h
      exact (decodeReady_eq_ok hready.2 hmagic hready.1).mp hrun
    · obtain ⟨terminal, hrun, rfl⟩ := map_eq_ok.mp h
      exact ⟨trivial, (decodeTerminal_eq_ok hterminal.2 hmagic hterminal.1).mp hrun⟩
    · obtain ⟨failure, hrun, rfl⟩ := map_eq_ok.mp h
      exact (decodeFailure_eq_ok hfailure.2 hmagic hfailure.1).mp hrun
  · intro ⟨hvalid, hbytes⟩
    cases report with
    | ready ready =>
      obtain ⟨hlength, hmagic, hkind, -⟩ := eq_encodeReady_iff.mp hbytes
      rw [if_pos ⟨hkind, hlength⟩, map_eq_ok]
      exact ⟨hmagic, ready, (decodeReady_eq_ok hlength hmagic hkind).mpr ⟨hvalid, hbytes⟩, rfl⟩
    | terminal terminal =>
      obtain ⟨hlength, hmagic, hkind, -⟩ := eq_encodeTerminal_iff.mp hbytes
      rw [if_neg (by omega), if_pos ⟨hkind, hlength⟩, map_eq_ok]
      exact ⟨hmagic, terminal, (decodeTerminal_eq_ok hlength hmagic hkind).mpr hbytes, rfl⟩
    | failure failure =>
      obtain ⟨hlength, hmagic, hkind, -⟩ := eq_encodeFailure_iff.mp hbytes
      rw [if_neg (by omega), if_neg (by omega), if_pos ⟨hkind, hlength⟩, map_eq_ok]
      exact ⟨hmagic, failure, (decodeFailure_eq_ok hlength hmagic hkind).mpr ⟨hvalid, hbytes⟩, rfl⟩

end ProofboundRuntime.Connector.Process
