import ProofboundRuntime.Core.RunResult

/-!
# Run results in the SDK

`RunResultProjection::from_json` of `sdk/src/lib.rs`.  It reads the JSON projection of a run
result back, but for a signal number above 255: the SDK keeps it as a `u8`
(`projection_readBack_iff`).
-/

namespace ProofboundRuntime.Sdk

open Result
open ProofboundRuntime.Core (RunResultV2 ExecutionOutcome ExecutionId Sha256Digest prefixedHex
  outcomeJson)

inductive SdkError where
  | resultMalformed
  | resultSchema
  | resultUnknownField
  | resultField
deriving DecidableEq

inductive RunOutcome where
  | exited (code : UInt8)
  | signaled (signal : UInt8)
  | timedOut
  | denied
  | launcherFailed
  | incomplete
deriving DecidableEq

structure RunResultProjection where
  receipt : String
  executionId : Vector UInt8 16
  commitment : Vector UInt8 32
  outcome : RunOutcome
deriving DecidableEq

/-- `RESULT_SCHEMA`. -/
def resultSchema : String := "proofbound-runtime-run-result/2"

def object : Json → Except SdkError (List (String × Json))
  | .object members => .ok members
  | _ => .error .resultField

/-- The keys are exactly the expected ones, as sets. -/
def requireKeys (root : List (String × Json)) (expected : List String) : Except SdkError Unit :=
  rejectIf (¬ (root.map Prod.fst ⊆ expected ∧ expected ⊆ root.map Prod.fst)) .resultUnknownField

/-- No key is taken twice, so the member is left in place. -/
def take (root : List (String × Json)) (name : String) : Except SdkError Json :=
  okOr (root.lookup name) .resultField

def text (value : Json) : Except SdkError String := okOr value.readString .resultField

/-- `as_u64` and `u8::try_from`. -/
def asU8 (value : Json) : Option UInt8 :=
  value.readU64.bind fun n => if n < 256 then some (UInt8.ofNat n) else none

def decodeOutcome (value : Json) : Except SdkError RunOutcome := do
  let outcome ← object value
  let kind ← okOr ((outcome.lookup "kind").bind Json.readString) .resultField
  if kind = "exited" then do
    requireKeys outcome ["code", "kind"]
    let value ← take outcome "code"
    let code ← okOr (asU8 value) .resultField
    pure (.exited code)
  else if kind = "signaled" then do
    requireKeys outcome ["kind", "signal"]
    let value ← take outcome "signal"
    let signal ← okOr ((asU8 value).filter (0 < ·)) .resultField
    pure (.signaled signal)
  else if kind = "timed-out" then do
    requireKeys outcome ["kind"]
    pure .timedOut
  else if kind = "denied" then do
    requireKeys outcome ["kind"]
    pure .denied
  else if kind = "launcher-failed" then do
    requireKeys outcome ["kind"]
    pure .launcherFailed
  else if kind = "incomplete" then do
    requireKeys outcome ["kind"]
    pure .incomplete
  else .error .resultField

/-- `strip_prefix("hex:")`. -/
def stripHex (value : String) : Option (List UInt8) :=
  if Utf8.bytes "hex:" <+: Utf8.bytes value then some ((Utf8.bytes value).drop 4) else none

def decodePrefixed (n : Nat) (value : String) : Except SdkError (Vector UInt8 n) := do
  let value ← okOr (stripHex value) .resultField
  rejectIf (value.length ≠ n * 2 ∨ ¬ value.all Ascii.isLowerHex) .resultField
  let output ← okOr (Hex.parse value) .resultField
  -- one byte for each pair of digits
  if h : output.length = n then .ok ⟨output.toArray, h⟩ else .error .resultField

/-- The reader after `serde_json::from_slice`. -/
def RunResultProjection.fromValue (value : Json) : Except SdkError RunResultProjection := do
  let root ← object value
  requireKeys root ["commitment", "execution_id", "outcome", "receipt", "schema"]
  let schema ← take root "schema"
  let schema ← text schema
  rejectIf (schema ≠ resultSchema) .resultSchema
  let receipt ← take root "receipt"
  let receipt ← text receipt
  rejectIf (receipt = "") .resultField
  let commitment ← take root "commitment"
  let commitment ← text commitment
  let commitment ← decodePrefixed 32 commitment
  let executionId ← take root "execution_id"
  let executionId ← text executionId
  let executionId ← decodePrefixed 16 executionId
  rejectIf (executionId.get Core.versionByte >>> 4 ≠ 4 ∨
    executionId.get Core.variantByte >>> 6 ≠ 2) .resultField
  let outcome ← take root "outcome"
  let outcome ← decodeOutcome outcome
  pure ⟨receipt, executionId, commitment, outcome⟩

/-- `from_json`, with the reader of `serde_json`. -/
def RunResultProjection.fromJson (fromSlice : List UInt8 → Option Json) (input : List UInt8) :
    Except SdkError RunResultProjection := do
  let value ← okOr (fromSlice input) .resultMalformed
  fromValue value

/-! ## Identifiers -/

theorem stripHex_prefixedHex (bytes : List UInt8) :
    stripHex (prefixedHex bytes) = some (Hex.ascii bytes) := by
  have hbytes : Utf8.bytes (prefixedHex bytes) = Utf8.bytes "hex:" ++ Hex.ascii bytes := by
    rw [prefixedHex, Utf8.bytes_append, Hex.bytes_text]
  have hlength : (Utf8.bytes "hex:").length = 4 := by decide
  rw [stripHex, hbytes, if_pos (List.prefix_append _ _), ← hlength, List.drop_left]

/-- The digits of a byte array are read back. -/
theorem decodePrefixed_prefixedHex {n : Nat} (value : Vector UInt8 n) :
    decodePrefixed n (prefixedHex value.toList) = .ok value := by
  have hlength : value.toList.length = n := by simp
  have hform : ¬ ((Hex.ascii value.toList).length ≠ n * 2 ∨
      ¬ (Hex.ascii value.toList).all Ascii.isLowerHex) := by
    rw [Hex.length_ascii, hlength, not_or, not_not, not_not]
    exact ⟨Nat.mul_comm 2 n, List.all_eq_true.mpr (Hex.isLowerHex_ascii _)⟩
  unfold decodePrefixed
  rw [stripHex_prefixedHex, okOr_some, ok_bind, rejectIf_false hform, ok_bind, Hex.parse_ascii,
    okOr_some, ok_bind, dif_pos hlength]
  exact congrArg _ (Vector.toArray_inj.mp (Array.toArray_toList))

/-- Both crates check the same bits. -/
theorem version_bits (id : ExecutionId) :
    ¬ (id.bytes.get Core.versionByte >>> 4 ≠ 4 ∨ id.bytes.get Core.variantByte >>> 6 ≠ 2) := by
  have hversion : ∀ n : Fin 256, UInt8.ofNat n &&& 0xf0 = 0x40 → UInt8.ofNat n >>> 4 = 4 := by
    decide +kernel
  have hvariant : ∀ n : Fin 256, UInt8.ofNat n &&& 0xc0 = 0x80 → UInt8.ofNat n >>> 6 = 2 := by
    decide +kernel
  rw [not_or, not_not, not_not]
  constructor
  · have h := hversion ⟨(id.bytes.get Core.versionByte).toNat, UInt8.toNat_lt _⟩
    rw [UInt8.ofNat_toNat] at h
    exact h id.version
  · have h := hvariant ⟨(id.bytes.get Core.variantByte).toNat, UInt8.toNat_lt _⟩
    rw [UInt8.ofNat_toNat] at h
    exact h id.variant

/-! ## Outcomes -/

/-- The two crates' outcomes are the same. -/
def SameOutcome : ExecutionOutcome → RunOutcome → Prop
  | .exited code, .exited code' => code.toInt = code'.toNat
  | .signaled signal, .signaled signal' => signal.get.toNat = signal'.toNat
  | .timedOut, .timedOut => True
  | .denied, .denied => True
  | .launcherFailed, .launcherFailed => True
  | .incomplete, .incomplete => True
  | _, _ => False

/-- A signal number is that of the SDK. -/
def SignalFits : ExecutionOutcome → Prop
  | .signaled signal => signal.get.toNat ≤ 255
  | _ => True

theorem asU8_number {n : Nat} (h : n ≤ 255) : asU8 (.number n) = some (UInt8.ofNat n) := by
  rw [asU8, Json.readU64_number (by omega), Option.bind_some, if_pos (by omega)]

theorem asU8_number_above {n : Nat} (h : 255 < n) (hn : n < 2 ^ 64) :
    asU8 (.number n) = none := by
  rw [asU8, Json.readU64_number hn, Option.bind_some, if_neg (by omega)]

theorem decodeOutcome_exited {code : Int32} (h : 0 ≤ code.toInt ∧ code.toInt ≤ 255) :
    ∃ outcome, decodeOutcome (outcomeJson (.exited code)) = .ok outcome ∧
      SameOutcome (.exited code) outcome := by
  have hcode : code.toInt = (code.toInt.toNat : Int) := (Int.toNat_of_nonneg h.1).symm
  have hread : asU8 (.number code.toInt) = some (UInt8.ofNat code.toInt.toNat) := by
    rw [hcode]
    exact asU8_number (by omega)
  refine ⟨.exited (UInt8.ofNat code.toInt.toNat), ?_, ?_⟩
  · show (do
      let code ← okOr (asU8 (.number code.toInt)) SdkError.resultField
      pure (RunOutcome.exited code)) = _
    rw [hread]
    rfl
  · show code.toInt = ((UInt8.ofNat code.toInt.toNat).toNat : Int)
    rwa [UInt8.toNat_ofNat_of_lt' (show code.toInt.toNat < 2 ^ 8 by omega)]

theorem decodeOutcome_signaled (signal : Core.SignalNumber) :
    decodeOutcome (outcomeJson (.signaled signal)) = (do
      let signal ← okOr ((asU8 (.number signal.get.toNat)).filter (0 < ·)) SdkError.resultField
      pure (RunOutcome.signaled signal)) := rfl

/-- The outcome is read back when its signal number fits. -/
theorem decodeOutcome_outcomeJson {outcome : ExecutionOutcome} (h : Core.ExitCodeFits outcome) :
    (∃ outcome', decodeOutcome (outcomeJson outcome) = .ok outcome' ∧
      SameOutcome outcome outcome') ↔ SignalFits outcome := by
  cases outcome with
  | exited code => exact ⟨fun _ => trivial, fun _ => decodeOutcome_exited h⟩
  | signaled signal =>
    rw [decodeOutcome_signaled]
    have hlt : signal.get.toNat < 2 ^ 64 := Nat.lt_trans signal.get.toNat_lt (by decide)
    by_cases hfits : signal.get.toNat ≤ 255
    · have hnat : (UInt8.ofNat signal.get.toNat).toNat = signal.get.toNat :=
        UInt8.toNat_ofNat_of_lt' (show signal.get.toNat < 2 ^ 8 by omega)
      have hpos : 0 < UInt8.ofNat signal.get.toNat := by
        rw [UInt8.lt_iff_toNat_lt, hnat]
        have hne : signal.get.toNat ≠ 0 := fun h0 => signal.ne_zero (UInt32.toNat_inj.mp h0)
        show 0 < signal.get.toNat
        omega
      refine ⟨fun _ => hfits, fun _ => ⟨.signaled (UInt8.ofNat signal.get.toNat), ?_, hnat.symm⟩⟩
      rw [asU8_number hfits, Option.filter_some, if_pos (decide_eq_true hpos)]
      rfl
    · constructor
      · intro ⟨outcome', hdecode, _⟩
        simp [asU8_number_above (by omega) hlt] at hdecode
      · intro hle
        exact absurd hle hfits
  | timedOut => exact ⟨fun _ => trivial, fun _ => ⟨.timedOut, rfl, trivial⟩⟩
  | denied => exact ⟨fun _ => trivial, fun _ => ⟨.denied, rfl, trivial⟩⟩
  | launcherFailed => exact ⟨fun _ => trivial, fun _ => ⟨.launcherFailed, rfl, trivial⟩⟩
  | incomplete => exact ⟨fun _ => trivial, fun _ => ⟨.incomplete, rfl, trivial⟩⟩

/-! ## The projection -/

/-- The reader gets the fields of the projection. -/
theorem fromValue_jsonProjection (result : RunResultV2) :
    RunResultProjection.fromValue result.jsonProjection = (do
      let outcome ← decodeOutcome (outcomeJson result.outcome)
      pure ⟨result.receipt, result.executionId.bytes, result.commitment, outcome⟩) := by
  have hkeys : requireKeys [("commitment", .string (prefixedHex result.commitment.toList)),
      ("execution_id", .string (prefixedHex result.executionId.bytes.toList)),
      ("outcome", outcomeJson result.outcome), ("receipt", .string result.receipt),
      ("schema", .string Core.runResultSchema)]
      ["commitment", "execution_id", "outcome", "receipt", "schema"] = .ok () :=
    rejectIf_false (not_not.mpr ⟨List.Subset.refl _, List.Subset.refl _⟩)
  have hschema : ¬ Core.runResultSchema ≠ resultSchema := not_not.mpr rfl
  unfold RunResultProjection.fromValue RunResultV2.jsonProjection
  rw [object, ok_bind, hkeys, ok_bind]
  simp only [take, List.lookup_cons, beq_self_eq_true, okOr_some, ok_bind, text, Json.readString,
    rejectIf_false hschema, rejectIf_false result.receipt_ne, decodePrefixed_prefixedHex,
    rejectIf_false (version_bits result.executionId), String.reduceBEq]

/-- The SDK has the receipt path, the identifier, the commitment and the outcome of the result. -/
structure ReadBack (result : RunResultV2) (projection : RunResultProjection) : Prop where
  receipt : projection.receipt = result.receipt
  executionId : projection.executionId = result.executionId.bytes
  commitment : projection.commitment = result.commitment
  outcome : SameOutcome result.outcome projection.outcome

section ReadBack

variable (toVec : Json → List UInt8) (fromSlice : List UInt8 → Option Json)

/-- A run result reaches the SDK unchanged exactly when its signal number, if it has one, is at
most 255. -/
theorem projection_readBack_iff {path : List UInt8} {executionId : ExecutionId}
    {commitment : Sha256Digest} {outcome : ExecutionOutcome} {result : RunResultV2}
    (hnew : RunResultV2.new path executionId commitment outcome = .ok result)
    (hserde : fromSlice (toVec result.jsonProjection) = some result.jsonProjection) :
    (∃ projection,
      RunResultProjection.fromJson fromSlice (toVec result.jsonProjection) = .ok projection ∧
        ReadBack result projection) ↔ SignalFits outcome := by
  have houtcome : result.outcome = outcome := by
    unfold RunResultV2.new at hnew
    repeat' split at hnew
    all_goals cases hnew
    rfl
  rw [← houtcome, ← decodeOutcome_outcomeJson result.exitCode]
  rw [RunResultProjection.fromJson, hserde, okOr_some, ok_bind, fromValue_jsonProjection]
  simp only [bind_eq_ok, pure_eq_ok]
  constructor
  · rintro ⟨projection, ⟨outcome', hdecode, hprojection⟩, hread⟩
    subst hprojection
    exact ⟨outcome', hdecode, hread.outcome⟩
  · rintro ⟨outcome', hdecode, hsame⟩
    exact ⟨_, ⟨outcome', hdecode, rfl⟩, rfl, rfl, rfl, hsame⟩

end ReadBack

/-! ### Samples -/

/-- A run that ended with a signal. -/
def sampleResult (signal : Core.SignalNumber) : RunResultV2 where
  receipt := "receipt.cbor"
  executionId := ⟨#v[0, 0, 0, 0, 0, 0, 0x40, 0, 0x80, 0, 0, 0, 0, 0, 0, 0], by decide, by decide⟩
  commitment := Vector.replicate 32 9
  outcome := .signaled signal
  receipt_ne := by decide
  exitCode := trivial

/-- The text that `serde_json` writes for it. -/
def sampleText (signal : Core.SignalNumber) : List UInt8 :=
  Utf8.bytes ("\x7b\"commitment\":\"" ++ prefixedHex (List.replicate 32 9) ++
    "\",\"execution_id\":\"hex:00000000000040008000000000000000\"," ++
    "\"outcome\":\x7b\"kind\":\"signaled\",\"signal\":" ++ Decimal.text signal.get.toNat ++
    "\x7d,\"receipt\":\"receipt.cbor\",\"schema\":\"proofbound-runtime-run-result/2\"\x7d")

/-- `serde_json` on this text. -/
def sampleFromSlice (signal : Core.SignalNumber) (input : List UInt8) : Option Json :=
  if input = sampleText signal then some (sampleResult signal).jsonProjection else none

theorem projection_readBack_iff_sample :
    ∃ projection, RunResultProjection.fromJson (sampleFromSlice ⟨9, by decide⟩)
        (sampleText ⟨9, by decide⟩) = .ok projection ∧
      ReadBack (sampleResult ⟨9, by decide⟩) projection :=
  (projection_readBack_iff (fun _ => sampleText ⟨9, by decide⟩) (sampleFromSlice ⟨9, by decide⟩)
    (RunResultV2.new_receipt _) (if_pos rfl)).mpr (show (9 : UInt32).toNat ≤ 255 by decide)

/-- The signal number 256 is accepted by the constructor and not by the SDK. -/
theorem signal_not_readBack :
    RunResultV2.new (Utf8.bytes "receipt.cbor") (sampleResult ⟨256, by decide⟩).executionId
        (sampleResult ⟨256, by decide⟩).commitment (.signaled ⟨256, by decide⟩) =
      .ok (sampleResult ⟨256, by decide⟩) ∧
    RunResultProjection.fromJson (sampleFromSlice ⟨256, by decide⟩)
      (sampleText ⟨256, by decide⟩) = .error .resultField := by
  refine ⟨RunResultV2.new_receipt (sampleResult ⟨256, by decide⟩), ?_⟩
  unfold RunResultProjection.fromJson sampleFromSlice
  rw [if_pos rfl, okOr_some, ok_bind, fromValue_jsonProjection]
  show (do
    let outcome ← decodeOutcome (outcomeJson (.signaled ⟨256, by decide⟩))
    pure (RunResultProjection.mk _ _ _ outcome)) = _
  rw [decodeOutcome_signaled, asU8_number_above (by decide) (by decide)]
  rfl

end ProofboundRuntime.Sdk
