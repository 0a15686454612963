import ProofboundRuntime.Core.Authority
import ProofboundRuntime.Core.Eligibility

/-!
# Captured streams

`capture_stream` of `supervisor.rs` and `capture_trace_stream` of `trace.rs`.  A reader is the
list of its answers; after the last one the stream is at its end and a read returns no bytes.
Both loops keep the first bytes of the stream up to the limit and note whether some were left
out, however the stream is split (`captures_stream`).
-/

namespace ProofboundRuntime.Linux.Capture

open ProofboundRuntime.Core (OutputByteLimit StreamCapture)

/-- The kinds of `io::Error` that the loops tell apart. -/
inductive ReadError where
  | interrupted
  | wouldBlock
  | other
deriving DecidableEq

/-- What one `read` returns. -/
abbrev ReadAnswer := Except ReadError (List UInt8)

/-- The length of the buffer. -/
def bufferBytes : Nat := 8192

structure CapturedStream where
  bytes : List UInt8
  capture : StreamCapture
deriving DecidableEq

/-- A conversion between `usize` and `u64` with `unwrap_or(MAX)`. -/
def saturate (n : Nat) : Nat := min n (2 ^ 64 - 1)

/-- The variables of the loops. -/
structure Captured where
  bytes : List UInt8
  truncated : Bool
deriving DecidableEq

namespace Captured

def empty : Captured := ⟨[], false⟩

/-- How many of the bytes read are retained. -/
def retained (limit : OutputByteLimit) (c : Captured) (count : Nat) : Nat :=
  let remaining := limit.get.toNat - saturate c.bytes.length
  min count (saturate remaining)

/-- The rest of a round after a read. -/
def extend (limit : OutputByteLimit) (c : Captured) (chunk : List UInt8) : Captured :=
  let retained := c.retained limit chunk.length
  ⟨c.bytes ++ chunk.take retained, c.truncated || decide (retained < chunk.length)⟩

def finish (c : Captured) : CapturedStream :=
  ⟨c.bytes, if c.truncated then .truncated else .complete⟩

end Captured

/-- The loop of `capture_stream`; with the result go the answers that were not asked for. -/
def captureFrom (limit : OutputByteLimit) :
    Captured → List ReadAnswer → Except ReadError (CapturedStream × List ReadAnswer)
  | c, [] => .ok (c.finish, [])
  | _, .error error :: _ => .error error
  | c, .ok [] :: reads => .ok (c.finish, reads)
  | c, .ok chunk :: reads => captureFrom limit (c.extend limit chunk) reads

def captureStream (reads : List ReadAnswer) (limit : OutputByteLimit) :
    Except ReadError (CapturedStream × List ReadAnswer) :=
  captureFrom limit .empty reads

/-- The loop of `capture_trace_stream`; `cancelled` is what the rounds load. -/
def captureTraceFrom (limit : OutputByteLimit) (cancelled : Nat → Bool) (round : Nat)
    (c : Captured) (reads : List ReadAnswer) :
    Except ReadError (CapturedStream × List ReadAnswer) :=
  if cancelled round then .error .interrupted
  else
    match reads with
    | [] => .ok (c.finish, [])
    | .error .interrupted :: reads => captureTraceFrom limit cancelled (round + 1) c reads
    | .error .wouldBlock :: reads => captureTraceFrom limit cancelled (round + 1) c reads
    | .error error :: _ => .error error
    | .ok [] :: reads => .ok (c.finish, reads)
    | .ok chunk :: reads =>
      captureTraceFrom limit cancelled (round + 1) (c.extend limit chunk) reads

def captureTraceStream (reads : List ReadAnswer) (limit : OutputByteLimit)
    (cancelled : Nat → Bool) : Except ReadError (CapturedStream × List ReadAnswer) :=
  captureTraceFrom limit cancelled 0 .empty reads

/-! ## What has been captured -/

/-- The captured part of a stream. -/
def capturedPart (limit : OutputByteLimit) (stream : List UInt8) : CapturedStream :=
  ⟨stream.take limit.get.toNat,
    if limit.get.toNat < stream.length then .truncated else .complete⟩

/-- The invariant of both loops: what they hold after this part of the stream. -/
structure Holds (limit : OutputByteLimit) (stream : List UInt8) (c : Captured) : Prop where
  bytes : c.bytes = stream.take limit.get.toNat
  truncated : c.truncated = decide (limit.get.toNat < stream.length)

variable {limit : OutputByteLimit} {stream chunk : List UInt8} {c : Captured}

theorem holds_empty : Holds limit [] .empty := by
  refine ⟨List.take_nil.symm, ?_⟩
  simp [Captured.empty]

theorem Holds.finish (h : Holds limit stream c) : c.finish = capturedPart limit stream := by
  rw [Captured.finish, capturedPart, h.bytes, h.truncated]
  simp only [decide_eq_true_eq]

/-- What is held is within the limit, so that no conversion saturates. -/
theorem Holds.retained_eq (h : Holds limit stream c) (count : Nat) :
    c.retained limit count = min count (limit.get.toNat - stream.length) := by
  have hlimit : limit.get.toNat < 2 ^ 64 := limit.get.toNat_lt
  have hlength : c.bytes.length = min limit.get.toNat stream.length := by
    rw [h.bytes, List.length_take]
  simp only [Captured.retained, saturate, hlength]
  omega

theorem Holds.extend (h : Holds limit stream c) (chunk : List UInt8) :
    Holds limit (stream ++ chunk) (c.extend limit chunk) := by
  have hretained := h.retained_eq chunk.length
  constructor
  · show c.bytes ++ chunk.take (c.retained limit chunk.length) = _
    have htake : chunk.take (min chunk.length (limit.get.toNat - stream.length)) =
        chunk.take (limit.get.toNat - stream.length) := by
      rw [Nat.min_comm, ← List.take_eq_take_min]
    rw [hretained, htake, h.bytes, List.take_append]
  · show (c.truncated || decide (c.retained limit chunk.length < chunk.length)) = _
    rw [hretained, h.truncated, ← Bool.decide_or, decide_eq_decide, List.length_append]
    omega

/-! ## Splits of a stream -/

/-- The bytes of an answer. -/
def data : ReadAnswer → List UInt8
  | .ok chunk => chunk
  | .error _ => []

/-- A read before the end of a stream. -/
def Successful (read : ReadAnswer) : Prop :=
  ∃ chunk, read = .ok chunk ∧ chunk ≠ [] ∧ chunk.length ≤ bufferBytes

/-- The stream in successful reads. -/
structure Splits (stream : List UInt8) (reads : List ReadAnswer) : Prop where
  successful : ∀ read ∈ reads, Successful read
  stream : reads.flatMap data = stream

/-- The stream in successful reads, with others that are made again. -/
structure SplitsWithRetries (stream : List UInt8) (reads : List ReadAnswer) : Prop where
  successful : ∀ read ∈ reads,
    Successful read ∨ read = .error .interrupted ∨ read = .error .wouldBlock
  stream : reads.flatMap data = stream

theorem captureFrom_eq {reads : List ReadAnswer} (hreads : ∀ read ∈ reads, Successful read)
    (h : Holds limit stream c) :
    captureFrom limit c reads = .ok (capturedPart limit (stream ++ reads.flatMap data), []) := by
  induction reads generalizing stream c with
  | nil => rw [captureFrom, h.finish, List.flatMap_nil, List.append_nil]
  | cons read reads ih =>
    rw [List.forall_mem_cons] at hreads
    obtain ⟨chunk, rfl, hne, -⟩ := hreads.1
    rw [captureFrom, ih hreads.2 (h.extend chunk), List.flatMap_cons, List.append_assoc]
    · rfl
    · exact hne

theorem captureTraceFrom_eq {reads : List ReadAnswer} {cancelled : Nat → Bool} {round : Nat}
    (hreads : ∀ read ∈ reads,
      Successful read ∨ read = .error .interrupted ∨ read = .error .wouldBlock)
    (hcancelled : ∀ round, cancelled round = false) (h : Holds limit stream c) :
    captureTraceFrom limit cancelled round c reads =
      .ok (capturedPart limit (stream ++ reads.flatMap data), []) := by
  induction reads generalizing stream c round with
  | nil =>
    rw [captureTraceFrom, hcancelled, if_neg Bool.false_ne_true, h.finish, List.flatMap_nil,
      List.append_nil]
  | cons read reads ih =>
    rw [List.forall_mem_cons] at hreads
    rw [captureTraceFrom.eq_def, hcancelled, if_neg Bool.false_ne_true, List.flatMap_cons]
    rcases hreads.1 with ⟨chunk, rfl, hne, -⟩ | rfl | rfl
    · cases chunk with
      | nil => exact absurd rfl hne
      | cons b chunk =>
        rw [← List.append_assoc]
        exact ih hreads.2 (h.extend (b :: chunk))
    · exact ih hreads.2 h
    · exact ih hreads.2 h

/-- Both loops return the first bytes of the stream up to the limit, tell whether it is longer,
and have asked for every answer. -/
theorem captures_stream (limit : OutputByteLimit) (stream : List UInt8) :
    (∀ reads, Splits stream reads →
      captureStream reads limit = .ok (capturedPart limit stream, [])) ∧
    ∀ reads cancelled, SplitsWithRetries stream reads → (∀ round, cancelled round = false) →
      captureTraceStream reads limit cancelled = .ok (capturedPart limit stream, []) := by
  constructor
  · intro reads hreads
    rw [captureStream, captureFrom_eq hreads.successful holds_empty, List.nil_append,
      hreads.stream]
  · intro reads cancelled hreads hcancelled
    rw [captureTraceStream, captureTraceFrom_eq hreads.successful hcancelled holds_empty,
      List.nil_append, hreads.stream]

theorem captures_stream_sample :
    captureStream [.ok [1, 2], .ok [3]] ⟨2⟩ = .ok (⟨[1, 2], .truncated⟩, []) ∧
    captureTraceStream [.error .interrupted, .ok [1, 2], .error .wouldBlock, .ok [3]] ⟨2⟩
      (fun _ => false) = .ok (⟨[1, 2], .truncated⟩, []) := by
  have hone : Successful (.ok [1, 2]) := ⟨_, rfl, by decide, by decide⟩
  have htwo : Successful (.ok [3]) := ⟨_, rfl, by decide, by decide⟩
  have hcaptures := captures_stream ⟨2⟩ [1, 2, 3]
  refine ⟨hcaptures.1 _ ⟨?_, rfl⟩, hcaptures.2 _ _ ⟨?_, rfl⟩ fun _ => rfl⟩
  · simp [hone, htwo]
  · simp [hone, htwo]

end ProofboundRuntime.Linux.Capture
