import ProofboundRuntime.Lib.Checked
import ProofboundRuntime.Connector.Authenticate

/-!
# The metered stream of the handshake

`MeteredTcpStream` of `tls.rs`: a socket that counts the bytes of the handshake, in both
directions against one limit, and stops at a deadline.

The clock is a sequence of readings.  Each call comes with what the socket does in it
(`Socket`), and the state keeps the bytes that the socket has moved beside the stream's own
counters.  The two differ after a call that moves bytes and then finds the deadline passed.
From then on, if the clock does not run backwards, no call reaches the socket again, so the
difference arises once (`Accounted`).
-/

namespace ProofboundRuntime.Connector.Metered

open Result
open Connector.Authenticate (ErrorKind)

/-! ## The stream -/

structure IoError where
  kind : ErrorKind
  message : String
deriving DecidableEq

/-- `handshake_limit_error`. -/
def handshakeLimitError : IoError := ⟨.outOfMemory, "TLS handshake byte limit exhausted"⟩

/-- `deadline_error`. -/
def deadlineError : IoError := ⟨.timedOut, "connector deadline exhausted"⟩

/-- The stream without its socket; an `Instant` is a number of nanoseconds. -/
structure MeteredTcpStream where
  readBytes : UInt64
  writtenBytes : UInt64
  limit : Option UInt64
  deadline : Nat
deriving DecidableEq

/-- `u64::checked_add`. -/
def checkedAdd (a b : UInt64) : Option UInt64 :=
  if a.toNat + b.toNat < 2 ^ 64 then some (a + b) else none

/-- `u64::checked_sub`. -/
def checkedSub (a b : UInt64) : Option UInt64 := if b ≤ a then some (a - b) else none

/-- `Instant::checked_duration_since`. -/
def checkedDurationSince (later earlier : Nat) : Option Nat :=
  if earlier ≤ later then some (later - earlier) else none

namespace MeteredTcpStream

def new (limit : UInt64) (deadline : Nat) : MeteredTcpStream := ⟨0, 0, some limit, deadline⟩

def totalBytes (s : MeteredTcpStream) : Option UInt64 := checkedAdd s.readBytes s.writtenBytes

def remaining (s : MeteredTcpStream) : Except IoError Nat :=
  match s.limit with
  | none => .ok (Checked.usizeBound - 1)
  | some limit => do
    let total ← okOr s.totalBytes handshakeLimitError
    let remaining ← okOr (checkedSub limit total) handshakeLimitError
    if remaining = 0 then .error handshakeLimitError
    else .ok (min remaining.toNat (Checked.usizeBound - 1))

def remainingTime (s : MeteredTcpStream) (now : Nat) : Except IoError Nat :=
  okOr ((checkedDurationSince s.deadline now).filter (· ≠ 0)) deadlineError

end MeteredTcpStream

/-! ## Calls -/

/-- What the socket does in one call. -/
structure Socket where
  /-- `set_read_timeout` or `set_write_timeout`. -/
  setTimeout : (timeout : Nat) → Except IoError Unit
  /-- `read` or `write`: how many of the bytes at hand are moved. -/
  transfer : (given : Nat) → Except IoError Nat
  flush : Except IoError Unit
  transfer_le : ∀ given n, transfer given = .ok n → n ≤ given

/-- The stream, the number of clock readings so far, and the bytes that the socket has moved. -/
structure World where
  stream : MeteredTcpStream
  readings : Nat
  moved : Nat
deriving DecidableEq

/-- A method of the stream. -/
abbrev Method := Mut World IoError

/-- `Instant::now`. -/
def now (clock : Nat → Nat) : Method Nat :=
  fun w => (.ok (clock w.readings), { w with readings := w.readings + 1 })

/-- A `read` or `write` of the socket. -/
def transfer (socket : Socket) (given : Nat) : Method Nat := do
  let count ← Mut.lift (socket.transfer given)
  Mut.modify fun w => { w with moved := w.moved + count }
  pure count

inductive Direction where
  | read
  | write
deriving DecidableEq

namespace MeteredTcpStream

def counter (s : MeteredTcpStream) : Direction → UInt64
  | .read => s.readBytes
  | .write => s.writtenBytes

def setCounter (s : MeteredTcpStream) (value : UInt64) : Direction → MeteredTcpStream
  | .read => { s with readBytes := value }
  | .write => { s with writtenBytes := value }

end MeteredTcpStream

/-- `u64::try_from` of a `usize`. -/
def toU64 (n : Nat) : Option UInt64 := if n < 2 ^ 64 then some (UInt64.ofNat n) else none

/-- `read` and `write`, which differ in the counter. -/
def metered (clock : Nat → Nat) (direction : Direction) (socket : Socket) (length : Nat) :
    Method Nat := do
  let before ← Mut.get
  let first ← now clock
  let timeout ← Mut.lift (before.stream.remainingTime first)
  Mut.lift (socket.setTimeout timeout)
  let remaining ← Mut.lift before.stream.remaining
  let count ← transfer socket (min length remaining)
  let second ← now clock
  Mut.lift (rejectIf (before.stream.deadline ≤ second) deadlineError)
  let counted ← Mut.lift (okOr (toU64 count) handshakeLimitError)
  let value ← Mut.lift
    (okOr (checkedAdd (before.stream.counter direction) counted) handshakeLimitError)
  Mut.modify fun w => { w with stream := w.stream.setCounter value direction }
  pure count

def read (clock : Nat → Nat) (socket : Socket) (length : Nat) : Method Nat :=
  metered clock .read socket length

def write (clock : Nat → Nat) (socket : Socket) (length : Nat) : Method Nat :=
  metered clock .write socket length

def flush (socket : Socket) : Method Unit := Mut.lift socket.flush

inductive Call where
  | read (socket : Socket) (length : Nat)
  | write (socket : Socket) (length : Nat)
  | flush (socket : Socket)

/-- What a call returns, and the bytes that the socket moved in it. -/
structure Event where
  result : Except IoError Nat
  moved : Nat
deriving DecidableEq

def Call.method (clock : Nat → Nat) : Call → Method Nat
  | .read socket length => Metered.read clock socket length
  | .write socket length => Metered.write clock socket length
  | .flush socket => do
    Metered.flush socket
    pure 0

/-- The calls are made one after the other, whether they fail or not. -/
def run (clock : Nat → Nat) : List Call → World → List Event × World
  | [], w => ([], w)
  | call :: calls, w =>
    let (result, after) := call.method clock w
    let (events, last) := run clock calls after
    (⟨result, after.moved - w.moved⟩ :: events, last)

/-- A new stream, after some readings of the clock. -/
def World.start (limit : UInt64) (deadline readings : Nat) : World :=
  ⟨.new limit deadline, readings, 0⟩

/-! ## One call -/

/-- The bytes in both counters. -/
def MeteredTcpStream.counted (s : MeteredTcpStream) : Nat :=
  s.readBytes.toNat + s.writtenBytes.toNat

/-- Between two calls: what the socket has moved and what is counted are within the limit, and
they are the same unless the deadline has passed. -/
structure Accounted (clock : Nat → Nat) (limit : UInt64) (deadline : Nat) (w : World) : Prop where
  limit_eq : w.stream.limit = some limit
  deadline_eq : w.stream.deadline = deadline
  counted_le : w.stream.counted ≤ limit.toNat
  moved_le : w.moved ≤ limit.toNat
  expired : w.moved ≠ w.stream.counted → deadline ≤ clock w.readings

section Call

variable {clock : Nat → Nat} {limit : UInt64} {deadline : Nat} {w : World}
  {stream : MeteredTcpStream}

theorem totalBytes_eq_some (h : stream.counted ≤ limit.toNat) :
    ∃ total, stream.totalBytes = some total ∧ total.toNat = stream.counted := by
  have hlt : stream.readBytes.toNat + stream.writtenBytes.toNat < 2 ^ 64 :=
    Nat.lt_of_le_of_lt h limit.toNat_lt
  refine ⟨stream.readBytes + stream.writtenBytes, if_pos hlt, ?_⟩
  rw [UInt64.toNat_add, Nat.mod_eq_of_lt hlt]
  rfl

/-- No more is permitted than what is left of the limit. -/
theorem le_of_remaining_eq_ok {n : Nat} (hlimit : stream.limit = some limit)
    (hcounted : stream.counted ≤ limit.toNat) (h : stream.remaining = .ok n) :
    stream.counted + n ≤ limit.toNat := by
  obtain ⟨total, htotal, hnat⟩ := totalBytes_eq_some hcounted
  have hle : total ≤ limit := UInt64.le_iff_toNat_le.mpr (by omega)
  have hsub : checkedSub limit total = some (limit - total) := if_pos hle
  have hdiff := UInt64.toNat_sub_of_le limit total hle
  rw [MeteredTcpStream.remaining, hlimit] at h
  dsimp only at h
  rw [htotal, okOr_some, ok_bind, hsub, okOr_some, ok_bind] at h
  split at h
  next => cases h
  next =>
    cases h
    omega

theorem lt_of_remainingTime_eq_ok {now timeout : Nat}
    (h : stream.remainingTime now = .ok timeout) : now < stream.deadline := by
  rw [MeteredTcpStream.remainingTime, okOr_eq_ok, Option.filter_eq_some_iff,
    checkedDurationSince, Option.ite_none_right_eq_some, decide_eq_true_eq] at h
  obtain ⟨⟨hle, htimeout⟩, hne⟩ := h
  cases htimeout
  omega

theorem counted_setCounter (stream : MeteredTcpStream) (value : UInt64)
    (direction : Direction) :
    (stream.setCounter value direction).counted + (stream.counter direction).toNat =
      stream.counted + value.toNat := by
  cases direction
  · show value.toNat + stream.writtenBytes.toNat + stream.readBytes.toNat =
      stream.readBytes.toNat + stream.writtenBytes.toNat + value.toNat
    omega
  · show stream.readBytes.toNat + value.toNat + stream.writtenBytes.toNat =
      stream.readBytes.toNat + stream.writtenBytes.toNat + value.toNat
    omega

theorem counter_le_counted (stream : MeteredTcpStream) (direction : Direction) :
    (stream.counter direction).toNat ≤ stream.counted := by
  cases direction
  · exact Nat.le_add_right _ _
  · exact Nat.le_add_left _ _

/-- The counter of a direction grows by what was moved, as long as the sum is within the limit. -/
theorem exists_counted {count : Nat} (direction : Direction)
    (h : stream.counted + count ≤ limit.toNat) :
    ∃ counted value, toU64 count = some counted ∧
      checkedAdd (stream.counter direction) counted = some value ∧
      (stream.setCounter value direction).counted = stream.counted + count := by
  have hlimit := limit.toNat_lt
  have hcounter := counter_le_counted stream direction
  have hcount : count < 2 ^ 64 := by omega
  have hnat : (UInt64.ofNat count).toNat = count := UInt64.toNat_ofNat_of_lt' hcount
  have hsum : (stream.counter direction).toNat + (UInt64.ofNat count).toNat < 2 ^ 64 := by
    rw [hnat]
    omega
  refine ⟨UInt64.ofNat count, stream.counter direction + UInt64.ofNat count, if_pos hcount,
    if_pos hsum, ?_⟩
  have hset := counted_setCounter stream (stream.counter direction + UInt64.ofNat count) direction
  rw [UInt64.toNat_add, Nat.mod_eq_of_lt hsum, hnat] at hset
  omega

theorem limit_setCounter (value : UInt64) (direction : Direction) :
    (stream.setCounter value direction).limit = stream.limit := by
  cases direction <;> rfl

theorem deadline_setCounter (value : UInt64) (direction : Direction) :
    (stream.setCounter value direction).deadline = stream.deadline := by
  cases direction <;> rfl

/-- A reading of the clock keeps the account. -/
theorem Accounted.tick (hclock : Monotone clock) (h : Accounted clock limit deadline w) :
    Accounted clock limit deadline { w with readings := w.readings + 1 } where
  limit_eq := h.limit_eq
  deadline_eq := h.deadline_eq
  counted_le := h.counted_le
  moved_le := h.moved_le
  expired hne := (h.expired hne).trans (hclock (Nat.le_succ w.readings))

/-- A call that returns has moved and counted what it returns.  A call that fails has moved
nothing, or it has found the deadline passed. -/
def Settled (clock : Nat → Nat) (limit : UInt64) (deadline : Nat) (before : World) :
    Except IoError Nat → World → Prop
  | .ok n, after => Accounted clock limit deadline after ∧ after.moved = before.moved + n ∧
      after.stream.counted = before.stream.counted + n
  | .error e, after => Accounted clock limit deadline after ∧
      (after.moved = before.moved ∨ before.moved ≤ after.moved ∧ e = deadlineError)

section Settled

variable {result : Except IoError Nat} {after : World}

theorem Settled.accounted (h : Settled clock limit deadline w result after) :
    Accounted clock limit deadline after := by
  cases result <;> exact h.1

theorem Settled.moved_le (h : Settled clock limit deadline w result after) :
    w.moved ≤ after.moved := by
  cases result with
  | ok n =>
    have hmoved := h.2.1
    omega
  | error e =>
    rcases h.2 with hmoved | ⟨hmoved, -⟩ <;> omega

theorem Settled.returned (h : Settled clock limit deadline w result after)
    (hmoved : after.moved - w.moved ≠ 0) :
    result = .ok (after.moved - w.moved) ∨ result = .error deadlineError := by
  cases result with
  | ok n =>
    left
    rw [h.2.1, Nat.add_sub_cancel_left]
  | error e =>
    right
    rcases h.2 with hsame | ⟨-, he⟩
    · omega
    · rw [he]

theorem Settled.counted (h : Settled clock limit deadline w result after)
    (hok : result.isOk = true) (hsame : w.moved = w.stream.counted) :
    after.moved = after.stream.counted := by
  cases result with
  | ok n => rw [h.2.1, h.2.2, hsame]
  | error e => cases hok

end Settled

theorem now_spec {E : IoError → World → Prop} :
    Mut.Spec (· = w) (now clock)
      (fun time s => time = clock w.readings ∧ s = { w with readings := w.readings + 1 }) E := by
  intro s hs
  subst hs
  exact ⟨rfl, rfl⟩

theorem transfer_spec {E : IoError → World → Prop} {socket : Socket} {given : Nat}
    (hfails : ∀ e, E e w) :
    Mut.Spec (· = w) (transfer socket given)
      (fun count s => count ≤ given ∧ s = { w with moved := w.moved + count }) E := by
  apply Mut.Spec.lift_bind
  · intro count hcount
    apply Mut.Spec.modify_bind
    apply Mut.Spec.pure
    intro s hs
    exact ⟨socket.transfer_le given count hcount, hs⟩
  · intro e _ s hs
    subst hs
    exact hfails e

theorem metered_settled (hclock : Monotone clock) (h : Accounted clock limit deadline w)
    (direction : Direction) (socket : Socket) (length : Nat) :
    Mut.Spec (· = w) (metered clock direction socket length)
      (fun n => Settled clock limit deadline w (.ok n))
      (fun e => Settled clock limit deadline w (.error e)) := by
  have htick := h.tick hclock
  -- before the socket is asked, nothing has changed but the number of readings
  have hunmoved : ∀ (e : IoError) (s : World), s = { w with readings := w.readings + 1 } →
      Settled clock limit deadline w (.error e) s := by
    intro e s hs
    subst hs
    exact ⟨htick, .inl rfl⟩
  apply Mut.Spec.get_bind
  intro before hbefore
  subst hbefore
  apply Mut.Spec.bind now_spec
  intro first
  apply Mut.Spec.of_and
  intro hfirst
  apply Mut.Spec.lift_bind _ (fun e _ => hunmoved e)
  intro timeout htimeout
  apply Mut.Spec.lift_bind _ (fun e _ => hunmoved e)
  intro _ _
  apply Mut.Spec.lift_bind _ (fun e _ => hunmoved e)
  intro remaining hremaining
  have hbudget := le_of_remaining_eq_ok h.limit_eq h.counted_le hremaining
  -- the deadline had not passed, so all that was moved before is counted
  have hexact : before.moved = before.stream.counted := by
    by_contra hne
    have hexpired := h.expired hne
    have hlt := lt_of_remainingTime_eq_ok htimeout
    rw [h.deadline_eq, hfirst] at hlt
    omega
  apply Mut.Spec.bind (transfer_spec fun e => hunmoved e _ rfl)
  intro count
  apply Mut.Spec.of_and
  intro hcount
  have hwithin : before.stream.counted + count ≤ limit.toNat := by omega
  apply Mut.Spec.bind now_spec
  intro second
  apply Mut.Spec.of_and
  intro hsecond
  apply Mut.Spec.rejectIf_bind
  · intro _
    obtain ⟨counted, value, hcounted, hvalue, hset⟩ := exists_counted direction hwithin
    rw [hcounted, okOr_some]
    apply Mut.Spec.lift_bind _ nofun
    intro _ hok
    cases hok
    rw [hvalue, okOr_some]
    apply Mut.Spec.lift_bind _ nofun
    intro _ hok
    cases hok
    apply Mut.Spec.modify_bind
    apply Mut.Spec.pure
    intro s hs
    subst hs
    have hsame : before.moved + count = (before.stream.setCounter value direction).counted := by
      rw [hset, hexact]
    refine ⟨⟨?_, ?_, ?_, ?_, fun hne => absurd hsame hne⟩, rfl, hset⟩
    · exact (limit_setCounter value direction).trans h.limit_eq
    · exact (deadline_setCounter value direction).trans h.deadline_eq
    · exact hset.trans_le hwithin
    · rwa [hexact]
  · -- the bytes are moved and not counted, and the deadline has passed
    intro hpassed s hs
    subst hs
    rw [h.deadline_eq, hsecond] at hpassed
    refine ⟨⟨h.limit_eq, h.deadline_eq, h.counted_le, ?_, fun _ => ?_⟩,
      .inr ⟨Nat.le_add_right _ _, rfl⟩⟩
    · show before.moved + count ≤ limit.toNat
      omega
    · exact hpassed.trans (hclock (Nat.le_succ _))

theorem call_settled (hclock : Monotone clock) (h : Accounted clock limit deadline w)
    (call : Call) :
    Mut.Spec (· = w) (call.method clock) (fun n => Settled clock limit deadline w (.ok n))
      (fun e => Settled clock limit deadline w (.error e)) := by
  cases call with
  | read socket length => exact metered_settled hclock h .read socket length
  | write socket length => exact metered_settled hclock h .write socket length
  | flush socket =>
    apply Mut.Spec.lift_bind
    · intro _ _
      apply Mut.Spec.pure
      intro s hs
      subst hs
      exact ⟨h, rfl, rfl⟩
    · intro e _ s hs
      subst hs
      exact ⟨h, .inl rfl⟩

end Call

/-! ## Every sequence of calls -/

theorem accounted_start (clock : Nat → Nat) (limit : UInt64) (deadline readings : Nat) :
    Accounted clock limit deadline (.start limit deadline readings) where
  limit_eq := rfl
  deadline_eq := rfl
  counted_le := Nat.zero_le _
  moved_le := Nat.zero_le _
  expired hne := absurd rfl hne

/-- What the calls of a sequence return and move. -/
structure Metering (clock : Nat → Nat) (limit : UInt64) (deadline : Nat) (before : World)
    (events : List Event) (after : World) : Prop where
  accounted : Accounted clock limit deadline after
  moved : after.moved = before.moved + (events.map Event.moved).sum
  returned : ∀ e ∈ events, e.moved ≠ 0 → e.result = .ok e.moved ∨ e.result = .error deadlineError
  counted : (∀ e ∈ events, e.result.isOk) → before.moved = before.stream.counted →
    after.moved = after.stream.counted

theorem run_metering {clock : Nat → Nat} (hclock : Monotone clock) {limit : UInt64}
    {deadline : Nat} (calls : List Call) {w : World} (h : Accounted clock limit deadline w) :
    Metering clock limit deadline w (run clock calls w).1 (run clock calls w).2 := by
  induction calls generalizing w with
  | nil => exact ⟨h, rfl, nofun, fun _ hsame => hsame⟩
  | cons call calls ih =>
    have hcall := call_settled hclock h call w rfl
    rcases hmethod : call.method clock w with ⟨result, next⟩
    rw [hmethod] at hcall
    have hsettled : Settled clock limit deadline w result next := by
      cases result <;> exact hcall
    have hrest := ih hsettled.accounted
    have hgrows := hsettled.moved_le
    rw [run, hmethod]
    refine ⟨hrest.accounted, ?_, ?_, ?_⟩
    · rw [hrest.moved, List.map_cons, List.sum_cons]
      show next.moved + _ = w.moved + (next.moved - w.moved + _)
      omega
    · exact List.forall_mem_cons.mpr ⟨hsettled.returned, hrest.returned⟩
    · intro hok hsame
      rw [List.forall_mem_cons] at hok
      exact hrest.counted hok.2 (hsettled.counted hok.1 hsame)

/-- Whatever the socket does, the handshake moves no more than its limit, also in a call that then
finds the deadline passed.  No counter overflows: a call that moves bytes returns their number or
that error, and the total exists.  As long as no call has failed, it is what was moved. -/
theorem handshake_metering {clock : Nat → Nat} (hclock : Monotone clock) (limit : UInt64)
    (deadline readings : Nat) (calls : List Call) :
    let (events, after) := run clock calls (.start limit deadline readings)
    (events.map Event.moved).sum ≤ limit.toNat ∧
      (∀ e ∈ events, e.moved ≠ 0 → e.result = .ok e.moved ∨ e.result = .error deadlineError) ∧
      ∃ total, after.stream.totalBytes = some total ∧
        ((∀ e ∈ events, e.result.isOk) → total.toNat = (events.map Event.moved).sum) := by
  have h := run_metering hclock calls (accounted_start clock limit deadline readings)
  have hmoved := h.moved
  rw [show (World.start limit deadline readings).moved = 0 from rfl, Nat.zero_add] at hmoved
  obtain ⟨total, htotal, hcounted⟩ := totalBytes_eq_some h.accounted.counted_le
  refine ⟨hmoved ▸ h.accounted.moved_le, h.returned, total, htotal, ?_⟩
  intro hok
  rw [hcounted, ← h.counted hok rfl, hmoved]

/-- A socket that moves all it is given. -/
def eagerSocket : Socket := ⟨fun _ => .ok (), .ok, .ok (), fun _ _ h => (Except.ok.inj h).ge⟩

/-- The third call moves its byte and finds the deadline passed; the last one moves nothing. -/
theorem handshake_metering_sample :
    let calls : List Call :=
      [.write eagerSocket 3, .read eagerSocket 4, .read eagerSocket 1, .read eagerSocket 1]
    run id calls (.start 9 5 0) =
      ([⟨.ok 3, 3⟩, ⟨.ok 4, 4⟩, ⟨.error deadlineError, 1⟩, ⟨.error deadlineError, 0⟩],
        ⟨⟨4, 3, some 9, 5⟩, 7, 8⟩) ∧
    3 + 4 + 1 + 0 ≤ 9 := by
  intro calls
  have hrun : run id calls (.start 9 5 0) =
      ([⟨.ok 3, 3⟩, ⟨.ok 4, 4⟩, ⟨.error deadlineError, 1⟩, ⟨.error deadlineError, 0⟩],
        ⟨⟨4, 3, some 9, 5⟩, 7, 8⟩) := by
    decide +kernel
  have h := handshake_metering monotone_id 9 5 0 calls
  rw [hrun] at h
  exact ⟨hrun, h.1⟩

end ProofboundRuntime.Connector.Metered
