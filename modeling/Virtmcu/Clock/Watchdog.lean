import Virtmcu.Clock.UnixStream

/-! # When does the session watchdog fire?

The worker counts the calls of `recv_advance` that return no request and aborts when there are more of
them in a row than the watchdog time has stall timeouts. The count stands for time only if each of these
calls lasts its timeout. A malformed query, the end of the Unix stream and a connection that is refused
also return nothing, and do so at once.

A turn of the worker loop is a step of a machine that keeps, next to the counter of the source, the time
since the last valid request. If every call without a request has lasted its timeout, the worker aborts
only after more than the watchdog time (`watchdog_of_fullWaits`). -/

namespace Virtmcu.Clock

/-! ## The transports -/

/-- What a call of `recv_advance` meets. -/
inductive TransportEvent
  /-- A query comes in over Zenoh. -/
  | query (payload : List UInt8)
  /-- `read_exact` fills its buffer from the Unix stream. -/
  | message (buf : List UInt8)
  /-- The Unix stream has ended; it stays open on this side, so every later call meets its end again. -/
  | endOfStream
  /-- The Unix socket refuses the connection. -/
  | connectFailed
  /-- Nothing comes in within the timeout. -/
  | timedOut
  deriving DecidableEq, Repr

/-- `recv_advance` of the two transports, without the responder. -/
def TransportEvent.recvAdvance : TransportEvent → Option ClockAdvanceReq
  | .query payload => ClockAdvanceReq.unpackSlice payload
  | .message buf => ClockAdvanceReq.unpackSlice buf
  | .endOfStream => none
  | .connectFailed => none
  | .timedOut => none

/-! ## The worker loop -/

/-- `watchdog_threshold` of `clock_init_with_transport`. -/
def watchdogThreshold (stallTimeoutMs sessionWatchdogMs : ℕ) : ℕ :=
  if 0 < sessionWatchdogMs ∧ 0 < stallTimeoutMs then sessionWatchdogMs / stallTimeoutMs else 3

/-- One turn of the worker loop: what `recv_advance` meets, how long the call lasts, and how long a
request is served after it. -/
structure Round where
  event : TransportEvent
  waitedMs : ℕ
  servedMs : ℕ
  deriving DecidableEq, Repr

/-- A wait that times out lasts its timeout, and `read_exact` fills the whole buffer. -/
def Round.IsPossible (stallTimeoutMs : ℕ) (t : Round) : Prop :=
  match t.event with
  | .timedOut => stallTimeoutMs ≤ t.waitedMs
  | .message buf => buf.length = clockAdvanceReqSize
  | _ => True

/-- What the worker knows of its session, after the first quantum. -/
structure Session where
  consecutiveTimeouts : ℕ
  aborted : Bool
  /-- The time since `recv_advance` last returned a request. No step reads it. -/
  sinceRequestMs : ℕ
  deriving DecidableEq, Repr

/-- One turn of the worker loop. -/
def Session.turn (watchdogThreshold : ℕ) (s : Session) (t : Round) : Session :=
  if s.aborted then s
  else match t.event.recvAdvance with
    | some _ => { s with consecutiveTimeouts := 0, sinceRequestMs := t.servedMs }
    | none =>
        -- whatever the reason, it counts as a timeout
        let misses := s.consecutiveTimeouts + 1
        { consecutiveTimeouts := misses
          aborted := decide (watchdogThreshold < misses)
          sinceRequestMs := s.sinceRequestMs + t.waitedMs }

/-- The session when the request of the first quantum has been served. -/
def Session.afterFirstQuantum (servedMs : ℕ) : Session := ⟨0, false, servedMs⟩

/-- The session after more turns. -/
def Session.after (stallTimeoutMs sessionWatchdogMs servedMs : ℕ) (turns : List Round) : Session :=
  turns.foldl (Session.turn (watchdogThreshold stallTimeoutMs sessionWatchdogMs))
    (Session.afterFirstQuantum servedMs)

/-! ## Misses that last their timeout -/

/-- A call that returns no request has timed out. -/
def Round.IsFullWait (t : Round) : Prop := t.event.recvAdvance = none → t.event = .timedOut

/-- Every miss so far stands for a stall timeout. -/
structure Session.Timed (stallTimeoutMs watchdogThreshold : ℕ) (s : Session) : Prop where
  misses_mul_le : s.consecutiveTimeouts * stallTimeoutMs ≤ s.sinceRequestMs
  lt_of_aborted : s.aborted = true → watchdogThreshold < s.consecutiveTimeouts

/-- **A turn keeps count and time together** if its miss is a full wait. -/
theorem Session.Timed.turn {stallTimeoutMs threshold : ℕ} {s : Session}
    (hs : s.Timed stallTimeoutMs threshold) {t : Round} (hpossible : t.IsPossible stallTimeoutMs)
    (hfull : t.IsFullWait) : (s.turn threshold t).Timed stallTimeoutMs threshold := by
  unfold Session.turn
  split
  · exact hs
  · next hrunning =>
      split
      · -- a request resets the count
        exact ⟨by rw [Nat.zero_mul]; exact Nat.zero_le _, fun h => absurd h hrunning⟩
      · next hnone =>
          have hwaited : stallTimeoutMs ≤ t.waitedMs := by
            have hevent := hfull hnone
            rwa [Round.IsPossible, hevent] at hpossible
          refine ⟨?_, of_decide_eq_true⟩
          show (s.consecutiveTimeouts + 1) * stallTimeoutMs ≤ s.sinceRequestMs + t.waitedMs
          rw [Nat.add_mul, Nat.one_mul]
          exact Nat.add_le_add hs.misses_mul_le hwaited

/-- And so does a run of such turns. -/
theorem Session.timed_after {stallTimeoutMs sessionWatchdogMs servedMs : ℕ} {turns : List Round}
    (hpossible : ∀ t ∈ turns, t.IsPossible stallTimeoutMs) (hfull : ∀ t ∈ turns, t.IsFullWait) :
    (Session.after stallTimeoutMs sessionWatchdogMs servedMs turns).Timed stallTimeoutMs
      (watchdogThreshold stallTimeoutMs sessionWatchdogMs) := by
  refine List.foldlRecOn turns _ ?_ fun s hs t ht => hs.turn (hpossible t ht) (hfull t ht)
  refine ⟨?_, nofun⟩
  rw [Session.afterFirstQuantum, Nat.zero_mul]
  exact Nat.zero_le _

/-- **The watchdog fires on silence only**, if every call without a request lasts its timeout: the worker
aborts only when more than the watchdog time has passed since the last valid request. -/
theorem watchdog_of_fullWaits (stallTimeoutMs sessionWatchdogMs : ℕ) (hstall : 0 < stallTimeoutMs)
    (hwatchdog : 0 < sessionWatchdogMs) (servedMs : ℕ) (turns : List Round)
    (hpossible : ∀ t ∈ turns, t.IsPossible stallTimeoutMs) (hfull : ∀ t ∈ turns, t.IsFullWait)
    (haborted : (Session.after stallTimeoutMs sessionWatchdogMs servedMs turns).aborted = true) :
    sessionWatchdogMs < (Session.after stallTimeoutMs sessionWatchdogMs servedMs turns).sinceRequestMs := by
  obtain ⟨hmisses, hlt⟩ := @Session.timed_after stallTimeoutMs sessionWatchdogMs servedMs turns
    hpossible hfull
  have hthreshold : watchdogThreshold stallTimeoutMs sessionWatchdogMs =
      sessionWatchdogMs / stallTimeoutMs := if_pos ⟨hwatchdog, hstall⟩
  have hcount := hlt haborted
  rw [hthreshold, Nat.div_lt_iff_lt_mul hstall] at hcount
  exact Nat.lt_of_lt_of_le hcount hmisses

/-- A stall timeout of one second and a watchdog time of 2.5 seconds: the third silent second is enough. -/
def silentTurns : List Round := List.replicate 3 ⟨.timedOut, 1000, 0⟩

theorem watchdog_silentTurns : (Session.after 1000 2500 0 silentTurns).aborted = true ∧
      2500 < (Session.after 1000 2500 0 silentTurns).sinceRequestMs :=
  have haborted : (Session.after 1000 2500 0 silentTurns).aborted = true := by decide
  ⟨haborted, watchdog_of_fullWaits 1000 2500 (by decide) (by decide) 0 silentTurns
    (fun t ht => by rw [List.eq_of_mem_replicate ht]; exact Nat.le_refl 1000)
    (fun t ht _ => by rw [List.eq_of_mem_replicate ht]) haborted⟩

/-- Four malformed queries within a millisecond of the last request, or the end of the Unix stream. -/
def quickMisses (event : TransportEvent) : List Round := List.replicate 4 ⟨event, 0, 0⟩

/-- **The worker aborts at once** with a stall timeout of one second and a watchdog time of three. -/
theorem aborted_quickMisses : (∀ t ∈ quickMisses (.query []), t.IsPossible 1000) ∧
    (∀ t ∈ quickMisses .endOfStream, t.IsPossible 1000) ∧
    (Session.after 1000 3000 0 (quickMisses (.query []))) = ⟨4, true, 0⟩ ∧
    (Session.after 1000 3000 0 (quickMisses .endOfStream)) = ⟨4, true, 0⟩ := by
  refine ⟨fun t ht => ?_, fun t ht => ?_, by decide, by decide⟩
  · rw [List.eq_of_mem_replicate ht]
    trivial
  · rw [List.eq_of_mem_replicate ht]
    trivial

end Virtmcu.Clock
