import Mathlib.Data.Nat.Notation
import Mathlib.Logic.Function.Basic

/-! # The subscription of a device

The threads around one `SafeSubscription` and the memory they share: the transport's threads in the
callback wrapper (check, send, kick), the main loop that runs the timer
(`safe_subscription_timer_cb`), and the thread that drops the subscription. Every access to shared
memory is a step, and the steps interleave freely.

The record `SubscriptionInternal` has one owner, the subscription; the timer holds a bare pointer to
it. The timer itself belongs to the wrapper as well and outlives the subscription. The main loop runs
timers with the big lock (BQL) held; the user callback may give it up for a time. The thread that drops
may be the main loop's own: these are the runs in which the main loop takes no step during the drop. -/

namespace Virtmcu.Qom

/-- A message of the topic. -/
abbrev Payload := List UInt8

/-! ## Threads -/

/-- Where a thread of the transport is in the wrapper. -/
inductive WrapperPc
  | idle
  /-- `is_valid` was loaded as `true`; at `tx.send`. -/
  | checked (payload : Payload)
  /-- The message is in the queue; at `timer_kick.kick`. -/
  | sent
  deriving DecidableEq, Repr

/-- Where the main loop is in the timer callback. -/
inductive MainPc
  /-- Outside. -/
  | idle
  /-- The timer has fired; at `active_count.fetch_add`. -/
  | dispatched
  /-- At `rx.try_recv`. -/
  | draining
  /-- At the load of `is_valid`. -/
  | popped (payload : Payload)
  /-- At the load of `generation`. -/
  | validated (payload : Payload)
  /-- In the user callback. -/
  | calling (payload : Payload)
  /-- The queue is empty; at `active_count.fetch_sub`. -/
  | drained
  /-- At the notification through `drain_cond`. -/
  | leaving
  deriving DecidableEq, Repr

/-- Where `SafeSubscription::drop` is. -/
inductive DropPc
  | notStarted
  /-- `is_valid` is `false`; at `_timer.del`. -/
  | marked
  /-- At `Bql::temporary_unlock`. -/
  | deleted
  /-- In the wait for `active_count` to be zero; `held` if the big lock was given up. -/
  | waiting (held : Bool)
  /-- The count was zero; at the end of the body, where the big lock is taken back. -/
  | counted (held : Bool)
  /-- The body has returned; at the drop of the fields. -/
  | returned
  /-- The record is freed. -/
  | freed
  deriving DecidableEq, Repr

/-- Who holds the big lock. -/
inductive BqlOwner
  | nobody
  | mainLoop
  | dropper
  /-- Some other thread, such as a vCPU. -/
  | other
  deriving DecidableEq, Repr

/-- The subscription with `k` threads of the transport. -/
structure State (k : ℕ) where
  isValid : Bool
  activeCount : ℕ
  generation : ℕ
  expectedGeneration : ℕ
  /-- The channel from the wrapper to the timer callback. -/
  queue : List Payload
  /-- The timer is due. -/
  armed : Bool
  bql : BqlOwner
  wrapper : Fin k → WrapperPc
  main : MainPc
  drop : DropPc

/-- `SafeSubscription::new`, which is called with the big lock held. -/
def initial (k generation : ℕ) : State k where
  isValid := true
  activeCount := 0
  generation := generation
  expectedGeneration := generation
  queue := []
  armed := false
  bql := .other
  wrapper _ := .idle
  main := .idle
  drop := .notStarted

/-! ## Steps -/

/-- A step, with what it finds in the state. -/
inductive Action (k : ℕ)
  /-- A message arrives, and the wrapper finds `is_valid`. -/
  | check (i : Fin k) (payload : Payload)
  /-- `tx.send` succeeds: the receiver, a field of the record, is still there. -/
  | send (i : Fin k) (payload : Payload)
  /-- `tx.send` fails. -/
  | sendFails (i : Fin k) (payload : Payload)
  | kick (i : Fin k)
  /-- The main loop takes the big lock, outside or in the user callback. -/
  | mainLock
  | mainUnlock
  /-- The main loop finds the timer due and calls its callback. -/
  | fire
  | addActive
  | tryRecv (payload : Payload) (rest : List Payload)
  | tryRecvFails
  | loadValid (payload : Payload)
  | loadGeneration (payload : Payload)
  | callbackReturns (payload : Payload)
  | subActive
  | notify
  /-- The thread that drops takes the big lock, before the drop. -/
  | dropperLock
  /-- It gives the lock up, before or after the drop. -/
  | dropperUnlock
  | markInvalid
  | deleteTimer
  | temporaryUnlock
  /-- `active_count` is loaded as zero. -/
  | countZero (held : Bool)
  | relock (held : Bool)
  | free
  | otherLock
  | otherUnlock
  /-- The device starts over. -/
  | bumpGeneration
  deriving DecidableEq, Repr

/-- The main loop is not in the timer callback, or in the part of it that may give up the lock. -/
def MainPc.mayYield : MainPc → Bool
  | .idle => true
  | .calling _ => true
  | _ => false

variable {k : ℕ}

/-- The step can be taken. -/
def Enabled (s : State k) : Action k → Prop
  | .check i _ => s.wrapper i = .idle ∧ s.isValid = true
  | .send i payload => s.wrapper i = .checked payload ∧ s.drop ≠ .freed
  | .sendFails i payload => s.wrapper i = .checked payload ∧ s.drop = .freed
  | .kick i => s.wrapper i = .sent
  | .mainLock => s.bql = .nobody ∧ s.main.mayYield = true
  | .mainUnlock => s.bql = .mainLoop ∧ s.main.mayYield = true
  | .fire => s.main = .idle ∧ s.bql = .mainLoop ∧ s.armed = true
  | .addActive => s.main = .dispatched
  | .tryRecv payload rest => s.main = .draining ∧ s.queue = payload :: rest
  | .tryRecvFails => s.main = .draining ∧ s.queue = []
  | .loadValid payload => s.main = .popped payload
  | .loadGeneration payload => s.main = .validated payload
  | .callbackReturns payload => s.main = .calling payload ∧ s.bql = .mainLoop
  | .subActive => s.main = .drained
  | .notify => s.main = .leaving
  | .dropperLock => s.bql = .nobody ∧ s.drop = .notStarted
  | .dropperUnlock => s.bql = .dropper ∧ (s.drop = .notStarted ∨ s.drop = .freed)
  | .markInvalid => s.drop = .notStarted
  | .deleteTimer => s.drop = .marked
  | .temporaryUnlock => s.drop = .deleted
  | .countZero held => s.drop = .waiting held ∧ s.activeCount = 0
  | .relock held => s.drop = .counted held ∧ (held = true → s.bql = .nobody)
  | .free => s.drop = .returned
  | .otherLock => s.bql = .nobody
  | .otherUnlock => s.bql = .other
  | .bumpGeneration => True

instance (s : State k) (action : Action k) : Decidable (Enabled s action) := by
  cases action <;> dsimp only [Enabled] <;> infer_instance

/-- A thread of the transport gets to another place. -/
def State.wrapperTo (s : State k) (i : Fin k) (pc : WrapperPc) : State k :=
  { s with wrapper := Function.update s.wrapper i pc }

/-- What a step does. -/
def step (s : State k) : Action k → State k
  | .check i payload => s.wrapperTo i (.checked payload)
  | .send i payload => { s.wrapperTo i .sent with queue := s.queue ++ [payload] }
  | .sendFails i _ => s.wrapperTo i .idle
  -- a kick arms the timer again also after it was deleted
  | .kick i => { s.wrapperTo i .idle with armed := true }
  | .mainLock => { s with bql := .mainLoop }
  | .mainUnlock => { s with bql := .nobody }
  | .fire => { s with main := .dispatched, armed := false }
  | .addActive => { s with main := .draining, activeCount := s.activeCount + 1 }
  | .tryRecv payload rest => { s with main := .popped payload, queue := rest }
  | .tryRecvFails => { s with main := .drained }
  | .loadValid payload => { s with main := if s.isValid then .validated payload else .draining }
  | .loadGeneration payload =>
      { s with main := if s.generation = s.expectedGeneration then .calling payload else .draining }
  | .callbackReturns _ => { s with main := .draining }
  | .subActive => { s with main := .leaving, activeCount := s.activeCount - 1 }
  | .notify => { s with main := .idle }
  | .dropperLock => { s with bql := .dropper }
  | .dropperUnlock => { s with bql := .nobody }
  | .markInvalid => { s with drop := .marked, isValid := false }
  | .deleteTimer => { s with drop := .deleted, armed := false }
  | .temporaryUnlock =>
      { s with
        drop := .waiting (decide (s.bql = .dropper))
        bql := if s.bql = .dropper then .nobody else s.bql }
  | .countZero held => { s with drop := .counted held }
  | .relock held => { s with drop := .returned, bql := if held then .dropper else s.bql }
  | .free => { s with drop := .freed }
  | .otherLock => { s with bql := .other }
  | .otherUnlock => { s with bql := .nobody }
  | .bumpGeneration => { s with generation := s.generation + 1 }

/-! ## Safety -/

/-- The drop has returned. -/
def DropPc.hasReturned : DropPc → Bool
  | .returned => true
  | .freed => true
  | _ => false

/-- **No use of a freed subscription**: the timer callback does not run when the record is freed, nor
the user callback when the drop has returned. -/
def NoUseAfterFree (s : State k) : Prop :=
  (s.drop = .freed → s.main = .idle) ∧
    (s.drop.hasReturned = true → ∀ payload, s.main ≠ .calling payload)

end Virtmcu.Qom
