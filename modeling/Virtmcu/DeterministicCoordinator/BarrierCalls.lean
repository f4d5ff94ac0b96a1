import Virtmcu.DeterministicCoordinator.BarrierHistory

/-! # Sequences of barrier calls

`submit_done` and `reset` in any order on one barrier. Two facts about every such sequence:

* the calls that were turned down or came too late have left no trace: without them the other calls
  find and leave the same states and give the same answers (`submitDone_unseen`, then the stutter rule);
* the counter, the flags and the buffers agree with each other (`CountsMatch`), which each call keeps
  (`countsMatch_step`).

`barrier_calls_invisible` puts the two together. -/

namespace Virtmcu.DeterministicCoordinator

variable {n : Nat}

/-- A call on a barrier. -/
inductive BarrierCall
  | submitDone (call : DoneCall)
  | reset
  deriving DecidableEq, Repr

/-- One call: the barrier it leaves and its result, which `reset` does not have. -/
def barrierStep (b : QuantumBarrier n) : BarrierCall → QuantumBarrier n × Option SubmitResult
  | .submitDone call => ((b.submitDone call).1, some (b.submitDone call).2)
  | .reset => (b.reset, none)

/-- The record of one call. -/
abbrev CallEntry (n : Nat) := Entry (QuantumBarrier n) BarrierCall (Option SubmitResult)

/-- Every call but the `submit_done` calls that returned an error or named a quantum below the current
one. -/
def CallEntry.isSeen (e : CallEntry n) : Bool :=
  match e.input, e.output with
  | .submitDone call, some result =>
      decide (e.before.currentQuantum ≤ call.quantum) && result.isOk
  | _, _ => true

/-- The calls of a sequence without the unseen ones. -/
def seenCalls (b : QuantumBarrier n) (calls : List BarrierCall) : List BarrierCall :=
  ((entries barrierStep b calls).filter CallEntry.isSeen).map Entry.input

/-! ## Unseen calls -/

/-- A stale or rejected `submit_done` leaves the barrier as it was. -/
theorem submitDone_unseen {b : QuantumBarrier n} {call : DoneCall}
    (h : call.quantum.toNat < b.currentQuantum.toNat ∨ ∃ e, (b.submitDone call).2 = .error e) :
    (b.submitDone call).1 = b := by
  have hcases := b.submitDone_cases call
  generalize b.submitDone call = r at hcases h
  cases hcases with
  | stale hq | rejected e hq he => rfl
  | ahead i hi hq hfree | counted i hi hq hmax hfree hcount | released i hi hq hmax hfree hcount =>
    rcases h with hlt | ⟨e, he⟩
    · omega
    · cases he

theorem barrierStep_unseen (b : QuantumBarrier n) (call : BarrierCall)
    (h : CallEntry.isSeen (entryAt barrierStep b call) = false) : (barrierStep b call).1 = b := by
  cases call with
  | reset => cases h
  | submitDone call =>
    refine submitDone_unseen ?_
    cases hres : (b.submitDone call).2 with
    | error e => exact .inr ⟨e, rfl⟩
    | ok answer =>
      left
      simpa [CallEntry.isSeen, entryAt, barrierStep, hres, Except.isOk, Except.toBool,
        UInt64.lt_iff_toNat_lt] using h

/-! ## The representation -/

/-- The counter, the flags and the buffers of a barrier agree. -/
structure CountsMatch (cap : Nat) (b : QuantumBarrier n) : Prop where
  cap_eq : b.maxMessagesPerNode = cap
  doneCount_eq : b.doneCount = b.doneNodes.count true
  buffer_le : b.messageBuffer.length ≤ cap * b.doneNodes.count true
  next_le : b.nextQuantumBuffer.length ≤ cap * b.nextQuantumDoneNodes.count true

theorem countsMatch_start (n cap : Nat) (q₀ : UInt64) :
    CountsMatch cap (QuantumBarrier.start n cap q₀) := by
  refine ⟨rfl, ?_, Nat.zero_le _, Nat.zero_le _⟩
  simp [QuantumBarrier.start, Vector.count_replicate]

namespace CountsMatch

variable {cap : Nat} {b : QuantumBarrier n}

theorem reset (h : CountsMatch cap b) : CountsMatch cap b.reset := by
  refine ⟨h.cap_eq, ?_, Nat.zero_le _, Nat.zero_le _⟩
  have hclear : b.doneNodes.map (fun _ => false) = Vector.replicate n false := by
    ext i hi
    simp
  show 0 = (b.doneNodes.map fun _ => false).count true
  rw [hclear]
  simp [Vector.count_replicate]

/-- A buffer grows by at most `cap` messages where a flag is set. -/
theorem append_le {buffer : List CoordMessage} {flags : Vector Bool n} {i : Fin n}
    (hle : buffer.length ≤ cap * flags.count true) (hfree : flags[i] = false)
    (messages : List CoordMessage) :
    (buffer ++ sortTruncate cap messages).length ≤ cap * (flags.set i true).count true := by
  have hkept := length_sortTruncate_le cap messages
  rw [List.length_append, count_set_true hfree, Nat.mul_succ]
  omega

theorem noteNext (h : CountsMatch cap b) {i : Fin n} (hfree : b.nextQuantumDoneNodes.get i = false)
    (messages : List CoordMessage) : CountsMatch cap (b.noteNext i messages) := by
  refine { h with next_le := ?_ }
  rw [QuantumBarrier.noteNext_nextQuantumBuffer, QuantumBarrier.noteNext_nextQuantumDoneNodes, h.cap_eq]
  exact append_le h.next_le hfree messages

theorem noteDone (h : CountsMatch cap b) {i : Fin n} (hfree : b.doneNodes.get i = false)
    (messages : List CoordMessage) : CountsMatch cap (b.noteDone i messages) := by
  refine ⟨h.cap_eq, ?_, ?_, h.next_le⟩
  · rw [QuantumBarrier.noteDone_doneCount, QuantumBarrier.noteDone_doneNodes,
      count_set_true hfree, h.doneCount_eq]
  · rw [QuantumBarrier.noteDone_messageBuffer, QuantumBarrier.noteDone_doneNodes, h.cap_eq]
    exact append_le h.buffer_le hfree messages

/-- The parked flags and buffer move up together. -/
theorem promote (h : CountsMatch cap b) : CountsMatch cap b.promote :=
  ⟨h.cap_eq, rfl, h.next_le, Nat.zero_le _⟩

end CountsMatch

/-- Each call keeps the representation. -/
theorem countsMatch_step {cap : Nat} (b : QuantumBarrier n) (call : BarrierCall)
    (h : CountsMatch cap b) : CountsMatch cap (barrierStep b call).1 := by
  cases call with
  | reset => exact h.reset
  | submitDone call =>
    show CountsMatch cap (b.submitDone call).1
    have hcases := b.submitDone_cases call
    generalize b.submitDone call = r at hcases
    cases hcases with
    | stale hq | rejected e hq he => exact h
    | ahead i hi hq hfree => exact h.noteNext hfree call.messages
    | counted i hi hq hmax hfree hcount => exact h.noteDone hfree call.messages
    | released i hi hq hmax hfree hcount => exact (h.noteDone hfree call.messages).promote

/-! ## Every sequence of calls -/

/-- **Rejected and stale calls are invisible.** Without them a sequence of calls consists of the same
other calls, each with the state it found, its result and the state it left, and ends in the same
state. There the counter is the number of set flags, there is one flag of each kind per node, and each
buffer holds at most `cap` messages per set flag. -/
theorem barrier_calls_invisible (n cap : Nat) (q₀ : UInt64) (calls : List BarrierCall) :
    entries barrierStep (QuantumBarrier.start n cap q₀) (seenCalls (QuantumBarrier.start n cap q₀) calls) =
      (entries barrierStep (QuantumBarrier.start n cap q₀) calls).filter CallEntry.isSeen ∧
    finalState barrierStep (QuantumBarrier.start n cap q₀)
        (seenCalls (QuantumBarrier.start n cap q₀) calls) =
      finalState barrierStep (QuantumBarrier.start n cap q₀) calls ∧
    CountsMatch cap (finalState barrierStep (QuantumBarrier.start n cap q₀) calls) ∧
    (finalState barrierStep (QuantumBarrier.start n cap q₀) calls).doneNodes.toList.length = n ∧
    (finalState barrierStep (QuantumBarrier.start n cap q₀) calls).nextQuantumDoneNodes.toList.length
      = n := by
  refine ⟨?_, ?_, ?_, Vector.length_toList, Vector.length_toList⟩
  · exact entries_kept barrierStep barrierStep_unseen _ calls
  · exact finalState_kept barrierStep barrierStep_unseen _ calls
  · exact finalState_invariant barrierStep countsMatch_step (countsMatch_start n cap q₀) calls

end Virtmcu.DeterministicCoordinator
