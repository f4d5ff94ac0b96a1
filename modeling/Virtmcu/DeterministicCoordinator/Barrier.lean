import Virtmcu.DeterministicCoordinator.Message
import Virtmcu.Foundations.Run
import Mathlib.Algebra.Group.Nat.Defs

/-! # The quantum barrier

`QuantumBarrier` of `barrier.rs`. Every node reports the end of each quantum with one `submit_done`
call that also carries its outbound messages; the call that completes a quantum answers the sorted
batch of all nodes and moves the barrier on. A node may run one quantum ahead: its submission is then
parked in the `next_quantum_*` fields and promoted when the current quantum completes.

`submit_done` holds the state mutex for its whole body, so a call is one atomic step and the two
records of the source are one record here. Quanta are `u64` and `current + 1` wraps, as in the
release build. `submitDone_cases` says once what a call can do; no later proof unfolds `submitDone`. -/

namespace Virtmcu.DeterministicCoordinator

/-- `BarrierError`. -/
inductive BarrierError
  | timeout
  | duplicateDone
  | nodeIndexOutOfBounds (nodeId : UInt32)
  | quantumMismatch (expected got : UInt64)
  deriving DecidableEq, Repr

/-- The answer of `submit_done`. -/
abbrev SubmitResult := Except BarrierError (Option (List CoordMessage))

/-- The barrier over `n` nodes. The flag vectors have exactly one flag per node. -/
structure QuantumBarrier (n : Nat) where
  maxMessagesPerNode : Nat
  currentQuantum : UInt64
  doneCount : Nat
  messageBuffer : List CoordMessage
  doneNodes : Vector Bool n
  nextQuantumBuffer : List CoordMessage
  nextQuantumDoneNodes : Vector Bool n
  deriving DecidableEq

/-- The arguments of one `submit_done` call. -/
structure DoneCall where
  nodeId : UInt32
  quantum : UInt64
  expectedQuantum : UInt64
  messages : List CoordMessage
  deriving DecidableEq, Repr

namespace QuantumBarrier

variable {n : Nat}

/-- `QuantumBarrier::new`. -/
@[simps] def new (n maxMessagesPerNode : Nat) : QuantumBarrier n where
  maxMessagesPerNode := maxMessagesPerNode
  currentQuantum := 0
  doneCount := 0
  messageBuffer := []
  doneNodes := Vector.replicate n false
  nextQuantumBuffer := []
  nextQuantumDoneNodes := Vector.replicate n false

/-- `set_quantum`. -/
@[simps] def setQuantum (b : QuantumBarrier n) (quantum : UInt64) : QuantumBarrier n :=
  { b with currentQuantum := quantum }

/-- `reset`. -/
def reset (b : QuantumBarrier n) : QuantumBarrier n where
  maxMessagesPerNode := b.maxMessagesPerNode
  currentQuantum := 0
  doneCount := 0
  messageBuffer := []
  doneNodes := b.doneNodes.map fun _ => false
  nextQuantumBuffer := []
  nextQuantumDoneNodes := b.nextQuantumDoneNodes.map fun _ => false

/-- The lookahead arm of `submit_done`: park a submission for the next quantum. -/
@[simps] def noteNext (b : QuantumBarrier n) (i : Fin n) (messages : List CoordMessage) : QuantumBarrier n :=
  { b with
    nextQuantumDoneNodes := b.nextQuantumDoneNodes.set i true
    nextQuantumBuffer := b.nextQuantumBuffer ++ sortTruncate b.maxMessagesPerNode messages }

/-- The current-quantum arm of `submit_done`, up to the completion test. -/
@[simps] def noteDone (b : QuantumBarrier n) (i : Fin n) (messages : List CoordMessage) : QuantumBarrier n :=
  { b with
    doneNodes := b.doneNodes.set i true
    messageBuffer := b.messageBuffer ++ sortTruncate b.maxMessagesPerNode messages
    doneCount := b.doneCount + 1 }

/-- "Promotion & Lookahead Logic": advance the quantum and move the parked submissions up. -/
@[simps] def promote (b : QuantumBarrier n) : QuantumBarrier n :=
  { b with
    currentQuantum := b.currentQuantum + 1
    messageBuffer := b.nextQuantumBuffer
    doneNodes := b.nextQuantumDoneNodes
    nextQuantumBuffer := []
    nextQuantumDoneNodes := Vector.replicate n false
    -- recounted, but not compared with `n` again
    doneCount := b.nextQuantumDoneNodes.count true }

/-- `submit_done`. The caller's `expected_quantum` is compared and then ignored, as in the source. -/
def submitDone (b : QuantumBarrier n) (c : DoneCall) : QuantumBarrier n × SubmitResult :=
  let current := b.currentQuantum
  -- the stale test comes before the test of the node id: an unknown node with an old quantum is ignored
  if c.quantum < current then
    (b, .ok none)
  else if hn : c.nodeId.toNat < n then
    if c.quantum > current + 1 then
      (b, .error (.quantumMismatch current c.quantum))
    else if c.quantum = current + 1 then
      if b.nextQuantumDoneNodes[c.nodeId.toNat] then
        (b, .error .duplicateDone)
      else
        (b.noteNext ⟨c.nodeId.toNat, hn⟩ c.messages, .ok none)
    else if b.doneNodes[c.nodeId.toNat] then
      (b, .error .duplicateDone)
    else
      let b' := b.noteDone ⟨c.nodeId.toNat, hn⟩ c.messages
      if b'.doneCount = n then
        (b'.promote, .ok (some (sort b'.messageBuffer)))
      else
        (b', .ok none)
  else
    (b, .error (.nodeIndexOutOfBounds c.nodeId))

/-- The barrier as `main` hands it to the event loop: fresh, with its quantum set. -/
def start (n maxMessagesPerNode : Nat) (quantum : UInt64) : QuantumBarrier n :=
  (new n maxMessagesPerNode).setQuantum quantum

/-! ## What one call can do -/

/-- The four reasons to turn a report down. -/
inductive Rejection (b : QuantumBarrier n) (c : DoneCall) : BarrierError → Prop
  | unknownNode (hn : n ≤ c.nodeId.toNat) : Rejection b c (.nodeIndexOutOfBounds c.nodeId)
  /-- Past the lookahead window. At `u64::MAX` the successor wraps and nothing is in reach. -/
  | tooFar (hn : c.nodeId.toNat < n)
      (hq : b.currentQuantum.toNat + 1 < c.quantum.toNat ∨ b.currentQuantum.toNat + 1 = 2 ^ 64) :
      Rejection b c (.quantumMismatch b.currentQuantum c.quantum)
  | duplicateNext (i : Fin n) (hi : c.nodeId.toNat = i)
      (hq : c.quantum.toNat = b.currentQuantum.toNat + 1)
      (hset : b.nextQuantumDoneNodes[i] = true) : Rejection b c .duplicateDone
  | duplicate (i : Fin n) (hi : c.nodeId.toNat = i)
      (hq : c.quantum.toNat = b.currentQuantum.toNat) (hset : b.doneNodes[i] = true) :
      Rejection b c .duplicateDone

/-- The five outcomes of a call, each with the guards that lead to it. Quanta are compared as numbers:
`current + 1` is only ever met unwrapped, since a wrapped successor is `0`. -/
inductive Outcome (b : QuantumBarrier n) (c : DoneCall) : QuantumBarrier n × SubmitResult → Prop
  /-- A report for a quantum that is already over is ignored. -/
  | stale (hq : c.quantum.toNat < b.currentQuantum.toNat) : Outcome b c (b, .ok none)
  /-- A report that is turned down leaves no trace. -/
  | rejected (e : BarrierError) (hq : b.currentQuantum.toNat ≤ c.quantum.toNat)
      (he : Rejection b c e) : Outcome b c (b, .error e)
  /-- One quantum ahead: parked. -/
  | ahead (i : Fin n) (hi : c.nodeId.toNat = i)
      (hq : c.quantum.toNat = b.currentQuantum.toNat + 1)
      (hfree : b.nextQuantumDoneNodes[i] = false) :
      Outcome b c (b.noteNext i c.messages, .ok none)
  /-- A report for the current quantum that leaves some node outstanding. -/
  | counted (i : Fin n) (hi : c.nodeId.toNat = i)
      (hq : c.quantum.toNat = b.currentQuantum.toNat) (hmax : b.currentQuantum.toNat + 1 < 2 ^ 64)
      (hfree : b.doneNodes[i] = false) (hcount : b.doneCount + 1 ≠ n) :
      Outcome b c (b.noteDone i c.messages, .ok none)
  /-- The report that completes the current quantum. -/
  | released (i : Fin n) (hi : c.nodeId.toNat = i)
      (hq : c.quantum.toNat = b.currentQuantum.toNat) (hmax : b.currentQuantum.toNat + 1 < 2 ^ 64)
      (hfree : b.doneNodes[i] = false) (hcount : b.doneCount + 1 = n) :
      Outcome b c ((b.noteDone i c.messages).promote,
        .ok (some (sort (b.noteDone i c.messages).messageBuffer)))

/-- **Inversion of `submit_done`.** -/
theorem submitDone_cases (b : QuantumBarrier n) (c : DoneCall) : Outcome b c (b.submitDone c) := by
  have hcur := b.currentQuantum.toNat_lt
  have hsucc : (b.currentQuantum + 1).toNat = (b.currentQuantum.toNat + 1) % 2 ^ 64 :=
    UInt64.toNat_add _ _
  unfold submitDone
  simp only [gt_iff_lt, UInt64.lt_iff_toNat_lt, ← UInt64.toNat_inj, hsucc]
  split
  · exact .stale ‹_›
  rename_i hstale
  have hq : b.currentQuantum.toNat ≤ c.quantum.toNat := by omega
  split
  · rename_i hn
    split
    · exact .rejected _ hq (.tooFar hn (by omega))
    split
    · rename_i hfar hnext
      have hq' : c.quantum.toNat = b.currentQuantum.toNat + 1 := by omega
      split
      · exact .rejected _ hq (.duplicateNext ⟨_, hn⟩ rfl hq' ‹_›)
      · rename_i hfree
        exact .ahead ⟨_, hn⟩ rfl hq' (by simpa using hfree)
    · rename_i hfar hnext
      -- a wrapped successor is `0`, which no quantum from `current` on falls under
      have hmax : b.currentQuantum.toNat + 1 < 2 ^ 64 := by omega
      have hq' : c.quantum.toNat = b.currentQuantum.toNat := by omega
      split
      · exact .rejected _ hq (.duplicate ⟨_, hn⟩ rfl hq' ‹_›)
      rename_i hfree
      split
      · exact .released ⟨_, hn⟩ rfl hq' hmax (by simpa using hfree) ‹_›
      · exact .counted ⟨_, hn⟩ rfl hq' hmax (by simpa using hfree) ‹_›
  · exact .rejected _ hq (.unknownNode (by omega))

/-- What the barrier makes of the first report of a node for the current quantum. -/
theorem submitDone_first {b : QuantumBarrier n} {c : DoneCall} {i : Fin n}
    (hid : c.nodeId.toNat = i) (hq : c.quantum.toNat = b.currentQuantum.toNat)
    (hflag : b.doneNodes[i] = false) :
    (b.currentQuantum.toNat + 1 = 2 ^ 64 ∧ ∃ e, b.submitDone c = (b, .error e)) ∨
    (b.currentQuantum.toNat + 1 < 2 ^ 64 ∧ b.doneCount + 1 ≠ n ∧
      b.submitDone c = (b.noteDone i c.messages, .ok none)) ∨
    (b.currentQuantum.toNat + 1 < 2 ^ 64 ∧ b.doneCount + 1 = n ∧
      ∃ batch, b.submitDone c = ((b.noteDone i c.messages).promote, .ok (some batch))) := by
  have hcases := b.submitDone_cases c
  generalize b.submitDone c = r at hcases
  cases hcases with
  | stale hlt => omega
  | rejected e hle he =>
    cases he with
    | unknownNode hn => exact absurd i.isLt (by omega)
    -- the current quantum itself is only out of reach when its successor wraps
    | tooFar hn hfar => exact .inl ⟨by omega, _, rfl⟩
    | duplicateNext j hj hnext hset => omega
    | duplicate j hj hcur hset =>
      have hij : j = i := Fin.ext (hj.symm.trans hid)
      rw [hij, hflag] at hset
      exact absurd hset (by decide)
  | ahead j hj hnext hfree => omega
  | counted j hj hcur hmax hfree hcount =>
    have hij : j = i := Fin.ext (hj.symm.trans hid)
    exact .inr (.inl ⟨hmax, hcount, by rw [hij]⟩)
  | released j hj hcur hmax hfree hcount =>
    have hij : j = i := Fin.ext (hj.symm.trans hid)
    exact .inr (.inr ⟨hmax, hcount, _, by rw [hij]⟩)

end QuantumBarrier

end Virtmcu.DeterministicCoordinator
