import Virtmcu.Lockstep.System
import Virtmcu.Foundations.Transition

/-! # The invariant of the coordinated system

START carries no quantum that a clock looks at, so nothing in the messages themselves stops a clock
from resuming on the wrong START. What does is a count. While the coordinator collects the reports for
quantum `p + 1`, every node is at one of eight positions of its cycle (`Position`), and a START for it
is in flight at exactly one of them. `Inv` says so of every node and is kept by every step. -/

namespace Virtmcu.Lockstep

open DeterministicCoordinator List

variable {d : Deployment}

/-! ## Positions of one node -/

/-- Where a node can be while `p` quanta are complete: all its fields but the START messages
themselves, of which `tokens` are underway to it; `flag` says whether the barrier has entered its
report for `p + 1`, and `exhausted` whether the barrier has run out of quantum numbers. -/
inductive Position (p tokens : Nat) (flag : Bool) (exhausted : Prop) : Node → Prop
  /-- Quantum `p` is reported and complete, its START is underway. -/
  | blocked (starts : List (List UInt8)) (hp : 0 < p) (htok : tokens = 1) (hflag : flag = false) :
      Position p tokens flag exhausted ⟨p, p - 1, [], .waiting, p, [], starts, [], List.range' 1 (p - 1)⟩
  | resumed (starts : List (List UInt8)) (hp : 0 < p) (htok : tokens = 0) (hflag : flag = false) :
      Position p tokens flag exhausted ⟨p, p - 1, [], .resumed, p, [], starts, [], List.range' 1 (p - 1)⟩
  | replying (starts : List (List UInt8)) (hp : 0 < p) (htok : tokens = 0) (hflag : flag = false) :
      Position p tokens flag exhausted ⟨p, p - 1, [], .idle, p, [], starts, [p], List.range' 1 p⟩
  | ready (starts : List (List UInt8)) (htok : tokens = 0) (hflag : flag = false) :
      Position p tokens flag exhausted ⟨p, p, [], .idle, p, [], starts, [], List.range' 1 p⟩
  | requested (starts : List (List UInt8)) (htok : tokens = 0) (hflag : flag = false) :
      Position p tokens flag exhausted ⟨p + 1, p, [p + 1], .idle, p, [], starts, [], List.range' 1 p⟩
  | executing (starts : List (List UInt8)) (htok : tokens = 0) (hflag : flag = false) :
      Position p tokens flag exhausted ⟨p + 1, p, [], .executing, p + 1, [], starts, [], List.range' 1 p⟩
  | reporting (vtime : UInt64) (starts : List (List UInt8)) (htok : tokens = 0)
      (hflag : flag = false) : Position p tokens flag exhausted
        ⟨p + 1, p, [], .waiting, p + 1, [donePayload (p + 1) vtime], starts, [], List.range' 1 p⟩
  /-- The report is taken, and entered unless there is no quantum number left. -/
  | reported (starts : List (List UInt8)) (htok : tokens = 0)
      (hflag : flag = true ∨ exhausted) :
      Position p tokens flag exhausted ⟨p + 1, p, [], .waiting, p + 1, [], starts, [], List.range' 1 p⟩

namespace Position

variable {p tokens : Nat} {flag : Bool} {exhausted : Prop} {v : Node}

/-- The START messages themselves play no part. -/
theorem withStarts (h : Position p tokens flag exhausted v) (starts : List (List UInt8)) :
    Position p tokens flag exhausted { v with starts := starts } := by
  cases h with
  | blocked _ hp htok hflag => exact .blocked starts hp htok hflag
  | resumed _ hp htok hflag => exact .resumed starts hp htok hflag
  | replying _ hp htok hflag => exact .replying starts hp htok hflag
  | ready _ htok hflag => exact .ready starts htok hflag
  | requested _ htok hflag => exact .requested starts htok hflag
  | executing _ htok hflag => exact .executing starts htok hflag
  | reporting vtime _ htok hflag => exact .reporting vtime starts htok hflag
  | reported _ htok hflag => exact .reported starts htok hflag

/-- Only a node whose report is taken looks at exhaustion. -/
theorem mono {exhausted' : Prop} (h : Position p tokens flag exhausted v)
    (himp : exhausted → exhausted') : Position p tokens flag exhausted' v := by
  cases h with
  | blocked starts hp htok hflag => exact .blocked starts hp htok hflag
  | resumed starts hp htok hflag => exact .resumed starts hp htok hflag
  | replying starts hp htok hflag => exact .replying starts hp htok hflag
  | ready starts htok hflag => exact .ready starts htok hflag
  | requested starts htok hflag => exact .requested starts htok hflag
  | executing starts htok hflag => exact .executing starts htok hflag
  | reporting vtime starts htok hflag => exact .reporting vtime starts htok hflag
  | reported starts htok hflag => exact .reported starts htok (hflag.imp_right himp)

theorem issue (h : Position p tokens flag exhausted v) (hready : v.answered = v.issued) :
    Position p tokens flag exhausted
      { v with issued := v.issued + 1, requests := v.requests ++ [v.issued + 1] } := by
  cases h with
  | ready starts htok hflag => exact .requested starts htok hflag
  | blocked | resumed | replying | requested | executing | reporting | reported =>
    simp only at hready
    omega

theorem accept (h : Position p tokens flag exhausted v) (hphase : v.phase = .idle) {q : Nat} {rest : List Nat}
    (hreq : v.requests = q :: rest) :
    Position p tokens flag exhausted { v with requests := rest, phase := .executing, quantum := q } := by
  cases h with
  | requested starts htok hflag =>
    obtain ⟨rfl, rfl⟩ := List.cons.inj hreq
    exact .executing starts htok hflag
  | blocked | resumed | replying | ready | executing | reporting | reported => cases hreq

theorem publish (h : Position p tokens flag exhausted v) (hphase : v.phase = .executing) (vtime : UInt64) :
    Position p tokens flag exhausted
      { v with phase := .waiting, dones := v.dones ++ [donePayload v.quantum vtime] } := by
  cases h with
  | executing starts htok hflag => exact .reporting vtime starts htok hflag
  | blocked | resumed | replying | ready | requested | reporting | reported => cases hphase

/-- A blocked clock that finds a START is one whose quantum is complete. -/
theorem resume {k : Nat} (h : Position p (v.starts.length + k) flag exhausted v) (hphase : v.phase = .waiting)
    {token : List UInt8} {rest : List (List UInt8)} (hstart : v.starts = token :: rest) :
    Position p (rest.length + k) flag exhausted { v with phase := .resumed, starts := rest } := by
  -- the two later waiting positions have no START underway, so the clock is at the first
  have hlen : v.starts.length = rest.length + 1 := by rw [hstart, length_cons]
  rw [hlen] at h
  cases h with
  | blocked starts hp htok hflag => exact .resumed rest hp (by omega) hflag
  | reporting | reported => omega
  | resumed | replying | ready | requested | executing => cases hphase

theorem reply (h : Position p tokens flag exhausted v) (hphase : v.phase = .resumed) :
    Position p tokens flag exhausted
      { v with phase := .idle, replies := v.replies ++ [v.quantum], replied := v.replied ++ [v.quantum] } := by
  cases h with
  | resumed starts hp htok hflag =>
    have hlog : List.range' 1 (p - 1) ++ [p] = List.range' 1 p := by
      obtain ⟨r, rfl⟩ : ∃ r, p = r + 1 := ⟨p - 1, by omega⟩
      rw [List.range'_concat, Nat.add_sub_cancel, Nat.add_comm 1 (1 * r), Nat.one_mul]
    simp only [nil_append, hlog]
    exact .replying starts hp htok hflag
  | blocked | replying | ready | requested | executing | reporting | reported => cases hphase

theorem collect (h : Position p tokens flag exhausted v) {q : Nat} {rest : List Nat}
    (hreply : v.replies = q :: rest) :
    Position p tokens flag exhausted { v with replies := rest, answered := q } := by
  cases h with
  | replying starts hp htok hflag =>
    obtain ⟨rfl, rfl⟩ := List.cons.inj hreply
    exact .ready starts htok hflag
  | blocked | resumed | ready | requested | executing | reporting | reported => cases hreply

/-- A node with a DONE report in flight has exactly one, for the quantum being collected. -/
theorem of_dones (h : Position p tokens flag exhausted v) {payload : List UInt8} {rest : List (List UInt8)}
    (hdone : v.dones = payload :: rest) :
    (∃ vtime, payload = donePayload (p + 1) vtime) ∧ tokens = 0 ∧ flag = false ∧
      v = ⟨p + 1, p, [], .waiting, p + 1, v.dones, v.starts, [], List.range' 1 p⟩ ∧ rest = [] := by
  cases h with
  | reporting vtime starts htok hflag =>
    obtain ⟨rfl, rfl⟩ := List.cons.inj hdone
    exact ⟨⟨vtime, rfl⟩, htok, hflag, rfl, rfl⟩
  | blocked | resumed | replying | ready | requested | executing | reported => cases hdone

/-- A node whose report is entered waits for the quantum being collected. -/
theorem of_flag (h : Position p tokens true exhausted v) :
    tokens = 0 ∧ v = ⟨p + 1, p, [], .waiting, p + 1, [], v.starts, [], List.range' 1 p⟩ := by
  cases h with
  | reported starts htok hflag => exact ⟨htok, rfl⟩
  | blocked _ _ _ hflag | resumed _ _ _ hflag | replying _ _ _ hflag | ready _ _ hflag
  | requested _ _ hflag | executing _ _ hflag | reporting _ _ _ hflag => exact absurd hflag (by decide)

/-- A node works on the quantum being collected or has just finished the one before. -/
theorem quantum_eq (h : Position p tokens flag exhausted v) : v.quantum = p ∨ v.quantum = p + 1 := by
  cases h with
  | blocked | resumed | replying | ready | requested => exact .inl rfl
  | executing | reporting | reported => exact .inr rfl

/-- A node has replied to complete quanta only, and not to one whose START is still underway. -/
theorem replied_le (h : Position p tokens flag exhausted v) {q : Nat} (hq : q ∈ v.replied) :
    1 ≤ q ∧ q + tokens ≤ p := by
  cases h with
  | blocked _ hp htok | resumed _ hp htok | replying _ hp htok | ready _ htok | requested _ htok
  | executing _ htok | reporting _ _ htok | reported _ htok =>
    simp only [mem_range'_1] at hq
    omega

/-- A node has replied to all complete quanta but the last. -/
theorem mem_replied (h : Position p tokens flag exhausted v) {q : Nat} (hpos : 1 ≤ q) (hlt : q < p) :
    q ∈ v.replied := by
  cases h with
  | blocked | resumed | replying | ready | requested | executing | reporting | reported =>
    simp only [mem_range'_1]
    omega

/-- An effect of the coordinator adds to the START messages in flight what it takes from the pending
ones. -/
theorem receive {i k : Nat} {e : Effect}
    (h : Position p (v.starts.length + ((startValues i [e]).length + k)) flag exhausted v) :
    Position p ((v.receive i e).starts.length + k) flag exhausted (v.receive i e) := by
  rw [startValues_singleton] at h
  cases e with
  | put topic payload =>
    unfold Node.receive
    by_cases htopic : topic = Templates.clockStart (toString i)
    · have hone : startValue i (.put topic payload) = some (leNat payload) := if_pos htopic
      rw [hone, ← Nat.add_assoc] at h
      simp only [if_pos htopic, length_append]
      exact h.withStarts _
    · have hnone : startValue i (.put topic payload) = none := if_neg htopic
      rw [hnone, Option.toList_none, length_nil, Nat.zero_add] at h
      simp only [if_neg htopic]
      exact h
  | pcap record =>
    rw [show startValue i (.pcap record) = none from rfl, Option.toList_none, length_nil, Nat.zero_add] at h
    exact h
  | flush =>
    rw [show startValue i .flush = none from rfl, Option.toList_none, length_nil, Nat.zero_add] at h
    exact h

end Position

/-! ## The invariant -/

/-- The number of complete quanta. -/
def State.completed (s : State d) : Nat := s.loop.barrier.currentQuantum.toNat - 1

/-- The START messages underway to a node: in flight, or among the effects still to be performed. -/
def State.tokens (s : State d) (i : Fin d.args.nodes) : Nat :=
  (s.node i).starts.length + (startValues i s.pending).length

/-- The barrier stands at the last `u64` quantum and has turned a report for it down: the quantum that
would follow has no number. -/
def State.Exhausted (s : State d) : Prop :=
  s.completed + 2 = 2 ^ 64 ∧ ∃ e ∈ s.barrierRun, e.output.isOk = false

/-- What holds in every reachable state. -/
structure Inv (s : State d) : Prop where
  /-- The effects of all turns so far have been performed, except for the pending ones. -/
  effects_eq : s.performed ++ s.pending = loopEffects d.args d.env d.topo s.taken
  /-- Nobody is a quantum ahead. -/
  next_clear : ∀ i : Fin d.args.nodes, s.loop.barrier.nextQuantumDoneNodes[i] = false
  /-- Somebody is outstanding. -/
  outstanding : s.loop.barrier.doneCount ≠ d.args.nodes
  position : ∀ i : Fin d.args.nodes,
    Position s.completed (s.tokens i) s.loop.barrier.doneNodes[i] s.Exhausted (s.node i)
  /-- The barrier turns down the reports for the last `u64` quantum and no others. -/
  ok_iff : ∀ e ∈ s.barrierRun, e.output.isOk = true ↔ e.input.quantum.toNat + 1 < 2 ^ 64

theorem completed_succ (s : State d) : s.completed + 1 = s.loop.barrier.currentQuantum.toNat := by
  have hstart := (@loop_history d.args d.env d.topo s.taken).start_le
  show s.loop.barrier.currentQuantum.toNat - 1 + 1 = _
  exact Nat.sub_add_cancel hstart

theorem inv_initial : Inv (State.initial d) := by
  refine ⟨rfl, fun i => ?_, d.nodes_pos.ne, fun i => ?_, fun e he => absurd he not_mem_nil⟩
  · simp [State.initial, State.loop, loopAfter, loopStart, QuantumBarrier.start]
  · have hflag : (State.initial d).loop.barrier.doneNodes[i] = false := by
      simp [State.initial, State.loop, loopAfter, loopStart, QuantumBarrier.start]
    exact .ready [] rfl hflag

/-! ## Turns of the coordinator -/

namespace State

variable {s : State d}

/-- Before a turn no START is pending. -/
theorem tokens_of_turn (hturn : s.pending = []) (i : Fin d.args.nodes) :
    s.tokens i = (s.node i).starts.length := by
  rw [State.tokens, hturn]
  rfl

/-- A turn that releases nothing puts no START. -/
theorem tokens_take_of_no_release {x : Sample} (h : releaseOf d.args d.env s.loop x = none)
    (i : Fin d.args.nodes) : (s.take x).tokens i = (s.node i).starts.length := by
  have hquiet : startValues i (s.take x).pending = [] :=
    startValues_eq_nil (loopStep_of_no_release h).2
  rw [State.tokens, hquiet]
  rfl

/-- A turn that releases a batch puts one START to every node. -/
theorem tokens_take_of_release {x : Sample} {batch : List CoordMessage}
    (h : releaseOf d.args d.env s.loop x = some batch) (i : Fin d.args.nodes) :
    (s.take x).tokens i = (s.node i).starts.length + 1 := by
  have hone : startValues i (s.take x).pending = [(s.loop.currentQuantum + 1).toNat] :=
    startValues_of_release h i.isLt
  rw [State.tokens, hone]
  rfl

/-- The effects of a turn are pending at first. -/
theorem effects_take (heffects : s.performed ++ s.pending = loopEffects d.args d.env d.topo s.taken)
    (hturn : s.pending = []) (x : Sample) :
    (s.take x).performed ++ (s.take x).pending = loopEffects d.args d.env d.topo (s.take x).taken := by
  show s.performed ++ (loopStep d.args d.env s.loop x).2 =
    loopEffects d.args d.env d.topo (s.taken ++ [x])
  rw [loopEffects_concat, ← heffects, hturn, append_nil]
  rfl

theorem barrier_take (x : Sample) : (s.take x).loop.barrier =
    ((callOf d.args d.env s.loop x).map fun c => (s.loop.barrier.submitDone c).1).getD s.loop.barrier := by
  show (loopAfter d.args d.env d.topo (s.taken ++ [x])).barrier = _
  rw [loopAfter_concat, loopStep_barrier]
  rfl

theorem barrierRun_take (x : Sample) : (s.take x).barrierRun = s.barrierRun ++
    ((callOf d.args d.env s.loop x).map fun c =>
      entryAt QuantumBarrier.submitDone s.loop.barrier c).toList := by
  show loopBarrierRun d.args d.env d.topo (s.taken ++ [x]) = _
  rw [loopBarrierRun_concat]
  rfl

/-- The call a report in flight leads to. -/
theorem callOf_doneSample (i : Fin d.args.nodes) {q : Nat} (hq : q < 2 ^ 64) (vtime : UInt64) :
    ∃ c, callOf d.args d.env s.loop (doneSample i (donePayload q vtime)) = some c ∧
      c.nodeId.toNat = i ∧ c.quantum.toNat = q := by
  have hi : i.val < 2 ^ 32 := lt_of_lt_of_le i.isLt d.nodes_le
  refine ⟨_, by rw [doneSample, callOf, parseDoneTopic_coordDone hi, Option.map_some], ?_, ?_⟩
  · exact Nat.mod_eq_of_lt hi
  · exact (doneRequest_donePayload d.env hq vtime).1

end State

/-! ## Steps that keep the invariant -/

namespace Inv

variable {s : State d}

/-- A step of one node that takes it to another position. -/
theorem setNode (h : Inv s) (i : Fin d.args.nodes) {v : Node}
    (hv : Position s.completed (v.starts.length + (startValues i s.pending).length)
      s.loop.barrier.doneNodes[i] s.Exhausted v) : Inv (s.setNode i v) := by
  refine { h with position := fun j => ?_ }
  by_cases hj : j = i
  · subst hj
    have hnode : (s.setNode j v).node j = v := Function.update_self _ _ _
    rw [State.tokens, hnode]
    exact hv
  · have hnode : (s.setNode i v).node j = s.node j := Function.update_of_ne hj _ _
    rw [State.tokens, hnode]
    exact h.position j

/-- Performing an effect moves a START from the pending effects into flight, or none at all. -/
theorem perform (h : Inv s) {e : Effect} {es : List Effect} (hpending : s.pending = e :: es) :
    Inv { s with
      node := fun i => (s.node i).receive i e
      pending := es
      performed := s.performed ++ [e] } := by
  refine ⟨?_, h.next_clear, h.outstanding, fun i => ?_, h.ok_iff⟩
  · have heffects := h.effects_eq
    rw [hpending] at heffects
    rw [← heffects, append_assoc]
    rfl
  · have hpos := h.position i
    have hsplit : startValues i s.pending = startValues i [e] ++ startValues i es := by
      rw [hpending]
      exact startValues_append [e] es
    rw [State.tokens, hsplit, length_append] at hpos
    exact hpos.receive

/-- Taking a sample that is no report changes nothing for the nodes. -/
theorem takeOther (h : Inv s) {x : Sample} (hturn : s.pending = [])
    (hx : ∀ topic payload, x ≠ .done topic payload) : Inv (s.take x) := by
  have hcall : callOf d.args d.env s.loop x = none := by
    cases x with
    | tx topic payload | ctrl payload => rfl
    | done topic payload => exact absurd rfl (hx topic payload)
  have hrelease : releaseOf d.args d.env s.loop x = none := by
    rw [releaseOf, hcall]
    rfl
  have hbarrier : (s.take x).loop.barrier = s.loop.barrier := by
    rw [State.barrier_take, hcall]
    rfl
  have hrun : (s.take x).barrierRun = s.barrierRun := by
    rw [State.barrierRun_take, hcall]
    exact append_nil _
  have hexhausted : (s.take x).Exhausted = s.Exhausted := by
    rw [State.Exhausted, State.completed, hbarrier, hrun]
    rfl
  refine ⟨State.effects_take h.effects_eq hturn x, ?_, ?_, fun i => ?_, ?_⟩
  · rw [hbarrier]
    exact h.next_clear
  · rw [hbarrier]
    exact h.outstanding
  · have hpos := h.position i
    rw [State.tokens_of_turn hturn] at hpos
    rw [State.tokens_take_of_no_release hrelease, hexhausted, State.completed, hbarrier]
    exact hpos
  · rw [hrun]
    exact h.ok_iff

end Inv

/-! ## Taking a report -/

/-- How the state `s'` in which the coordinator has taken the report of node `i` is related to the
state `s` before; `c` is the call it made. -/
structure ReportTaken (s s' : State d) (i : Fin d.args.nodes) (c : DoneCall) : Prop where
  nodeId_eq : c.nodeId.toNat = i
  quantum_eq : c.quantum.toNat = s.loop.barrier.currentQuantum.toNat
  effects_eq : s'.performed ++ s'.pending = loopEffects d.args d.env d.topo s'.taken
  barrier_eq : s'.loop.barrier = (s.loop.barrier.submitDone c).1
  run_eq : s'.barrierRun = s.barrierRun ++ [entryAt QuantumBarrier.submitDone s.loop.barrier c]
  /-- The node itself has no report in flight any more. -/
  node_eq : s'.node i = ⟨s.completed + 1, s.completed, [], .waiting, s.completed + 1, [],
    (s'.node i).starts, [], List.range' 1 s.completed⟩
  other_eq : ∀ j, j ≠ i → s'.node j = s.node j
  /-- A START is on its way to every node if the report released a batch, and to no other node than
  before if it did not. -/
  tokens_eq : ∀ j, s'.tokens j =
    s.tokens j + if (releasedBatch (s.loop.barrier.submitDone c).2).isSome then 1 else 0

theorem reportTaken {s : State d} (h : Inv s) (i : Fin d.args.nodes) {payload : List UInt8}
    {rest : List (List UInt8)} (hturn : s.pending = []) (hdone : (s.node i).dones = payload :: rest) :
    ∃ c, ReportTaken s ((s.setNode i { s.node i with dones := rest }).take (doneSample i payload)) i c := by
  obtain ⟨⟨vtime, rfl⟩, -, -, hnode, rfl⟩ := (h.position i).of_dones hdone
  have hcur := completed_succ s
  have hlt := s.loop.barrier.currentQuantum.toNat_lt
  obtain ⟨c, hcall, hid, hq⟩ := @State.callOf_doneSample d s i (s.completed + 1) (by omega) vtime
  generalize hs₁ : s.setNode i { s.node i with dones := [] } = s₁
  have hloop : s₁.loop = s.loop := by rw [← hs₁]; rfl
  have hrun : s₁.barrierRun = s.barrierRun := by rw [← hs₁]; rfl
  have hself : s₁.node i = { s.node i with dones := [] } := by
    rw [← hs₁]
    exact Function.update_self _ _ _
  have hother : ∀ j, j ≠ i → s₁.node j = s.node j := by
    intro j hj
    rw [← hs₁]
    exact Function.update_of_ne hj _ _
  have hstarts : ∀ j, (s₁.node j).starts = (s.node j).starts := by
    intro j
    by_cases hj : j = i
    · rw [hj, hself]
    · rw [hother j hj]
  refine ⟨c, hid, hq.trans hcur, ?_, ?_, ?_, ?_, hother, fun j => ?_⟩
  · exact State.effects_take (by rw [← hs₁]; exact h.effects_eq) (by rw [← hs₁]; exact hturn) _
  · rw [State.barrier_take, hloop, hcall]
    rfl
  · rw [State.barrierRun_take, hloop, hcall, hrun]
    rfl
  · show s₁.node i = ⟨_, _, _, _, _, _, (s₁.node i).starts, _, _⟩
    rw [hself, hnode]
  · have hrelease : releaseOf d.args d.env s₁.loop
        (doneSample i (donePayload (s.completed + 1) vtime)) =
        releasedBatch (s.loop.barrier.submitDone c).2 := by
      rw [releaseOf, hloop, hcall]
      rfl
    rw [State.tokens_of_turn hturn, ← hstarts]
    cases hbatch : releasedBatch (s.loop.barrier.submitDone c).2 with
    | none => exact State.tokens_take_of_no_release (hrelease.trans hbatch) j
    | some batch => exact State.tokens_take_of_release (hrelease.trans hbatch) j

namespace ReportTaken

variable {s s' : State d} {i : Fin d.args.nodes} {c : DoneCall}

/-- The answers stay as they should be if the new one is. -/
theorem ok_iff (t : ReportTaken s s' i c) (h : Inv s) (hnew : (s.loop.barrier.submitDone c).2.isOk = true ↔
      s.loop.barrier.currentQuantum.toNat + 1 < 2 ^ 64) :
    ∀ e ∈ s'.barrierRun, e.output.isOk = true ↔ e.input.quantum.toNat + 1 < 2 ^ 64 := by
  intro e he
  rw [t.run_eq] at he
  rcases mem_append.mp he with he | he
  · exact h.ok_iff e he
  · rw [mem_singleton.mp he, entryAt_input, t.quantum_eq]
    exact hnew

/-- Exhaustion stays as long as the quantum stays. -/
theorem exhausted (t : ReportTaken s s' i c) (hcompleted : s'.completed = s.completed)
    (hex : s.Exhausted) : s'.Exhausted := by
  obtain ⟨hlast, e, he, herr⟩ := hex
  refine ⟨by rw [hcompleted]; exact hlast, e, ?_, herr⟩
  rw [t.run_eq]
  exact mem_append_left _ he

/-! The report for the last quantum number is turned down. -/

theorem completed_of_error (t : ReportTaken s s' i c) {err : BarrierError}
    (hsubmit : s.loop.barrier.submitDone c = (s.loop.barrier, .error err)) :
    s'.completed = s.completed := by
  rw [State.completed, t.barrier_eq, hsubmit]
  rfl

theorem exhausted_of_error (t : ReportTaken s s' i c)
    (hmax : s.loop.barrier.currentQuantum.toNat + 1 = 2 ^ 64) {err : BarrierError}
    (hsubmit : s.loop.barrier.submitDone c = (s.loop.barrier, .error err)) : s'.Exhausted := by
  have hcur := completed_succ s
  refine ⟨by rw [t.completed_of_error hsubmit]; omega,
    entryAt QuantumBarrier.submitDone s.loop.barrier c, ?_, ?_⟩
  · rw [t.run_eq]
    exact mem_append_right _ (mem_singleton_self _)
  · rw [entryAt_output, hsubmit]
    rfl

theorem inv_of_error (t : ReportTaken s s' i c) (h : Inv s) (htok : s.tokens i = 0)
    (hmax : s.loop.barrier.currentQuantum.toNat + 1 = 2 ^ 64) {err : BarrierError}
    (hsubmit : s.loop.barrier.submitDone c = (s.loop.barrier, .error err)) : Inv s' := by
  have hbarrier : s'.loop.barrier = s.loop.barrier := by rw [t.barrier_eq, hsubmit]
  have htokens : ∀ j, s'.tokens j = s.tokens j := fun j => by
    rw [t.tokens_eq, hsubmit]
    rfl
  refine ⟨t.effects_eq, ?_, ?_, fun j => ?_, t.ok_iff h ?_⟩
  · rw [hbarrier]
    exact h.next_clear
  · rw [hbarrier]
    exact h.outstanding
  · rw [htokens, t.completed_of_error hsubmit, hbarrier]
    by_cases hj : j = i
    · rw [hj, t.node_eq]
      exact .reported _ htok (.inr (t.exhausted_of_error hmax hsubmit))
    · rw [t.other_eq j hj]
      exact (h.position j).mono (t.exhausted (t.completed_of_error hsubmit))
  · rw [hsubmit]
    simp [Except.isOk, Except.toBool, hmax]

/-! The report is entered and other nodes are outstanding. -/

theorem completed_of_entered (t : ReportTaken s s' i c)
    (hsubmit : s.loop.barrier.submitDone c = (s.loop.barrier.noteDone i c.messages, .ok none)) :
    s'.completed = s.completed := by
  rw [State.completed, t.barrier_eq, hsubmit]
  rfl

theorem inv_of_entered (t : ReportTaken s s' i c) (h : Inv s) (htok : s.tokens i = 0)
    (hmax : s.loop.barrier.currentQuantum.toNat + 1 < 2 ^ 64)
    (hcount : s.loop.barrier.doneCount + 1 ≠ d.args.nodes)
    (hsubmit : s.loop.barrier.submitDone c = (s.loop.barrier.noteDone i c.messages, .ok none)) :
    Inv s' := by
  have hbarrier : s'.loop.barrier = s.loop.barrier.noteDone i c.messages := by
    rw [t.barrier_eq, hsubmit]
  have htokens : ∀ j, s'.tokens j = s.tokens j := fun j => by
    rw [t.tokens_eq, hsubmit]
    rfl
  refine ⟨t.effects_eq, ?_, ?_, fun j => ?_, t.ok_iff h ?_⟩
  · rw [hbarrier]
    exact h.next_clear
  · rw [hbarrier]
    exact hcount
  · rw [htokens, t.completed_of_entered hsubmit, hbarrier]
    show Position s.completed _ ((s.loop.barrier.doneNodes.set i true)[j]) s'.Exhausted (s'.node j)
    by_cases hj : j = i
    · rw [hj, t.node_eq]
      exact .reported _ htok (.inl ((get_set_true i i).mpr (.inr rfl)))
    · have hsame : (s.loop.barrier.doneNodes.set i true)[j] = s.loop.barrier.doneNodes[j] := by
        have hne : i.val ≠ j.val := fun heq => hj (Fin.ext heq.symm)
        simp [Vector.getElem_set_ne, hne]
      rw [t.other_eq j hj, hsame]
      exact (h.position j).mono (t.exhausted (t.completed_of_entered hsubmit))
  · rw [hsubmit]
    exact ⟨fun _ => hmax, fun _ => rfl⟩

/-! The report completes the quantum: every node is sent its START. -/

theorem completed_of_release (t : ReportTaken s s' i c)
    (hmax : s.loop.barrier.currentQuantum.toNat + 1 < 2 ^ 64) {batch : List CoordMessage}
    (hsubmit : s.loop.barrier.submitDone c =
      ((s.loop.barrier.noteDone i c.messages).promote, .ok (some batch))) :
    s'.completed = s.completed + 1 := by
  have hcur := completed_succ s
  have hsucc : (s.loop.barrier.currentQuantum + 1).toNat =
      s.loop.barrier.currentQuantum.toNat + 1 := by
    rw [UInt64.toNat_add]
    exact Nat.mod_eq_of_lt hmax
  rw [State.completed, t.barrier_eq, hsubmit]
  show (s.loop.barrier.currentQuantum + 1).toNat - 1 = s.completed + 1
  omega

/-- When the last report is taken, every node waits for the end of the quantum. -/
theorem all_waiting (t : ReportTaken s s' i c) (h : Inv s) (htok : s.tokens i = 0)
    (hflag : s.loop.barrier.doneNodes[i] = false)
    (hcount : s.loop.barrier.doneCount + 1 = d.args.nodes) (j : Fin d.args.nodes) :
    s.tokens j = 0 ∧ s'.node j = ⟨s.completed + 1, s.completed, [], .waiting, s.completed + 1, [],
      (s'.node j).starts, [], List.range' 1 s.completed⟩ := by
  by_cases hj : j = i
  · rw [hj]
    exact ⟨htok, t.node_eq⟩
  · -- the last flag makes the count complete, so the others were set before
    have hcounted : s.loop.barrier.doneCount = s.loop.barrier.doneNodes.count true :=
      (loop_history s.taken).doneCount_eq
    have hall : (s.loop.barrier.doneNodes.set i true).count true = d.args.nodes := by
      rw [count_set_true hflag, ← hcounted]
      exact hcount
    have hset : s.loop.barrier.doneNodes[j] = true :=
      ((get_set_true i j).mp (getElem_of_count_eq hall j)).resolve_right hj
    have hpos := h.position j
    rw [hset] at hpos
    rw [t.other_eq j hj]
    exact hpos.of_flag

theorem inv_of_release (t : ReportTaken s s' i c) (h : Inv s) (htok : s.tokens i = 0)
    (hflag : s.loop.barrier.doneNodes[i] = false) (hmax : s.loop.barrier.currentQuantum.toNat + 1 < 2 ^ 64)
    (hcount : s.loop.barrier.doneCount + 1 = d.args.nodes) {batch : List CoordMessage}
    (hsubmit : s.loop.barrier.submitDone c =
      ((s.loop.barrier.noteDone i c.messages).promote, .ok (some batch))) : Inv s' := by
  have hbarrier : s'.loop.barrier = (s.loop.barrier.noteDone i c.messages).promote := by
    rw [t.barrier_eq, hsubmit]
  -- the promoted flags are the lookahead flags, and nobody has looked ahead
  have hclear : ∀ j : Fin d.args.nodes, s'.loop.barrier.doneNodes[j] = false := fun j => by
    rw [hbarrier]
    exact h.next_clear j
  refine ⟨t.effects_eq, fun j => ?_, ?_, fun j => ?_, t.ok_iff h ?_⟩
  · rw [hbarrier]
    simp
  · have hcounted : s'.loop.barrier.doneCount = s'.loop.barrier.doneNodes.count true :=
      (loop_history s'.taken).doneCount_eq
    rw [hcounted]
    exact (count_lt_of_clear (hclear i)).ne
  · obtain ⟨hnone, hshape⟩ := t.all_waiting h htok hflag hcount j
    have htoken : s'.tokens j = 1 := by
      rw [t.tokens_eq, hnone, hsubmit]
      rfl
    rw [t.completed_of_release hmax hsubmit, hclear, htoken, hshape]
    exact .blocked _ (Nat.succ_pos _) rfl rfl
  · rw [hsubmit]
    exact ⟨fun _ => hmax, fun _ => rfl⟩

end ReportTaken

/-- Taking a report keeps the invariant. -/
theorem Inv.takeDone {s : State d} (h : Inv s) (i : Fin d.args.nodes) {payload : List UInt8}
    {rest : List (List UInt8)} (hturn : s.pending = []) (hdone : (s.node i).dones = payload :: rest) :
    Inv ((s.setNode i { s.node i with dones := rest }).take (doneSample i payload)) := by
  obtain ⟨-, htok, hflag, -, -⟩ := (h.position i).of_dones hdone
  obtain ⟨c, t⟩ := reportTaken h i hturn hdone
  rcases QuantumBarrier.submitDone_first t.nodeId_eq t.quantum_eq hflag with
    ⟨hmax, err, hsubmit⟩ | ⟨hmax, hcount, hsubmit⟩ | ⟨hmax, hcount, batch, hsubmit⟩
  · exact t.inv_of_error h htok hmax hsubmit
  · exact t.inv_of_entered h htok hmax hcount hsubmit
  · exact t.inv_of_release h htok hflag hmax hcount hsubmit

/-! ## Every reachable state -/

/-- **Every step keeps the invariant.** -/
theorem Inv.step {s s' : State d} (h : Inv s) (hstep : Step s s') : Inv s' := by
  cases hstep with
  | issue i hready hfit => exact h.setNode i ((h.position i).issue hready)
  | accept i q rest hphase hreq => exact h.setNode i ((h.position i).accept hphase hreq)
  | publish i vtime hphase => exact h.setNode i ((h.position i).publish hphase vtime)
  | resume i token rest hphase hstart => exact h.setNode i ((h.position i).resume hphase hstart)
  | reply i hphase => exact h.setNode i ((h.position i).reply hphase)
  | collect i q rest hreply => exact h.setNode i ((h.position i).collect hreply)
  | takeDone i payload rest hturn hdone => exact h.takeDone i hturn hdone
  | takeOther x hturn hx => exact h.takeOther hturn hx
  | perform e es hpending => exact h.perform hpending

/-- **The invariant holds in every reachable state.** -/
theorem Reachable.inv {s : State d} (h : Reachable s) : Inv s :=
  steps_invariant (fun _ _ hstep hinv => hinv.step hstep) h inv_initial

end Virtmcu.Lockstep
