import Virtmcu.Lockstep.Invariant
import Mathlib.Algebra.Order.BigOperators.Group.Finset
import Mathlib.Data.Prod.Lex

/-! # The coordinated system does not get stuck

From every reachable state the parties can complete the quantum being collected, by steps of the
clocks, the time authority and the coordinator alone. The argument is a rank: every node has at most
seven steps left until its report is entered (`Node.rank`), and one of them is always enabled once the
coordinator's turn is over. It stops at the last `u64` quantum only, which the barrier refuses to
collect. -/

namespace Virtmcu.Lockstep

open DeterministicCoordinator

variable {d : Deployment}

/-! ## Steps left for one node -/

/-- How many steps a node is away from having its report for `p + 1` taken. -/
def Node.rank (p : Nat) (v : Node) : Nat :=
  match v.phase with
  | .waiting => if v.quantum = p then 7 else v.dones.length
  | .resumed => 6
  | .idle => match v.replies, v.requests with
      | _ :: _, _ => 5
      | [], [] => 4
      | [], _ :: _ => 3
  | .executing => 2

theorem Node.rank_receive (p i : Nat) (e : Effect) (v : Node) : (v.receive i e).rank p = v.rank p := by
  cases e with
  | put topic payload =>
    by_cases htopic : topic = Templates.clockStart (toString i)
    · simp only [Node.receive, if_pos htopic]
      rfl
    · simp only [Node.receive, if_neg htopic]
  | pcap record | flush => rfl

/-- A node with no steps left has its report entered, unless the barrier has run out of numbers. -/
theorem Position.of_rank_eq_zero {p tokens : Nat} {flag : Bool} {exhausted : Prop} {v : Node}
    (h : Position p tokens flag exhausted v) (hrank : v.rank p = 0) : flag = true ∨ exhausted := by
  cases h with
  | blocked => simp [Node.rank] at hrank
  | reported _ _ hflag => exact hflag
  | reporting => simp [Node.rank] at hrank
  | resumed | replying | ready | requested | executing => cases hrank

/-! ## Steps left for the system -/

namespace State

/-- The steps left of all nodes; then, within a turn of the coordinator, its pending effects. -/
def rank (p : Nat) (s : State d) : ℕ ×ₗ ℕ := toLex (∑ i, (s.node i).rank p, s.pending.length)

theorem rank_lt_of_pending {p : Nat} {s s' : State d} (hnode : ∀ i, (s'.node i).rank p = (s.node i).rank p)
    (hpending : s'.pending.length < s.pending.length) : s'.rank p < s.rank p := by
  have hsum : ∑ i, (s'.node i).rank p = ∑ i, (s.node i).rank p :=
    Finset.sum_congr rfl fun i _ => hnode i
  exact Prod.Lex.toLex_lt_toLex.mpr (.inr ⟨hsum, hpending⟩)

theorem rank_lt_of_node {p : Nat} {s s' : State d} (i : Fin d.args.nodes)
    (hlt : (s'.node i).rank p < (s.node i).rank p) (hother : ∀ j, j ≠ i → s'.node j = s.node j) :
    s'.rank p < s.rank p := by
  refine Prod.Lex.toLex_lt_toLex.mpr (.inl (Finset.sum_lt_sum (fun j _ => ?_) ⟨i, Finset.mem_univ i, hlt⟩))
  by_cases hj : j = i
  · rw [hj]
    exact hlt.le
  · rw [hother j hj]

end State

/-! ## Some step is enabled -/

/-- Quantum `p + 1` is complete, or it has not got a successor and was refused. -/
def Ended (p : Nat) (s : State d) : Prop :=
  s.completed = p + 1 ∨ (s.completed = p ∧ s.Exhausted)

/-- One step closer to the end of quantum `p + 1`. -/
def Advanced (p : Nat) (s s' : State d) : Prop :=
  Ended p s' ∨ ((Inv s' ∧ s'.completed = p) ∧ s'.rank p < s.rank p)

variable {s : State d}

/-- A step of one node that takes it further. -/
theorem advanced_setNode (h : Inv s) {i : Fin d.args.nodes} {v : Node}
    (hstep : Step s (s.setNode i v)) (hrank : v.rank s.completed < (s.node i).rank s.completed) :
    ∃ s', Step s s' ∧ Advanced s.completed s s' := by
  refine ⟨_, hstep, .inr ⟨⟨h.step hstep, rfl⟩, State.rank_lt_of_node i ?_ fun j hj => ?_⟩⟩
  · have hself : (s.setNode i v).node i = v := Function.update_self _ _ _
    rw [hself]
    exact hrank
  · exact Function.update_of_ne hj _ _

/-- Taking a report. -/
theorem advanced_takeDone (h : Inv s) {i : Fin d.args.nodes} {payload : List UInt8}
    {rest : List (List UInt8)} (hturn : s.pending = []) (hdone : (s.node i).dones = payload :: rest) :
    ∃ s', Step s s' ∧ Advanced s.completed s s' := by
  have hstep := Step.takeDone s i payload rest hturn hdone
  obtain ⟨-, -, hflag, hnode, -⟩ := (h.position i).of_dones hdone
  obtain ⟨c, t⟩ := reportTaken h i hturn hdone
  refine ⟨_, hstep, ?_⟩
  rcases QuantumBarrier.submitDone_first t.nodeId_eq t.quantum_eq hflag with
    ⟨hmax, err, hsubmit⟩ | ⟨hmax, hcount, hsubmit⟩ | ⟨hmax, hcount, batch, hsubmit⟩
  · exact .inl (.inr ⟨t.completed_of_error hsubmit, t.exhausted_of_error hmax hsubmit⟩)
  · refine .inr ⟨⟨h.step hstep, t.completed_of_entered hsubmit⟩, ?_⟩
    refine State.rank_lt_of_node i ?_ t.other_eq
    rw [t.node_eq, hnode]
    simp [Node.rank, hdone]
  · exact .inl (.inl (t.completed_of_release hmax hsubmit))

/-- Between turns of the coordinator, a node with steps left can take one of them. -/
theorem advanced_of_node (h : Inv s) (hturn : s.pending = []) (i : Fin d.args.nodes)
    (hrank : (s.node i).rank s.completed ≠ 0) : ∃ s', Step s s' ∧ Advanced s.completed s s' := by
  have hcur := completed_succ s
  have hlt := s.loop.barrier.currentQuantum.toNat_lt
  have hpos := h.position i
  rw [State.tokens_of_turn hturn] at hpos
  generalize hv : s.node i = v at hpos hrank
  cases hpos with
  | blocked starts hp htok hflag =>
    obtain ⟨token, rfl⟩ := List.length_eq_one_iff.mp htok
    refine advanced_setNode h (Step.resume s i token [] (by rw [hv]) (by rw [hv])) ?_
    simp [hv, Node.rank]
  | resumed starts hp htok hflag =>
    refine advanced_setNode h (Step.reply s i (by rw [hv])) ?_
    simp [hv, Node.rank]
  | replying starts hp htok hflag =>
    refine advanced_setNode h (Step.collect s i s.completed [] (by rw [hv])) ?_
    simp [hv, Node.rank]
  | ready starts htok hflag =>
    refine advanced_setNode h (Step.issue s i (by rw [hv]) (by rw [hv]; simp only; omega)) ?_
    simp [hv, Node.rank]
  | requested starts htok hflag =>
    refine advanced_setNode h (Step.accept s i (s.completed + 1) [] (by rw [hv]) (by rw [hv])) ?_
    simp [hv, Node.rank]
  | executing starts htok hflag =>
    refine advanced_setNode h (Step.publish s i 0 (by rw [hv])) ?_
    simp [hv, Node.rank]
  | reporting vtime starts htok hflag => exact advanced_takeDone h hturn (by rw [hv])
  | reported starts htok hflag =>
    simp [Node.rank] at hrank

/-- Not every flag is set, so if all nodes have reported, the barrier has run out of numbers. -/
theorem exhausted_of_rank_eq_zero (h : Inv s)
    (hrank : ∀ i, (s.node i).rank s.completed = 0) : s.Exhausted := by
  by_contra hex
  -- otherwise all flags are set, but a count of `n` would have released the quantum
  have hset : ∀ i : Fin d.args.nodes, s.loop.barrier.doneNodes[i] = true := fun i =>
    ((h.position i).of_rank_eq_zero (hrank i)).resolve_right hex
  have hcounted : s.loop.barrier.doneCount = s.loop.barrier.doneNodes.count true :=
    (loop_history s.taken).doneCount_eq
  exact h.outstanding (hcounted.trans (count_eq_of_forall hset))

/-- **Some step leads on**, from every state in which the invariant holds. -/
theorem exists_advanced (h : Inv s) : s.Exhausted ∨ ∃ s', Step s s' ∧ Advanced s.completed s s' := by
  cases hpending : s.pending with
  | cons e es =>
    have hstep := Step.perform s e es hpending
    refine .inr ⟨_, hstep, .inr ⟨⟨h.step hstep, rfl⟩, State.rank_lt_of_pending (fun i => ?_) ?_⟩⟩
    · exact Node.rank_receive _ _ _ _
    · rw [hpending]
      exact Nat.lt_succ_self _
  | nil =>
    by_cases hall : ∀ i, (s.node i).rank s.completed = 0
    · exact .inl (exhausted_of_rank_eq_zero h hall)
    · obtain ⟨i, hi⟩ := not_forall.mp hall
      exact .inr (advanced_of_node h hpending i hi)

/-! ## Quanta complete -/

/-- **No deadlock**: from every reachable state the system can bring the quantum being collected to its
end. -/
theorem Reachable.exists_ended (h : Reachable s) :
    ∃ s' : State d, Relation.ReflTransGen Step s s' ∧ Ended s.completed s' := by
  refine exists_goal_of_rank (P := fun t : State d => Inv t ∧ t.completed = s.completed)
    (State.rank s.completed) ?_ ⟨h.inv, rfl⟩
  rintro t ⟨hinv, hp⟩
  rcases exists_advanced hinv with hex | hstep
  · exact .inl (.inr ⟨hp, hex⟩)
  · rw [hp] at hstep
    exact .inr hstep

/-- Any number of quanta can be completed, as long as there is a number for the next one. -/
theorem exists_completed (d : Deployment) {p : Nat} (hp : p + 2 ≤ 2 ^ 64) :
    ∃ s : State d, Reachable s ∧ s.completed = p := by
  induction p with
  | zero => exact ⟨State.initial d, .refl, rfl⟩
  | succ p ih =>
    obtain ⟨s, hreach, hs⟩ := ih (by omega)
    obtain ⟨s', hpath, hended⟩ := hreach.exists_ended
    rw [hs] at hended
    rcases hended with hnext | ⟨hsame, hlast, -⟩
    · exact ⟨s', hreach.trans hpath, hnext⟩
    · omega

/-- And the numbers do run out. -/
theorem exists_exhausted (d : Deployment) : ∃ s : State d, Reachable s ∧ s.Exhausted := by
  obtain ⟨s, hreach, hs⟩ := exists_completed d (p := 2 ^ 64 - 2) (by decide)
  obtain ⟨s', hpath, hended⟩ := hreach.exists_ended
  rw [hs] at hended
  rcases hended with hnext | ⟨-, hex⟩
  · -- the next quantum would be number `2 ^ 64`
    have hcur := completed_succ s'
    have hlt := s'.loop.barrier.currentQuantum.toNat_lt
    omega
  · exact ⟨s', hreach.trans hpath, hex⟩

end Virtmcu.Lockstep
