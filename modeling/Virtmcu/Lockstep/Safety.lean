import Virtmcu.Lockstep.Progress
import Virtmcu.DeterministicCoordinator.FrameBuffers

/-! # Lockstep

What the invariant means for the time authority: a reply says that the quantum is over everywhere, its
messages delivered, and that nobody is more than one quantum away. Between the START a clock waits for
and the effects the coordinator has performed stands only the count of START messages
(`startsPut_eq`). -/

namespace Virtmcu.Lockstep

open DeterministicCoordinator List

variable {d : Deployment}

/-! ## The turn that ends a quantum -/

/-- Sample `x`, taken after `before`, ended quantum `q`: the turn released `batch`, and `deliveries`
are the effects it owes to it, both puts of each message to each of its targets among the nodes seen by then,
before the log is flushed and the START messages are put. -/
structure EndingTurn (s : State d) (q : Nat) (before : List Sample) (x : Sample)
    (batch : List CoordMessage) (deliveries : List Effect) : Prop where
  taken_eq : ∃ after, s.taken = before ++ x :: after
  quantum_eq : (loopAfter d.args d.env d.topo before).currentQuantum.toNat = q
  release_eq : releaseOf d.args d.env (loopAfter d.args d.env d.topo before) x = some batch
  deliveries_eq : deliveries = deliverBatch d.env.rf802154Builder d.args.pcapLog
    (loopAfter d.args d.env d.topo before).topo
    (d.env.seenOrder.visit (loopAfter d.args d.env d.topo (before ++ [x])).seenNodes.toList) (sort batch)
  puts_perm : (deliveries.filter Effect.isPut).Perm (batchPuts d.env.rf802154Builder
    (loopAfter d.args d.env d.topo before).topo
    (d.env.seenOrder.visit (loopAfter d.args d.env d.topo (before ++ [x])).seenNodes.toList) batch)
  effects_eq : (loopStep d.args d.env (loopAfter d.args d.env d.topo before) x).2 =
    deliveries ++ (if d.args.pcapLog then [.flush] else []) ++
      startEffects d.args.nodes (q + 1).toUInt64

/-- The whole batch of quantum `q` has been put. -/
def BatchPut (s : State d) (q : Nat) : Prop :=
  ∃ before x batch deliveries, EndingTurn s q before x batch deliveries ∧
    loopEffects d.args d.env d.topo before ++ deliveries <+: s.performed

theorem completed_succ_eq (s : State d) : s.completed + 1 = s.loop.currentQuantum.toNat := by
  have hagree : s.loop.currentQuantum = s.loop.barrier.currentQuantum :=
    loopAfter_currentQuantum s.taken
  rw [hagree]
  exact completed_succ s

variable {s : State d}

/-- A complete quantum has an ending turn. -/
theorem exists_endingTurn {q : Nat} (hpos : 1 ≤ q) (hle : q ≤ s.completed) :
    ∃ before x batch deliveries, EndingTurn s q before x batch deliveries := by
  have hcur := completed_succ_eq s
  have hlt : q < (loopAfter d.args d.env d.topo s.taken).currentQuantum.toNat := by
    show q < s.loop.currentQuantum.toNat
    omega
  obtain ⟨before, x, after, batch, htaken, hrelease, hq⟩ := exists_release hpos hlt
  obtain ⟨-, heffects⟩ := loopStep_of_release hrelease
  refine ⟨before, x, batch, _, ⟨after, htaken⟩, hq, hrelease, rfl, deliverBatch_sort_perm .., ?_⟩
  have hnext : (q + 1).toUInt64 = (loopAfter d.args d.env d.topo before).currentQuantum + 1 := by
    rw [← hq]
    show UInt64.ofNat (_ + 1) = _
    rw [UInt64.ofNat_add, UInt64.ofNat_toNat]
    rfl
  rw [heffects, hnext, loopAfter_concat]

/-! ## Counting START messages -/

/-- Of the `completed` START messages owed to a node, all are put but the pending ones. -/
theorem startsPut_eq (h : Inv s) (i : Fin d.args.nodes) :
    (startValues i s.performed).length + (startValues i s.pending).length = s.completed := by
  have hcur := completed_succ_eq s
  have hvalues : startValues i (s.performed ++ s.pending) =
      List.range' 2 (s.loop.currentQuantum.toNat - 1) := by
    rw [h.effects_eq]
    exact startValues_loopEffects s.taken i.isLt
  rw [← length_append, ← startValues_append, hvalues, length_range']
  omega

/-- Up to the deliveries of quantum `q`, only the STARTs for the quanta up to `q` are put. -/
theorem EndingTurn.startValues_eq {q : Nat} {before : List Sample} {x : Sample}
    {batch : List CoordMessage} {deliveries : List Effect}
    (t : EndingTurn s q before x batch deliveries) (i : Fin d.args.nodes) :
    startValues i (loopEffects d.args d.env d.topo before ++ deliveries) = List.range' 2 (q - 1) := by
  rw [t.deliveries_eq, startValues_append, startValues_deliverBatch, List.append_nil,
    startValues_loopEffects before i.isLt, t.quantum_eq]

/-- The effects of the ending turn are among the effects of the run. -/
theorem EndingTurn.deliveries_le {q : Nat} {before : List Sample} {x : Sample}
    {batch : List CoordMessage} {deliveries : List Effect} (t : EndingTurn s q before x batch deliveries) :
    loopEffects d.args d.env d.topo before ++ deliveries <+: loopEffects d.args d.env d.topo s.taken := by
  obtain ⟨after, htaken⟩ := t.taken_eq
  have hturn : loopEffects d.args d.env d.topo before ++ deliveries <+:
      loopEffects d.args d.env d.topo (before ++ [x]) := by
    rw [loopEffects_concat, t.effects_eq, append_assoc, ← append_assoc]
    exact prefix_append _ _
  rw [htaken, ← singleton_append, ← append_assoc]
  exact hturn.trans (loopEffects_grow _ _)

/-- A clock that has replied to `q` has used up `q` START messages, so the coordinator has put that
many, and it puts the last of them after the deliveries of `q`. -/
theorem batchPut_of_replied (h : Inv s) {i : Fin d.args.nodes} {q : Nat}
    (hq : q ∈ (s.node i).replied) : BatchPut s q := by
  obtain ⟨hpos, hle⟩ := (h.position i).replied_le hq
  obtain ⟨before, x, batch, deliveries, t⟩ := exists_endingTurn hpos (by omega : q ≤ s.completed)
  refine ⟨before, x, batch, deliveries, t, ?_⟩
  have hperformed : s.performed <+: loopEffects d.args d.env d.topo s.taken :=
    ⟨s.pending, h.effects_eq⟩
  rcases prefix_or_prefix_of_prefix t.deliveries_le hperformed with hdone | hshort
  · exact hdone
  · -- otherwise fewer than `q` START messages have been put to the node
    exfalso
    have hcount := startsPut_eq h i
    have hfew := (hshort.filterMap (startValue i)).length_le
    rw [← startValues, ← startValues, t.startValues_eq, length_range'] at hfew
    unfold State.tokens at hle
    omega

/-! ## Lockstep -/

/-- **Coordinated lockstep.** In every state the system can get into, whatever the interleaving:
a clock that has released its reply to `q` has done so after the barrier had accepted the report of
every node for `q` and after the whole batch of `q` was put;
the quanta of two nodes differ by at most one;
and the barrier turns down no report except those for the last `u64` quantum. -/
theorem lockstep {s : State d} (h : Reachable s) : (∀ i, ∀ q ∈ (s.node i).replied,
      (∀ j < d.args.nodes, Reported (accepted s.barrierRun) j q) ∧ BatchPut s q) ∧
    (∀ i j, (s.node i).quantum ≤ (s.node j).quantum + 1) ∧
    ∀ e ∈ s.barrierRun, e.output.isOk = true ↔ e.input.quantum.toNat + 1 < 2 ^ 64 := by
  have hinv := h.inv
  refine ⟨fun i q hq => ⟨fun j hj => ?_, batchPut_of_replied hinv hq⟩, fun i j => ?_, hinv.ok_iff⟩
  · obtain ⟨hpos, hle⟩ := (hinv.position i).replied_le hq
    have hcur := completed_succ s
    have hlt : q < (loopAfter d.args d.env d.topo s.taken).barrier.currentQuantum.toNat := by
      show q < s.loop.barrier.currentQuantum.toNat
      omega
    exact (loop_history s.taken).complete q hpos hlt ⟨j, hj⟩
  · have hi := (hinv.position i).quantum_eq
    have hj := (hinv.position j).quantum_eq
    omega

/-- One clock, nothing configured. -/
def soloDeployment : Deployment :=
  ⟨soloArgs, plainExternals, TopologyGraph.default, by decide, by decide⟩

/-- A run of one clock with two quanta complete, so that the reply to the first is out. -/
theorem lockstep_solo : ∃ s : State soloDeployment, Reachable s ∧ (∃ i, 1 ∈ (s.node i).replied) ∧
    (∀ j < soloDeployment.args.nodes, Reported (accepted s.barrierRun) j 1) ∧ BatchPut s 1 := by
  obtain ⟨s, hreach, hs⟩ := exists_completed soloDeployment (p := 2) (by decide)
  have hreplied : 1 ∈ (s.node ⟨0, by decide⟩).replied :=
    (hreach.inv.position _).mem_replied le_rfl (by omega)
  exact ⟨s, hreach, ⟨_, hreplied⟩, (lockstep hreach).1 _ 1 hreplied⟩

/-- The barrier does turn a report down: that of quantum `u64::MAX`, whose successor wraps to 0. The
clock then waits for a START that never comes. -/
theorem rejected_lastQuantum : ∃ s : State soloDeployment, Reachable s ∧
    ∃ e ∈ s.barrierRun, e.input.quantum.toNat = 2 ^ 64 - 1 ∧ e.output.isOk = false := by
  obtain ⟨s, hreach, -, e, he, herr⟩ := exists_exhausted soloDeployment
  refine ⟨s, hreach, e, he, ?_, herr⟩
  have hok := hreach.inv.ok_iff e he
  have hlt := e.input.quantum.toNat_lt
  rw [herr] at hok
  have hmax : ¬ e.input.quantum.toNat + 1 < 2 ^ 64 := fun h => Bool.false_ne_true (hok.mpr h)
  omega

end Virtmcu.Lockstep
