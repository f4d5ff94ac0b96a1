import Virtmcu.DeterministicCoordinator.BarrierProgress

/-! # Determinism of the quantum barrier

When every node reports its quanta in increasing order and no report is turned down, the released
batches are a function of what the nodes sent: not of the interleaving of their reports, and not of
the order of the messages inside a report (`released_eq_of_inOrderRun`). -/

namespace Virtmcu.DeterministicCoordinator

open List

variable {n cap : Nat} {q₀ : UInt64} {M : Nat → Nat → List CoordMessage} {cs : List DoneCall}

/-- Every node reports `q₀, q₀ + 1, …` in this order, each quantum once. -/
def InOrder (q₀ : Nat) (cs : List DoneCall) : Prop :=
  ∀ i, ∃ k, ((cs.filter fun c => c.nodeId.toNat = i).map fun c => c.quantum.toNat) =
    List.range' q₀ k

/-- A run over nodes `0, …, n - 1` that report in order and are never turned down. The report of node
`i` for quantum `q` carries the messages `M i q` in some order. -/
structure InOrderRun (n cap : Nat) (q₀ : UInt64) (M : Nat → Nat → List CoordMessage)
    (cs : List DoneCall) : Prop where
  nodes : ∀ c ∈ cs, c.nodeId.toNat < n
  order : InOrder q₀.toNat cs
  messages : ∀ c ∈ cs, c.messages.Perm (M c.nodeId.toNat c.quantum.toNat)
  noError : ∀ e ∈ barrierRun n cap q₀ cs, e.output.isOk = true

/-- All nodes have reported quantum `q`. -/
def Completed (n : Nat) (cs : List DoneCall) (q : Nat) : Prop := ∀ i < n, Reported cs i q

/-- The batch of quantum `q`: the `cap` least messages of every node, sorted. -/
def canonicalBatch (n cap : Nat) (M : Nat → Nat → List CoordMessage) (q : Nat) : List CoordMessage :=
  sort ((List.range n).flatMap fun i => sortTruncate cap (M i q))

/-! ## Reports in order -/

/-- Before its report for quantum `q`, a node has reported exactly the quanta from `q₀` to `q`. -/
theorem InOrder.reported_before_iff {q₀ : Nat} {pre post : List DoneCall} {c : DoneCall}
    (h : InOrder q₀ (pre ++ c :: post)) (q : Nat) :
    Reported pre c.nodeId.toNat q ↔ q₀ ≤ q ∧ q < c.quantum.toNat := by
  obtain ⟨k, hk⟩ := h c.nodeId.toNat
  rw [filter_append, filter_cons_of_pos (by simp), map_append, map_cons,
    eq_comm, List.range'_eq_append_iff] at hk
  obtain ⟨len, hlen, hpre, hpost⟩ := hk
  rw [eq_comm, List.range'_eq_cons_iff] at hpost
  obtain ⟨hq, -, -⟩ := hpost
  have hmem : Reported pre c.nodeId.toNat q ↔
      q ∈ (pre.filter fun d => d.nodeId.toNat = c.nodeId.toNat).map fun d => d.quantum.toNat := by
    simp [Reported, and_assoc]
  rw [hmem, hpre, mem_range'_1]
  omega

/-- The reports of a node leave no gaps. -/
theorem InOrder.reported_of_le {q₀ i q q' : Nat} {cs : List DoneCall} (h : InOrder q₀ cs)
    (hq : Reported cs i q) (hstart : q₀ ≤ q') (hle : q' ≤ q) : Reported cs i q' := by
  obtain ⟨k, hk⟩ := h i
  have hmem : ∀ p, Reported cs i p ↔ q₀ ≤ p ∧ p < q₀ + k := by
    intro p
    rw [← mem_range'_1, ← hk]
    simp [Reported, and_assoc]
  rw [hmem] at hq ⊢
  omega

/-- What has been accepted has been submitted. -/
theorem reported_of_accepted {i q : Nat} {es : List (BarrierEntry n)}
    (h : Reported (accepted es) i q) : Reported (es.map Entry.input) i q := by
  obtain ⟨c, hc, hi, hq⟩ := h
  obtain ⟨e, he, rfl⟩ := mem_map.mp hc
  exact ⟨e.input, mem_map_of_mem (mem_filter.mp he).1, hi, hq⟩

/-! ## Consequences for a run -/

namespace InOrderRun

/-- No report of the run is stale: its quantum is only left behind once its node has reported it. -/
theorem isAccepted (h : InOrderRun n cap q₀ M cs) : ∀ e ∈ barrierRun n cap q₀ cs, IsAccepted e = true := by
  intro e he
  have hok := h.noError e he
  obtain ⟨pre, c, post, rfl, rfl⟩ := (mem_entries _).mp he
  have hist := history_entries n cap q₀ pre
  have hcur : (barrierAfter n cap q₀ pre).currentQuantum.toNat ≤ c.quantum.toNat := by
    -- a stale report would be for a complete quantum, which its node has reported before
    by_contra hlt
    have hstart : q₀.toNat ≤ c.quantum.toNat := by
      obtain ⟨k, hk⟩ := h.order c.nodeId.toNat
      have hmem : c.quantum.toNat ∈ List.range' q₀.toNat k := by
        rw [← hk]
        exact mem_map_of_mem (mem_filter.mpr ⟨by simp, by simp⟩)
      exact (mem_range'_1.mp hmem).1
    have hrep := reported_of_accepted
      (hist.complete _ hstart (not_le.mp hlt) ⟨_, h.nodes c (by simp)⟩)
    rw [entries_map_input, h.order.reported_before_iff] at hrep
    exact lt_irrefl _ hrep.2
  exact Bool.and_eq_true_iff.mpr ⟨decide_eq_true hcur, hok⟩

/-- So the accepted reports are all the reports. -/
theorem accepted_eq (h : InOrderRun n cap q₀ M cs) : accepted (barrierRun n cap q₀ cs) = cs := by
  rw [accepted, filter_eq_self.mpr h.isAccepted]
  exact entries_map_input _ _ _

/-- Every initial part of the run is such a run. -/
theorem of_append {pre post : List DoneCall} (h : InOrderRun n cap q₀ M (pre ++ post)) :
    InOrderRun n cap q₀ M pre := by
  refine ⟨fun c hc => h.nodes c (mem_append_left _ hc), fun i => ?_,
    fun c hc => h.messages c (mem_append_left _ hc), fun e he => h.noError e ?_⟩
  · obtain ⟨k, hk⟩ := h.order i
    rw [filter_append, map_append, eq_comm, List.range'_eq_append_iff] at hk
    obtain ⟨len, -, hpre, -⟩ := hk
    exact ⟨len, hpre⟩
  · rw [barrierRun, entries_append]
    exact mem_append_left _ he

/-- The node that completes a quantum has not reported the next one, so the lookahead set is never
full at a promotion. -/
theorem not_completesOverFullLookahead (h : InOrderRun n cap q₀ M cs) :
    ∀ e ∈ barrierRun n cap q₀ cs, ¬ CompletesOverFullLookahead e.before e.input := by
  intro e he
  obtain ⟨pre, c, post, rfl, rfl⟩ := (mem_entries _).mp he
  rw [entryAt_before, entryAt_input]
  rintro ⟨⟨i, hi, -⟩, hq, -, -, hfull⟩
  have hrep := ((history_entries n cap q₀ pre).next_iff i).mp (hfull i)
  rw [h.of_append.accepted_eq, ← hi, h.order.reported_before_iff] at hrep
  have hlt := hrep.2
  unfold barrierAfter at hlt
  omega

/-- The completed quanta are exactly the released ones. -/
theorem completed_iff (h : InOrderRun n cap q₀ M cs) (hn : 0 < n) {q : Nat} (hq : q₀.toNat ≤ q) :
    Completed n cs q ↔ q < (barrierAfter n cap q₀ cs).currentQuantum.toNat := by
  have hist := history_entries n cap q₀ cs
  constructor
  · intro hall
    by_contra hle
    -- then every node has also reported the current quantum, and the count rests at `n`
    have hcount := (forall_doneCount_ne_iff hn cap q₀ cs).mpr h.not_completesOverFullLookahead cs
      (prefix_refl _)
    refine hcount (hist.doneCount_eq_iff.mpr fun i hi => ?_)
    rw [h.accepted_eq]
    exact h.order.reported_of_le (hall i hi) hist.start_le (not_lt.mp hle)
  · intro hlt i hi
    have := hist.complete q hq hlt ⟨i, hi⟩
    rwa [h.accepted_eq] at this

/-- The reports for a complete quantum are one from each node. -/
theorem map_nodeId_perm (h : InOrderRun n cap q₀ M cs) {q : Nat} (hq : Completed n cs q) :
    ((cs.filter fun c => c.quantum.toNat = q).map fun c => c.nodeId.toNat).Perm (List.range n) := by
  have hnodup := (history_entries n cap q₀ cs).accepted_nodup
  rw [h.accepted_eq] at hnodup
  rw [perm_ext_iff_of_nodup _ nodup_range]
  · intro i
    rw [mem_range]
    constructor
    · intro hi
      obtain ⟨c, hc, rfl⟩ := mem_map.mp hi
      exact h.nodes c (mem_filter.mp hc).1
    · intro hi
      obtain ⟨c, hc, hci, hcq⟩ := hq i hi
      exact mem_map.mpr ⟨c, mem_filter.mpr ⟨hc, by simpa using hcq⟩, hci⟩
  · -- within one quantum the pairs (node, quantum) are told apart by the node
    have hmap : ((cs.filter fun c => c.quantum.toNat = q).map fun c => c.nodeId.toNat).map
        (fun i => (i, q)) =
        (cs.filter fun c => c.quantum.toNat = q).map fun c => (c.nodeId.toNat, c.quantum.toNat) := by
      rw [map_map]
      refine map_congr_left fun c hc => ?_
      have hcq : c.quantum.toNat = q := by simpa using (mem_filter.mp hc).2
      rw [Function.comp_apply, hcq]
    refine List.Nodup.of_map (fun i => (i, q)) ?_
    rw [hmap]
    exact hnodup.sublist (List.Sublist.map _ filter_sublist)

/-- The collected messages of a complete quantum sort to the canonical batch. -/
theorem sort_collected (h : InOrderRun n cap q₀ M cs) {q : Nat} (hq : Completed n cs q) :
    sort (collected cap cs q) = canonicalBatch n cap M q := by
  have hkept : collected cap cs q =
      ((cs.filter fun c => c.quantum.toNat = q).map fun c => c.nodeId.toNat).flatMap
        fun i => sortTruncate cap (M i q) := by
    rw [collected, flatMap_map]
    refine flatMap_congr fun c hc => ?_
    obtain ⟨hmem, hcq⟩ := mem_filter.mp hc
    have hcq' : c.quantum.toNat = q := by simpa using hcq
    rw [sortTruncate_eq_of_perm cap (h.messages c hmem), hcq']
  rw [hkept, canonicalBatch]
  exact sort_eq_of_perm ((h.map_nodeId_perm hq).flatMap_right _)

/-- The released batches of a run, in terms of the quantum it has reached. -/
theorem released_eq (h : InOrderRun n cap q₀ M cs) (hn : 0 < n) : released (barrierRun n cap q₀ cs) =
      (List.range' q₀.toNat ((barrierAfter n cap q₀ cs).currentQuantum.toNat - q₀.toNat)).map
        fun q => (q, canonicalBatch n cap M q) := by
  have hist := history_entries n cap q₀ cs
  rw [hist.released_eq, h.accepted_eq]
  refine map_congr_left fun q hq => ?_
  rw [mem_range'_1] at hq
  have hstart := hist.start_le
  rw [h.sort_collected ((h.completed_iff hn hq.1).mpr (by omega))]

end InOrderRun

/-- **Determinism of the barrier.** In a run of nodes that report in order and are never turned down,
the answers that carry a batch are one for each completed quantum, in increasing order, and the batch
for `q` is the canonical one. Two such runs that complete the same quanta release the same sequence,
however their reports interleave and whatever the order of messages inside them. -/
theorem released_eq_of_inOrderRun (hn : 0 < n) (h : InOrderRun n cap q₀ M cs) :
    (∃ k, released (barrierRun n cap q₀ cs) =
        (List.range' q₀.toNat k).map (fun q => (q, canonicalBatch n cap M q)) ∧
      ∀ q, q₀.toNat ≤ q → (Completed n cs q ↔ q < q₀.toNat + k)) ∧
    ∀ cs', InOrderRun n cap q₀ M cs' → (∀ q, Completed n cs q ↔ Completed n cs' q) →
      released (barrierRun n cap q₀ cs') = released (barrierRun n cap q₀ cs) := by
  have hstart := (history_entries n cap q₀ cs).start_le
  refine ⟨⟨_, h.released_eq hn, fun q hq => ?_⟩, fun cs' h' hsame => ?_⟩
  · rw [h.completed_iff hn hq]
    omega
  · -- both runs have reached the same quantum: neither may be ahead of the other
    have hstart' := (history_entries n cap q₀ cs').start_le
    have hcur : (barrierAfter n cap q₀ cs').currentQuantum.toNat =
        (barrierAfter n cap q₀ cs).currentQuantum.toNat := by
      apply le_antisymm
      · by_contra hlt
        have hdone := (hsame _).mpr ((h'.completed_iff hn hstart).mpr (not_le.mp hlt))
        exact lt_irrefl _ ((h.completed_iff hn hstart).mp hdone)
      · by_contra hlt
        have hdone := (hsame _).mp ((h.completed_iff hn hstart').mpr (not_le.mp hlt))
        exact lt_irrefl _ ((h'.completed_iff hn hstart').mp hdone)
    rw [h'.released_eq hn, h.released_eq hn, hcur]

/-- The traffic of two nodes over two quanta: in quantum `q`, node `i` sends two frames stamped `q`
with sequence numbers 1 and 2. -/
def sampleTraffic (i q : Nat) : List CoordMessage :=
  [1, 2].map fun seq => ⟨i.toUInt32, 7, q.toUInt64, seq, .uart, [], none⟩

/-- Node 1 runs one quantum ahead of node 0 and sends its frames in reverse. -/
def sampleCalls : List DoneCall :=
  [⟨1, 0, 0, (sampleTraffic 1 0).reverse⟩, ⟨1, 1, 0, sampleTraffic 1 1⟩, ⟨0, 0, 0, sampleTraffic 0 0⟩]

theorem sampleCalls_inOrderRun : InOrderRun 2 1 0 sampleTraffic sampleCalls where
  nodes := by decide
  order
    | 0 => ⟨1, by decide⟩
    | 1 => ⟨2, by decide⟩
    | i + 2 => ⟨0, by simp [sampleCalls]⟩
  messages := by decide
  noError := by decide

/-- Determinism at work: quantum 0 is released with the canonical batch, quantum 1 is still open. -/
theorem released_sampleCalls : ∃ k, released (barrierRun 2 1 0 sampleCalls) =
        (List.range' 0 k).map (fun q => (q, canonicalBatch 2 1 sampleTraffic q)) ∧
      ∀ q, 0 ≤ q → (Completed 2 sampleCalls q ↔ q < 0 + k) :=
  (released_eq_of_inOrderRun (by decide) sampleCalls_inOrderRun).1

end Virtmcu.DeterministicCoordinator
