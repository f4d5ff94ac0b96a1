import Virtmcu.DeterministicCoordinator.BarrierHistory
import Virtmcu.DeterministicCoordinator.Delivery

/-! # The order one receiver sees

The documentation promises deliveries in the order of delivery time, source and sequence number. The
comparator puts the destination before the sequence number, and a broadcast carries the largest
destination there is: a unicast always overtakes a broadcast of the same source and time, whatever
their sequence numbers. For a single receiver this is the only deviation (`sentTo_sorted_iff`). -/

namespace Virtmcu.DeterministicCoordinator

open List

/-- The documented canonical order: delivery time, then source, then sequence number. -/
def CanonicalLe (m m' : CoordMessage) : Prop :=
  m.deliveryVtimeNs < m'.deliveryVtimeNs ∨ m.deliveryVtimeNs = m'.deliveryVtimeNs ∧
    (m.srcNodeId < m'.srcNodeId ∨ m.srcNodeId = m'.srcNodeId ∧
      m.sequenceNumber ≤ m'.sequenceNumber)

instance (m m' : CoordMessage) : Decidable (CanonicalLe m m') :=
  inferInstanceAs (Decidable (_ ∨ _ ∧ (_ ∨ _ ∧ _)))

/-- A unicast to another node and a broadcast of the same source for the same time, the broadcast sent
first. -/
def Overtakes (m m' : CoordMessage) : Prop :=
  m.deliveryVtimeNs = m'.deliveryVtimeNs ∧ m.srcNodeId = m'.srcNodeId ∧
    m.dstNodeId ≠ broadcast ∧ m.dstNodeId ≠ m.srcNodeId ∧ m'.dstNodeId = broadcast ∧
    m'.sequenceNumber < m.sequenceNumber

instance (m m' : CoordMessage) : Decidable (Overtakes m m') :=
  inferInstanceAs (Decidable (_ ∧ _ ∧ _ ∧ _ ∧ _ ∧ _))

variable {g : TopologyGraph} {seenNodes : List UInt32} {r : UInt32} {m m' : CoordMessage}

theorem CanonicalLe.refl (m : CoordMessage) : CanonicalLe m m :=
  .inr ⟨rfl, .inr ⟨rfl, UInt64.le_refl _⟩⟩

/-! ## Targets -/

/-- A unicast reaches nobody but its destination. -/
theorem eq_dst_of_mem_targetNodes (hm : m.dstNodeId ≠ broadcast)
    (hr : r ∈ targetNodes g seenNodes m) : r = m.dstNodeId := by
  unfold targetNodes at hr
  rw [if_neg hm] at hr
  split at hr
  · exact mem_singleton.mp hr
  · exact absurd hr not_mem_nil

/-- A broadcast does not come back to its source. -/
theorem ne_src_of_mem_targetNodes (hm : m.dstNodeId = broadcast)
    (hr : r ∈ targetNodes g seenNodes m) : r ≠ m.srcNodeId := by
  unfold targetNodes at hr
  rw [if_pos hm] at hr
  split at hr
  · have hmem := (mem_filter.mp hr).2
    rw [decide_eq_true_eq] at hmem
    exact hmem.1
  · split at hr
    · exact (mem_rfNeighbors.mp hr).2.1
    · exact (mem_wireTargets.mp hr).1

/-- Without a topology a unicast arrives. -/
theorem targetNodes_default_unicast (hm : m.dstNodeId ≠ broadcast) (seenNodes : List UInt32) :
    targetNodes TopologyGraph.default seenNodes m = [m.dstNodeId] := by
  simp [targetNodes, hm, TopologyGraph.isLinkAllowed, TopologyGraph.isDropped, TopologyGraph.default]

/-- Without a topology a broadcast reaches every other node seen. -/
theorem targetNodes_default_broadcast (hm : m.dstNodeId = broadcast) (seenNodes : List UInt32) :
    targetNodes TopologyGraph.default seenNodes m = seenNodes.filter (· ≠ m.srcNodeId) := by
  simp [targetNodes, hm, TopologyGraph.isLinkAllowed, TopologyGraph.isDropped, TopologyGraph.default]

/-! ## The comparator and the documented order -/

/-- No node id lies above the broadcast address. -/
theorem le_broadcast (id : UInt32) : id ≤ broadcast := by
  rw [UInt32.le_iff_toNat_le]
  have := id.toNat_lt
  show id.toNat ≤ 4294967295
  omega

/-- Comparator order spelled out down to the sequence number. -/
theorem cmpLe_lexicographic (h : CmpLe CoordMessage.cmp m m') :
    m.deliveryVtimeNs < m'.deliveryVtimeNs ∨ m.deliveryVtimeNs = m'.deliveryVtimeNs ∧
      (m.srcNodeId < m'.srcNodeId ∨ m.srcNodeId = m'.srcNodeId ∧
        (m.dstNodeId < m'.dstNodeId ∨ m.dstNodeId = m'.dstNodeId ∧
          m.sequenceNumber ≤ m'.sequenceNumber)) := by
  unfold CmpLe CoordMessage.cmp at h
  simp only [Ordering.isLE_then_iff_or, Std.compare_eq_lt, Std.compare_eq_iff_eq] at h
  rcases h with h | ⟨hv, h | ⟨hs, h | ⟨hd, h | ⟨hq, -⟩⟩⟩⟩
  · exact .inl h
  · exact .inr ⟨hv, .inl h⟩
  · exact .inr ⟨hv, .inr ⟨hs, .inl h⟩⟩
  · exact .inr ⟨hv, .inr ⟨hs, .inr ⟨hd, UInt64.le_of_lt h⟩⟩⟩
  · exact .inr ⟨hv, .inr ⟨hs, .inr ⟨hd, hq ▸ UInt64.le_refl _⟩⟩⟩

/-- The comparator puts the overtaking unicast strictly before the broadcast. -/
theorem Overtakes.not_cmpLe (h : Overtakes m m') : ¬ CmpLe CoordMessage.cmp m' m := by
  obtain ⟨hv, hs, huni, -, hbc, -⟩ := h
  intro hle
  -- a broadcast has the largest destination there is
  have hdst : ¬ m'.dstNodeId < m.dstNodeId := by
    rw [hbc]
    exact UInt32.not_lt.mpr (le_broadcast _)
  rcases cmpLe_lexicographic hle with hlt | ⟨-, hlt | ⟨-, hlt | ⟨heq, -⟩⟩⟩
  · exact UInt64.lt_irrefl _ (hv ▸ hlt)
  · exact UInt32.lt_irrefl _ (hs ▸ hlt)
  · exact hdst hlt
  · exact huni (heq ▸ hbc)

/-! ## What one receiver sees -/

/-- Fewer messages, fewer deliveries, in the same order. -/
theorem sentTo_sublist {l l' : List CoordMessage} (h : l.Sublist l') :
    (sentTo g seenNodes r l).Sublist (sentTo g seenNodes r l') := by
  unfold sentTo deliveries
  exact ((h.flatMap _).filter _).map _

variable {l : List CoordMessage}

/-- Two messages that both reach a receiver are sent to it in the order of the batch. -/
theorem pair_sublist_sentTo (hr : r ∈ targetNodes g seenNodes m)
    (hr' : r ∈ targetNodes g seenNodes m') (h : List.Sublist [m, m'] l) :
    List.Sublist [m, m'] (sentTo g seenNodes r l) := by
  have hfirst : m ∈ sentTo g seenNodes r [m] := mem_sentTo.mpr ⟨mem_singleton_self m, hr⟩
  have hsecond : m' ∈ sentTo g seenNodes r [m'] := mem_sentTo.mpr ⟨mem_singleton_self m', hr'⟩
  have hboth : List.Sublist [m, m'] (sentTo g seenNodes r [m, m']) := by
    rw [sentTo_cons]
    exact (singleton_sublist.mpr hfirst).append (singleton_sublist.mpr hsecond)
  exact hboth.trans (sentTo_sublist h)

/-- A reflexive relation holds along what is sent to a receiver if it holds between any two messages of
the batch that reach it. -/
theorem pairwise_sentTo {R : CoordMessage → CoordMessage → Prop} (hrefl : ∀ m, R m m)
     (h : l.Pairwise fun m m' => r ∈ targetNodes g seenNodes m → r ∈ targetNodes g seenNodes m' →
      R m m') : (sentTo g seenNodes r l).Pairwise R := by
  unfold sentTo deliveries
  rw [pairwise_map, pairwise_filter, pairwise_flatMap]
  constructor
  · -- copies of one message
    intro m _
    rw [pairwise_map]
    exact pairwise_of_forall fun _ _ _ _ => hrefl m
  · refine h.imp fun {m m'} hmm d hd d' hd' hr hr' => ?_
    obtain ⟨t, ht, rfl⟩ := mem_map.mp hd
    obtain ⟨t', ht', rfl⟩ := mem_map.mp hd'
    rw [decide_eq_true_eq] at hr hr'
    subst hr
    subst hr'
    exact hmm ht ht'

/-- Two messages in comparator order that reach the same receiver are in the documented order, unless
the first one overtakes the second. -/
theorem canonicalLe_of_cmpLe (h : CmpLe CoordMessage.cmp m m') (hno : ¬ Overtakes m m')
    (hr : r ∈ targetNodes g seenNodes m) (hr' : r ∈ targetNodes g seenNodes m') : CanonicalLe m m' := by
  rcases cmpLe_lexicographic h with hlt | ⟨hv, hlt | ⟨hs, hlt | ⟨-, hle⟩⟩⟩
  · exact .inl hlt
  · exact .inr ⟨hv, .inl hlt⟩
  · -- the destinations differ, so one of the two is a broadcast, and it is the second one
    have huni : m.dstNodeId ≠ broadcast := by
      intro hbc
      rw [hbc] at hlt
      exact UInt32.not_lt.mpr (le_broadcast _) hlt
    have hdst := eq_dst_of_mem_targetNodes huni hr
    have hbc : m'.dstNodeId = broadcast := by
      by_contra huni'
      rw [← hdst, eq_dst_of_mem_targetNodes huni' hr'] at hlt
      exact UInt32.lt_irrefl _ hlt
    have hself : m.dstNodeId ≠ m.srcNodeId := by
      rw [← hdst, hs]
      exact ne_src_of_mem_targetNodes hbc hr'
    refine .inr ⟨hv, .inr ⟨hs, ?_⟩⟩
    by_contra hseq
    exact hno ⟨hv, hs, huni, hself, hbc, UInt64.not_le.mp hseq⟩
  · exact .inr ⟨hv, .inr ⟨hs, hle⟩⟩

/-- Without a topology, with the unicast's destination among the nodes seen, an overtaking pair reaches
that node in the wrong order. -/
theorem not_pairwise_sentTo (h : Overtakes m m') (hm : m ∈ l) (hm' : m' ∈ l) :
    ¬ (sentTo TopologyGraph.default [m.dstNodeId] m.dstNodeId (sort l)).Pairwise CanonicalLe := by
  intro hpair
  have hover := h.not_cmpLe
  obtain ⟨hv, hs, huni, hself, hbc, hseq⟩ := h
  -- both messages reach the destination of the unicast, which is not their source
  have hr : m.dstNodeId ∈ targetNodes TopologyGraph.default [m.dstNodeId] m := by
    simp [targetNodes_default_unicast huni]
  have hr' : m.dstNodeId ∈ targetNodes TopologyGraph.default [m.dstNodeId] m' := by
    simp [targetNodes_default_broadcast hbc, ← hs, hself]
  have hsent : List.Sublist [m, m']
      (sentTo TopologyGraph.default [m.dstNodeId] m.dstNodeId (sort l)) :=
    pair_sublist_sentTo hr hr' (pair_sublist_sortBy _ hm hm' hover)
  rcases pairwise_iff_forall_sublist.mp hpair hsent with hlt | ⟨-, hlt | ⟨-, hle⟩⟩
  · exact UInt64.lt_irrefl _ (hv ▸ hlt)
  · exact UInt32.lt_irrefl _ (hs ▸ hlt)
  · exact UInt64.not_le.mpr hseq hle

/-- **Exactly when deliveries follow the documented order.** For every batch that any run of the
barrier releases: every receiver is sent its messages in the order of delivery time, source and
sequence number, under every topology and set of seen nodes, if and only if no unicast of the batch
overtakes a broadcast. -/
theorem sentTo_sorted_iff (n cap : Nat) (q₀ : UInt64) (cs : List DoneCall) :
    ∀ e ∈ barrierRun n cap q₀ cs, ∀ batch, e.output = .ok (some batch) →
      ((∀ g seenNodes r, (sentTo g seenNodes r (sort batch)).Pairwise CanonicalLe) ↔
        ∀ m ∈ batch, ∀ m' ∈ batch, ¬ Overtakes m m') := by
  intro e _ batch _
  constructor
  · intro hall m hm m' hm' hover
    exact not_pairwise_sentTo hover hm hm' (hall _ _ _)
  · intro hno g seenNodes r
    apply pairwise_sentTo CanonicalLe.refl
    refine (pairwise_sort batch).imp_of_mem fun {m m'} hm hm' hle hr hr' => ?_
    exact canonicalLe_of_cmpLe hle (hno m (mem_sort.mp hm) m' (mem_sort.mp hm')) hr hr'

/-- Two frames of node 0, sent as a broadcast and a unicast with that order of sequence numbers, do
not overtake each other when their times differ. -/
theorem sentTo_sorted_differentTimes :
    (sentTo TopologyGraph.default [0, 1] 1 (sort [⟨0, broadcast, 10, 1, .uart, [], none⟩,
      ⟨0, 1, 20, 2, .uart, [], none⟩])).Pairwise CanonicalLe :=
  (sentTo_sorted_iff 1 1024 1
    [⟨0, 1, 1, [⟨0, broadcast, 10, 1, .uart, [], none⟩, ⟨0, 1, 20, 2, .uart, [], none⟩]⟩]
    _ (List.mem_singleton_self _) _ (by decide)).mpr (by decide) _ _ _

/-- Node 0 sends a broadcast with sequence number 1 and then a unicast to node 1 with sequence number
2, both for time 10. -/
def overtakingCalls : List DoneCall :=
  [⟨0, 1, 1, [⟨0, broadcast, 10, 1, .uart, [], none⟩, ⟨0, 1, 10, 2, .uart, [], none⟩]⟩, ⟨1, 1, 1, []⟩]

/-- Node 1 is sent the unicast first. -/
theorem not_sorted_overtakingCalls :
    ∃ e ∈ barrierRun 2 1024 1 overtakingCalls, ∃ batch, e.output = .ok (some batch) ∧
      ¬ (sentTo TopologyGraph.default [0, 1] 1 (sort batch)).Pairwise CanonicalLe :=
  ⟨_, List.mem_cons_of_mem _ (List.mem_singleton_self _), _, rfl, by decide⟩

end Virtmcu.DeterministicCoordinator
