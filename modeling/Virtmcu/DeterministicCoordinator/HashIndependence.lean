import Virtmcu.DeterministicCoordinator.Delivery

/-! # Deliveries and the iteration order of hash containers

Two of the four ways to route a message loop over a hash container: a broadcast without a topology
visits the set of seen nodes, and a radio broadcast visits the map of positions. The effects then come
in the order of that loop. `effects_independent_iff` says for which batches this cannot be seen. -/

namespace Virtmcu.DeterministicCoordinator

open List

/-! ## Sequences of effects determine the targets -/

/-- If every element contributes a segment of the same length to two concatenations, the
concatenations agree only segment by segment. -/
theorem flatMap_eq_flatMap_iff {α β : Type*} {f f' : α → List β}
    (hlen : ∀ a, (f a).length = (f' a).length) (l : List α) :
    l.flatMap f = l.flatMap f' ↔ ∀ a ∈ l, f a = f' a := by
  induction l with
  | nil => simp
  | cons a l ih =>
    rw [flatMap_cons, flatMap_cons, forall_mem_cons, ← ih]
    constructor
    · intro h
      exact append_inj h (hlen a)
    · rintro ⟨ha, hl⟩
      rw [ha, hl]

/-- Segments of one positive length that determine their element: the concatenation determines the
list. -/
theorem flatMap_injective {α β : Type*} {f : α → List β} {k : Nat} (hk : 0 < k)
    (hlen : ∀ a, (f a).length = k) (hf : Function.Injective f) {l l' : List α}
    (h : l.flatMap f = l'.flatMap f) : l = l' := by
  induction l generalizing l' with
  | nil =>
    cases l' with
    | nil => rfl
    | cons a' l' =>
      have hzero := congrArg List.length h
      simp [hlen] at hzero
      omega
  | cons a l ih =>
    cases l' with
    | nil =>
      have hzero := congrArg List.length h
      simp [hlen] at hzero
      omega
    | cons a' l' =>
      rw [flatMap_cons, flatMap_cons] at h
      obtain ⟨ha, hl⟩ := append_inj h ((hlen a).trans (hlen a').symm)
      rw [hf ha, ih hl]

section

variable (builder : Rf802154HeaderBuilder) (logging : Bool) (msg : CoordMessage)

theorem length_deliverTo (t : UInt32) :
    (deliverTo builder logging msg t).length = if logging then 3 else 2 := by
  cases logging <;> rfl

/-- The first put names the target. -/
theorem deliverTo_injective : Function.Injective (deliverTo builder logging msg) := by
  intro t t' h
  have htopic : Templates.coordRx (nodeIdString t) = Templates.coordRx (nodeIdString t') := by
    -- the log records before it may differ, but there are equally many of them
    have hputs := (append_inj h (by split <;> rfl)).2
    exact (Effect.put.inj (List.cons.inj hputs).1).1
  exact coordRx_injective htopic

end

/-! ## Reordering -/

/-- The topology with its position map under another iteration order. -/
def TopologyGraph.reorderPositions (g : TopologyGraph) (o : IterationOrder (UInt32 × Position)) :
    TopologyGraph :=
  { g with nodePositions := g.nodePositions.reorder o }

section

variable {g : TopologyGraph} {seenNodes : HashSet UInt32} {msg : CoordMessage}
  (p : IterationOrder (UInt32 × Position)) (o : IterationOrder UInt32)

theorem get_reorder (m : HashMap UInt32 Position) (k : UInt32) : (m.reorder p).get k = m.get k :=
  HashMap.get_eq_of_perm (p.visit_perm m.toList) k

/-- Reordering the positions permutes the neighbours. -/
theorem rfNeighbors_reorderPositions (src : UInt32) :
    ((g.reorderPositions p).rfNeighbors src).Perm (g.rfNeighbors src) := by
  unfold TopologyGraph.rfNeighbors TopologyGraph.reorderPositions
  simp only [get_reorder]
  split
  · exact List.Perm.refl _
  · split
    · exact List.Perm.refl _
    · exact ((p.visit_perm _).filter _).map _

/-- The link predicate does not see the order. -/
theorem isLinkAllowed_reorderPositions (src t : UInt32) (protocol : Protocol) :
    (g.reorderPositions p).isLinkAllowed src t protocol = g.isLinkAllowed src t protocol := by
  unfold TopologyGraph.isLinkAllowed
  simp only [(rfNeighbors_reorderPositions p src).mem_iff]
  rfl

/-- Reordering permutes the targets of a message. -/
theorem targetNodes_reorder (msg : CoordMessage) :
    (targetNodes (g.reorderPositions p) (seenNodes.reorder o).toList msg).Perm
      (targetNodes g seenNodes.toList msg) := by
  unfold targetNodes
  simp only [isLinkAllowed_reorderPositions]
  split
  · show List.Perm (if !g.isExplicit then _ else _) _
    split
    · exact (o.visit_perm _).filter _
    · split
      · exact rfNeighbors_reorderPositions p _
      · exact List.Perm.refl _
  · exact List.Perm.refl _

end

/-! ## Who can be reached through a hash container -/

/-- `t` is among the receivers that a loop over a hash container produces for a broadcast: without a
topology the other seen nodes with an open link, on the radio the neighbours of the source. -/
def HashRouted (g : TopologyGraph) (seenNodes : HashSet UInt32) (msg : CoordMessage) (t : UInt32) :
    Prop :=
  msg.dstNodeId = broadcast ∧
    if g.isExplicit then msg.protocol.isWireless = true ∧ t ∈ g.rfNeighbors msg.srcNodeId
    else t ∈ seenNodes.toList ∧ t ≠ msg.srcNodeId ∧
      g.isLinkAllowed msg.srcNodeId t msg.protocol = true

section

variable {g : TopologyGraph} {seenNodes : HashSet UInt32} {msg : CoordMessage}

/-- The message is routed by a loop over a hash container. -/
def UsesHashOrder (g : TopologyGraph) (msg : CoordMessage) : Prop :=
  msg.dstNodeId = broadcast ∧ (g.isExplicit = true → msg.protocol.isWireless = true)

/-- The receivers of such a message are the targets. -/
theorem mem_targetNodes_iff_hashRouted (h : UsesHashOrder g msg) {t : UInt32} :
    t ∈ targetNodes g seenNodes.toList msg ↔ HashRouted g seenNodes msg t := by
  obtain ⟨hm, hw⟩ := h
  unfold targetNodes HashRouted
  cases hg : g.isExplicit with
  | true => simp [hm, hw hg]
  | false => simp [hm]

theorem nodup_targetNodes_of_usesHashOrder (h : UsesHashOrder g msg) :
    (targetNodes g seenNodes.toList msg).Nodup := by
  obtain ⟨hm, hw⟩ := h
  unfold targetNodes
  cases hg : g.isExplicit with
  | true => simpa [hm, hw hg] using nodup_rfNeighbors
  | false => simpa [hm] using seenNodes.nodup.filter _

/-- Iterating backwards lists the targets backwards. -/
theorem targetNodes_reversed (h : UsesHashOrder g msg) :
    targetNodes (g.reorderPositions (.reversed _)) (seenNodes.reorder (.reversed _)).toList msg =
      (targetNodes g seenNodes.toList msg).reverse := by
  obtain ⟨hm, hw⟩ := h
  have hneighbors : (g.reorderPositions (.reversed _)).rfNeighbors msg.srcNodeId =
      (g.rfNeighbors msg.srcNodeId).reverse := by
    unfold TopologyGraph.rfNeighbors TopologyGraph.reorderPositions
    simp only [get_reorder]
    split
    · rfl
    · split
      · rfl
      · simp [HashMap.reorder, IterationOrder.reversed, filter_reverse]
  have hexp : (g.reorderPositions (.reversed _)).isExplicit = g.isExplicit := rfl
  unfold targetNodes
  simp only [isLinkAllowed_reorderPositions, hneighbors, hexp]
  cases hg : g.isExplicit with
  | true => simp [hm, hw hg]
  | false => simp [hm, HashSet.reorder, IterationOrder.reversed, filter_reverse]

/-- Messages that are routed without such a loop do not see the order. -/
theorem targetNodes_reorder_eq (h : ¬ UsesHashOrder g msg) (p : IterationOrder (UInt32 × Position))
    (o : IterationOrder UInt32) : targetNodes (g.reorderPositions p) (seenNodes.reorder o).toList msg =
      targetNodes g seenNodes.toList msg := by
  have hexp : (g.reorderPositions p).isExplicit = g.isExplicit := rfl
  unfold targetNodes
  simp only [isLinkAllowed_reorderPositions, hexp]
  by_cases hm : msg.dstNodeId = broadcast
  · have hexplicit : g.isExplicit = true ∧ msg.protocol.isWireless = false := by
      by_contra hno
      refine h ⟨hm, fun hg => ?_⟩
      by_contra hw
      exact hno ⟨hg, by simpa using hw⟩
    simp [hm, hexplicit.1, hexplicit.2]
    rfl
  · simp [hm]

/-- One message: its targets are the same list under all orders exactly when a loop over a hash
container has at most one receiver to offer. -/
theorem targetNodes_independent_iff :
    (∀ p p' o o', targetNodes (g.reorderPositions p) (seenNodes.reorder o).toList msg =
      targetNodes (g.reorderPositions p') (seenNodes.reorder o').toList msg) ↔
    ∀ t t', HashRouted g seenNodes msg t → HashRouted g seenNodes msg t' → t = t' := by
  by_cases h : UsesHashOrder g msg
  · simp only [← mem_targetNodes_iff_hashRouted h]
    have hnodup := @nodup_targetNodes_of_usesHashOrder g seenNodes msg h
    constructor
    · -- the targets read the same forwards and backwards, so there is at most one of them
      intro hall t t' ht ht'
      have hforward : targetNodes (g.reorderPositions (.insertion _))
          (seenNodes.reorder (.insertion _)).toList msg = targetNodes g seenNodes.toList msg := rfl
      have hrev := (hall (.insertion _) (.reversed _) (.insertion _) (.reversed _)).symm
      rw [targetNodes_reversed h, hforward] at hrev
      exact eq_of_reverse_eq hnodup hrev ht ht'
    · intro hall p p' o o'
      have hone : ∀ p o, targetNodes g seenNodes.toList msg =
          targetNodes (g.reorderPositions p) (seenNodes.reorder o).toList msg := fun p o =>
        eq_of_perm_of_subsingleton (targetNodes_reorder p o msg).symm hnodup
          fun t ht t' ht' => hall t t' ht ht'
      rw [← hone p o, ← hone p' o']
  · constructor
    · rintro - t t' ⟨hm, ht⟩ -
      refine absurd ⟨hm, fun hg => ?_⟩ h
      rw [if_pos hg] at ht
      exact ht.1
    · intro _ p p' o o'
      rw [targetNodes_reorder_eq h, targetNodes_reorder_eq h]

end

/-! ## Whole batches -/

section

variable (builder : Rf802154HeaderBuilder) (logging : Bool)

/-- The effects of a message determine its targets. -/
theorem deliverMessage_eq_iff {g g' : TopologyGraph} {seenNodes seenNodes' : List UInt32}
    {msg : CoordMessage} :
    deliverMessage builder logging g seenNodes msg = deliverMessage builder logging g' seenNodes' msg ↔
      targetNodes g seenNodes msg = targetNodes g' seenNodes' msg := by
  rw [deliverMessage_eq, deliverMessage_eq]
  constructor
  · refine flatMap_injective ?_ (length_deliverTo builder logging msg)
      (deliverTo_injective builder logging msg)
    split <;> decide
  · intro h
    rw [h]

/-- Permuted targets give equally many effects. -/
theorem length_deliverMessage_reorder (g : TopologyGraph) (seenNodes : HashSet UInt32)
    (p : IterationOrder (UInt32 × Position)) (o : IterationOrder UInt32) (msg : CoordMessage) :
    (deliverMessage builder logging (g.reorderPositions p) (seenNodes.reorder o).toList msg).length =
      (deliverMessage builder logging g seenNodes.toList msg).length := by
  rw [deliverMessage_eq, deliverMessage_eq]
  exact ((targetNodes_reorder p o msg).flatMap_right _).length_eq

/-- **Exactly when delivery does not depend on hash iteration order.** For every topology, set of seen
nodes and batch: the sequence of puts and log records is the same for all iteration orders of the seen
nodes and of the node positions, if and only if no broadcast of the batch has two receivers to be found
by a loop over one of these containers. -/
theorem effects_independent_iff (g : TopologyGraph) (seenNodes : HashSet UInt32)
    (batch : List CoordMessage) : (∀ p p' o o',
      deliverBatch builder logging (g.reorderPositions p) (seenNodes.reorder o).toList batch =
        deliverBatch builder logging (g.reorderPositions p') (seenNodes.reorder o').toList batch) ↔
    ∀ m ∈ batch, ∀ t t', HashRouted g seenNodes m t → HashRouted g seenNodes m t' → t = t' := by
  have hbatch : ∀ p p' o o',
      deliverBatch builder logging (g.reorderPositions p) (seenNodes.reorder o).toList batch =
        deliverBatch builder logging (g.reorderPositions p') (seenNodes.reorder o').toList batch ↔
      ∀ m ∈ batch, targetNodes (g.reorderPositions p) (seenNodes.reorder o).toList m =
        targetNodes (g.reorderPositions p') (seenNodes.reorder o').toList m := by
    intro p p' o o'
    unfold deliverBatch
    rw [flatMap_eq_flatMap_iff fun m => by
      rw [length_deliverMessage_reorder, length_deliverMessage_reorder]]
    simp only [deliverMessage_eq_iff]
  simp only [hbatch]
  constructor
  · intro hall m hm
    exact targetNodes_independent_iff.mp fun p p' o o' => hall p p' o o' m hm
  · intro hall p p' o o' m hm
    exact targetNodes_independent_iff.mpr (hall m hm) p p' o o'

end

/-- A broadcast of node 0 with three nodes seen and no topology: which of the other two comes first is
up to the hash set. -/
theorem not_independent_threeNodes :
    ¬ ∀ p p' o o', deliverBatch (fun _ _ _ _ _ => []) true (TopologyGraph.default.reorderPositions p)
        (HashSet.reorder ⟨[0, 1, 2], by decide⟩ o).toList [⟨0, broadcast, 5, 1, .uart, [], none⟩] =
      deliverBatch (fun _ _ _ _ _ => []) true (TopologyGraph.default.reorderPositions p')
        (HashSet.reorder ⟨[0, 1, 2], by decide⟩ o').toList [⟨0, broadcast, 5, 1, .uart, [], none⟩] := by
  intro h
  have horders := h (.insertion _) (.insertion _) (.insertion _) (.reversed _)
  revert horders
  decide

end Virtmcu.DeterministicCoordinator
