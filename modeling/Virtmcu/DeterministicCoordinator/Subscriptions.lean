import Virtmcu.DeterministicCoordinator.Provenance
import Virtmcu.Foundations.KeyExpr

/-! # Subscriptions

The coordinator declares one subscriber for each of the TX wildcards of `topics.rs`, and all of them
feed one channel. A sample that several wildcards match is therefore handled several times, once for
each. The wildcards are pairwise apart with one exception: `virtmcu/uart/**/tx` matches whatever
`virtmcu/uart/*/tx` does. `ingestedOnce_iff` carries the number of matches through the buffers, the
barrier and the delivery. -/

namespace Virtmcu.DeterministicCoordinator

open List

variable {args : Args} {env : Externals} {topo : TopologyGraph}

/-! ## The wildcards -/

/-- `ALL_LEGACY_TX_WILDCARDS`. -/
def allLegacyTxWildcards : List String :=
  ["sim/eth/frame/*/tx", "sim/uart/*/tx", "sim/can/*/tx", "sim/lin/*/tx", "sim/systemc/frame/*/tx",
   "sim/spi/*/*/tx", "sim/rf/ieee802154/*/tx", "sim/rf/hci/*/tx", "sim/chardev/*/tx",
   "sim/netdev/*/tx", "virtmcu/uart/*/tx", "virtmcu/uart/**/tx"]

/-- The subscriptions that match a topic. -/
def matchingSubscriptions (topic : String) : List String :=
  allLegacyTxWildcards.filter fun wildcard => keyExprMatches wildcard topic

/-- What the loop receives of a frame published on a topic: one sample for each match. -/
def ingest (topic : String) (payload : List UInt8) : List Sample :=
  (matchingSubscriptions topic).map fun _ => .tx topic payload

/-- The topic is `virtmcu/uart/*/tx` with one chunk filled in. -/
def IsPlainUartTopic (topic : String) : Prop :=
  ∃ chunk, split '/' topic = ["virtmcu", "uart", chunk, "tx"]

/-- The wildcards without `virtmcu/uart/*/tx`. -/
def apartWildcards : List String := allLegacyTxWildcards.erase "virtmcu/uart/*/tx"

theorem pairwise_apartWildcards :
    apartWildcards.Pairwise fun w w' => keyApart (keyExpr w) (keyExpr w') = true := by
  decide +kernel

theorem keyExpr_plainUart : keyExpr "virtmcu/uart/*/tx" =
    [.verbatim "virtmcu", .verbatim "uart", .star, .verbatim "tx"] := by
  decide +kernel

theorem keyExpr_portUart : keyExpr "virtmcu/uart/**/tx" =
    [.verbatim "virtmcu", .verbatim "uart", .doubleStar, .verbatim "tx"] := by
  decide +kernel

theorem keyExprMatches_plainUart_iff (topic : String) :
    keyExprMatches "virtmcu/uart/*/tx" topic = true ↔ IsPlainUartTopic topic := by
  unfold keyExprMatches IsPlainUartTopic
  rw [keyExpr_plainUart]
  constructor
  · intro h
    match hpath : split '/' topic, h with
    | [a, b, chunk, d], h =>
      simp only [keyMatches, isEmpty_nil, Bool.and_true, Bool.and_eq_true, decide_eq_true_eq] at h
      obtain ⟨rfl, rfl, rfl⟩ := h
      exact ⟨chunk, rfl⟩
    | [], h | [_], h | [_, _], h | [_, _, _], h => simp [keyMatches] at h
    | _ :: _ :: _ :: _ :: _ :: _, h => simp [keyMatches] at h
  · rintro ⟨chunk, hpath⟩
    rw [hpath]
    simp [keyMatches]

theorem keyExprMatches_portUart {topic : String} (h : IsPlainUartTopic topic) :
    keyExprMatches "virtmcu/uart/**/tx" topic = true := by
  obtain ⟨chunk, hpath⟩ := h
  rw [keyExprMatches, keyExpr_portUart, hpath]
  simp [keyMatches]

/-- At most one subscription matches, except for the topics both UART wildcards match. -/
theorem length_matchingSubscriptions_le_one_iff (topic : String) :
    (matchingSubscriptions topic).length ≤ 1 ↔ ¬ IsPlainUartTopic topic := by
  have hperm : allLegacyTxWildcards.Perm ("virtmcu/uart/*/tx" :: apartWildcards) :=
    perm_cons_erase (by decide)
  have hfilter := (hperm.filter fun w => keyExprMatches w topic).length_eq
  rw [matchingSubscriptions, hfilter, ← keyExprMatches_plainUart_iff]
  by_cases hplain : keyExprMatches "virtmcu/uart/*/tx" topic = true
  · -- the other UART wildcard matches too
    have hport := keyExprMatches_portUart ((keyExprMatches_plainUart_iff topic).mp hplain)
    have hmem : "virtmcu/uart/**/tx" ∈ apartWildcards.filter fun w => keyExprMatches w topic :=
      mem_filter.mpr ⟨by decide, hport⟩
    have hpos := length_pos_of_mem hmem
    simp only [filter_cons, hplain, if_true, length_cons, not_true_eq_false, iff_false]
    omega
  · simp only [filter_cons, hplain, Bool.false_eq_true, if_false, not_false_eq_true, iff_true]
    exact length_filter_keyMatches_le_one pairwise_apartWildcards (split '/' topic)

/-! ## Copies in the buffer -/

/-- The sample is a frame that becomes the message `m` of node `i`. -/
def Produces (args : Args) (env : Externals) (i : UInt32) (m : CoordMessage) : Sample → Prop
  | .tx topic payload => txMessage args env topic payload = some (i, some m)
  | _ => False

section

variable {batches : UInt32 → List CoordMessage} {i : UInt32} {m : CoordMessage} {x : Sample}

/-- Each sample of a frame adds a copy of its message. -/
theorem count_nextBatches_of_produces (hpdes : args.noPdes = false) (hx : Produces args env i m x) :
    (nextBatches args env batches x i).count m = (batches i).count m + 1 := by
  cases x with
  | tx topic payload =>
    have htx : txMessage args env topic payload = some (i, some m) := hx
    simp [nextBatches, htx, hpdes]
  | ctrl payload | done topic payload => exact absurd hx id

/-- Other samples leave the number of copies alone, unless a report covers them. -/
theorem count_nextBatches (hx : ¬ Produces args env i m x) (hcovers : ¬ Covers env i m x) :
    (nextBatches args env batches x i).count m = (batches i).count m := by
  rcases nextBatches_cases args env batches x i with
    heq | ⟨topic, payload, msg, rfl, htx, heq⟩ | ⟨topic, payload, rfl, hid, heq⟩
  · rw [heq]
  · -- the frame of another message
    have hne : msg ≠ m := by
      rintro rfl
      exact hx htx
    rw [heq, count_append, count_singleton, if_neg (by simpa using hne), Nat.add_zero]
  · -- a report of the node that does not cover the message keeps its copies
    have hlate : ¬ m.deliveryVtimeNs ≤ (doneRequest env payload).vtimeLimit :=
      fun hle => hcovers ⟨hid, hle⟩
    rw [heq]
    exact count_filter (decide_eq_true hlate)

end

section

variable {i : UInt32} {m : CoordMessage} {topic : String} {payload : List UInt8}

/-- After the samples of a published frame there are as many copies more as subscriptions match. -/
theorem count_nodeBatches_ingest (hpdes : args.noPdes = false)
    (htx : txMessage args env topic payload = some (i, some m)) (s : LoopState args.nodes) :
    ((finalState (loopStep args env) s (ingest topic payload)).nodeBatches i).count m =
      (s.nodeBatches i).count m + (matchingSubscriptions topic).length := by
  unfold ingest
  generalize matchingSubscriptions topic = matching
  induction matching generalizing s with
  | nil => rfl
  | cons w matching ih =>
    rw [map_cons, finalState_cons, ih, loopStep_nodeBatches,
      count_nextBatches_of_produces hpdes (by exact htx), length_cons]
    omega

/-- And they stay as long as no report covers them and no equal frame is published. -/
theorem count_nodeBatches_finalState {samples : List Sample}
    (hmid : ∀ x ∈ samples, ¬ Produces args env i m x ∧ ¬ Covers env i m x) (s : LoopState args.nodes) :
    ((finalState (loopStep args env) s samples).nodeBatches i).count m = (s.nodeBatches i).count m := by
  induction samples generalizing s with
  | nil => rfl
  | cons x samples ih =>
    rw [forall_mem_cons] at hmid
    rw [finalState_cons, ih hmid.2, loopStep_nodeBatches, count_nextBatches hmid.1.1 hmid.1.2]

/-! ## Copies in the batch -/

/-- The report hands over no more copies than are buffered: the messages it carries itself have no base
topic. -/
theorem count_doneCall_le (s : LoopState args.nodes) (hbase : m.baseTopic.isSome = true) :
    (doneCall args env s i payload).messages.count m ≤ (s.nodeBatches i).count m := by
  have hbatched : m ∉ (doneRequest env payload).batchedMsgs := by
    intro h
    rw [baseTopic_of_mem_batchedMsgs h] at hbase
    exact absurd hbase (by decide)
  unfold doneCall
  simp only [count_append, count_eq_zero_of_not_mem hbatched, Nat.add_zero]
  exact filter_sublist.count_le m

theorem count_sortTruncate_le (cap : Nat) (l : List CoordMessage) :
    (sortTruncate cap l).count m ≤ l.count m := by
  calc (sortTruncate cap l).count m ≤ (sort l).count m := (take_sublist _ _).count_le m
    _ = l.count m := (sortBy_perm _ l).count_eq m

/-- When no report but one contains the message, the collection has no more copies than that one. -/
theorem count_collected_le {cap : Nat} {cs : List DoneCall} {c : DoneCall}
    (hkeys : (cs.map fun c => (c.nodeId.toNat, c.quantum.toNat)).Nodup) (hc : c ∈ cs)
    (hothers : ∀ c' ∈ cs, m ∈ c'.messages → c'.nodeId = c.nodeId) :
    (collected cap cs c.quantum.toNat).count m ≤ c.messages.count m := by
  obtain ⟨before, after, rfl⟩ := append_of_mem hc
  -- the other reports are of other nodes or for other quanta
  have hnone : ∀ c' ∈ before ++ after, c'.quantum.toNat = c.quantum.toNat →
      m ∉ sortTruncate cap c'.messages := by
    intro c' hc' hq hm
    have hmem : c' ∈ before ++ c :: after := by
      rw [mem_append, mem_cons]
      rcases mem_append.mp hc' with h | h
      · exact .inl h
      · exact .inr (.inr h)
    have hnode := hothers c' hmem (mem_sort.mp (mem_of_mem_take hm))
    have hperm : (before ++ c :: after).Perm (c :: (before ++ after)) := perm_middle
    rw [(hperm.map _).nodup_iff, map_cons, nodup_cons] at hkeys
    refine hkeys.1 (mem_map.mpr ⟨c', hc', ?_⟩)
    rw [hq, hnode]
  have hzero : ∀ l : List DoneCall, (∀ c' ∈ l, c' ∈ before ++ after) →
      (collected cap l c.quantum.toNat).count m = 0 := by
    intro l hl
    rw [count_eq_zero]
    intro hm
    obtain ⟨c', hc', hkept⟩ := mem_flatMap.mp hm
    rw [mem_filter, decide_eq_true_eq] at hc'
    exact hnone c' (hl c' hc'.1) hc'.2 hkept
  have hsplit : collected cap (before ++ c :: after) c.quantum.toNat =
      collected cap before c.quantum.toNat ++
        (sortTruncate cap c.messages ++ collected cap after c.quantum.toNat) := by
    simp [collected, filter_append, flatMap_append]
  rw [hsplit, count_append, count_append, hzero before fun c' h => mem_append_left _ h,
    hzero after fun c' h => mem_append_right _ h]
  have hle := @count_sortTruncate_le m cap c.messages
  omega

end

/-! ## Once -/

/-- What one delivery of a message does, in a state of the loop in which its node `i` is seen. -/
def deliveryOf (args : Args) (env : Externals) (s : LoopState args.nodes) (i : UInt32)
    (m : CoordMessage) : List Effect :=
  deliverMessage env.rf802154Builder args.pcapLog s.topo
    (env.seenOrder.visit (s.seenNodes.insert i).toList) m

/-- A frame published on the topic is taken in and delivered at most once. -/
structure IngestedOnce (args : Args) (env : Externals) (topo : TopologyGraph) (topic : String) :
    Prop where
  /-- At most one subscription matches. -/
  one_match : (matchingSubscriptions topic).length ≤ 1
  /-- Without coordination the frame is delivered at most once, in any state of the loop. -/
  no_pdes : args.noPdes = true → ∀ (s : LoopState args.nodes) payload i m,
    txMessage args env topic payload = some (i, some m) →
    (entries (loopStep args env) s (ingest topic payload)).flatMap Entry.output = [] ∨
    (entries (loopStep args env) s (ingest topic payload)).flatMap Entry.output =
      deliveryOf args env s i m
  /-- With coordination: a frame whose message is not yet buffered, the first report that covers it,
  accepted, and the batch of that report. Every receiver is sent the message at most as often as it is
  a target. -/
  one_quantum : args.noPdes = false → ∀ pre mid post doneTopic payload donePayload i m batch,
    txMessage args env topic payload = some (i, some m) →
    m ∉ (loopAfter args env topo pre).nodeBatches i →
    (∀ x ∈ mid, ¬ Produces args env i m x ∧ ¬ Covers env i m x) →
    parseDoneTopic doneTopic = some i →
    Accepts args env topo (pre ++ ingest topic payload ++ mid) i donePayload →
    ((doneRequest env donePayload).quantum.toNat, batch) ∈ released (loopBarrierRun args env topo
      (pre ++ ingest topic payload ++ mid ++ .done doneTopic donePayload :: post)) →
    ∀ g seenNodes r, (sentTo g seenNodes r (sort batch)).count m ≤ (targetNodes g seenNodes m).count r

section

variable {i : UInt32} {m : CoordMessage} {topic : String} {payload : List UInt8}

/-- Without coordination every sample of the frame is a delivery. -/
theorem outputs_ingest_of_length_le_one (hpdes : args.noPdes = true)
    (htx : txMessage args env topic payload = some (i, some m))
    (hone : (matchingSubscriptions topic).length ≤ 1) (s : LoopState args.nodes) :
    (entries (loopStep args env) s (ingest topic payload)).flatMap Entry.output = [] ∨
    (entries (loopStep args env) s (ingest topic payload)).flatMap Entry.output =
      deliveryOf args env s i m := by
  unfold ingest
  match matchingSubscriptions topic, hone with
  | [], _ => exact .inl rfl
  | [w], _ =>
    refine .inr ?_
    simp only [map_cons, map_nil, entries_cons, entries_nil, flatMap_cons,
      flatMap_nil, append_nil, entryAt_output]
    show (handleTx args env s topic payload).2 = _
    simp [handleTx, htx, hpdes, deliveryOf]

/-- With coordination a batch has no more copies of the message than subscriptions match. -/
theorem count_batch_le (hpdes : args.noPdes = false) {pre mid post : List Sample} {doneTopic : String}
    {donePayload : List UInt8} {batch : List CoordMessage}
    (htx : txMessage args env topic payload = some (i, some m))
    (hfresh : m ∉ (loopAfter args env topo pre).nodeBatches i)
    (hmid : ∀ x ∈ mid, ¬ Produces args env i m x ∧ ¬ Covers env i m x)
    (hid : parseDoneTopic doneTopic = some i)
    (haccepts : Accepts args env topo (pre ++ ingest topic payload ++ mid) i donePayload)
    (hbatch : ((doneRequest env donePayload).quantum.toNat, batch) ∈ released (loopBarrierRun args env topo
        (pre ++ ingest topic payload ++ mid ++ .done doneTopic donePayload :: post))) :
    batch.count m ≤ (matchingSubscriptions topic).length := by
  have hframe := fromFrame_of_txMessage htx
  have hbuffer : ((loopAfter args env topo (pre ++ ingest topic payload ++ mid)).nodeBatches i).count m =
      (matchingSubscriptions topic).length := by
    unfold loopAfter at hfresh ⊢
    rw [finalState_append, count_nodeBatches_finalState hmid, finalState_append,
      count_nodeBatches_ingest hpdes htx, count_eq_zero_of_not_mem hfresh, Nat.zero_add]
  have hhistory := @loop_history args env topo
    (pre ++ ingest topic payload ++ mid ++ .done doneTopic donePayload :: post)
  have hcollected := @count_collected_le m topo.maxMessagesPerNodePerQuantum _ _
    hhistory.accepted_nodup (haccepts.mem_accepted hid post) (by
      intro c' hc' hm
      -- another report with this frame would be one of the same node
      have hother := fromFrame_of_mem_accepted hc' hm hframe.2.2
      exact hother.1.symm.trans hframe.1)
  have hcall := @count_doneCall_le args env i m donePayload
    (loopAfter args env topo (pre ++ ingest topic payload ++ mid)) hframe.2.2
  rw [hhistory.released_eq, mem_map] at hbatch
  obtain ⟨q, -, heq⟩ := hbatch
  obtain ⟨rfl, rfl⟩ := Prod.mk.inj heq
  rw [sort, (sortBy_perm _ _).count_eq]
  exact hcollected.trans (hcall.trans hbuffer.le)

end

/-- **Exactly when a frame is ingested once.** For every coordinator and every topic: at most one
subscription matches, and a frame published there is delivered at most once without coordination, and
with coordination, in the quantum it is reported in, to every receiver at most as often as that is a
target of it, if and only if the topic is not `virtmcu/uart/*/tx` with one chunk filled in. -/
theorem ingestedOnce_iff (args : Args) (env : Externals) (topo : TopologyGraph) (topic : String) :
    IngestedOnce args env topo topic ↔ ¬ IsPlainUartTopic topic := by
  rw [← length_matchingSubscriptions_le_one_iff]
  constructor
  · intro h
    exact h.one_match
  · intro hone
    refine ⟨hone, fun hpdes s payload i m htx => ?_, ?_⟩
    · exact outputs_ingest_of_length_le_one hpdes htx hone s
    · intro hpdes pre mid post doneTopic payload donePayload i m batch htx hfresh hmid hid haccepts
        hbatch g seenNodes r
      have hcount := count_batch_le hpdes htx hfresh hmid hid haccepts hbatch
      rw [count_sentTo, sort, (sortBy_perm _ _).count_eq]
      calc batch.count m * (targetNodes g seenNodes m).count r
          ≤ 1 * (targetNodes g seenNodes m).count r := Nat.mul_le_mul_right _ (hcount.trans hone)
        _ = (targetNodes g seenNodes m).count r := Nat.one_mul _

/-- The message of a UART frame of node 0 on the default topic. -/
def doubledMessage : CoordMessage := ⟨0, broadcast, 1000000, 1, .uart, [7], some "virtmcu/uart"⟩

/-- A frame on the default topic of the character device of node 0, among two nodes: two subscriptions
match, and node 1 is sent the frame twice, without coordination and in a quantum. -/
theorem ingestedTwice_plainUart :
    matchingSubscriptions "virtmcu/uart/0/tx" = ["virtmcu/uart/*/tx", "virtmcu/uart/**/tx"] ∧
    txMessage ⟨2, false, 1000000, false⟩ plainExternals "virtmcu/uart/0/tx" (encodeFrame 0 1 [7]) =
      some (0, some doubledMessage) ∧
    loopEffects ⟨2, true, 1000000, false⟩ plainExternals TopologyGraph.default
        (ingest "virtmcu/uart/0/tx" (encodeFrame 0 1 [7])) =
      deliverBatch plainExternals.rf802154Builder false TopologyGraph.default [0, 1]
        [doubledMessage, doubledMessage] ∧
    released (loopBarrierRun ⟨2, false, 1000000, false⟩ plainExternals TopologyGraph.default
        (ingest "virtmcu/uart/0/tx" (encodeFrame 0 1 [7]) ++
          [.done "sim/coord/0/done" (leBytes 8 1), .done "sim/coord/1/done" (leBytes 8 1)])) =
      [(1, [doubledMessage, doubledMessage])] ∧
    sentTo TopologyGraph.default [0, 1] 1 (sort [doubledMessage, doubledMessage]) =
      [doubledMessage, doubledMessage] := by
  refine ⟨?_, ?_, ?_, ?_, ?_⟩ <;> decide +kernel

end Virtmcu.DeterministicCoordinator
