import Virtmcu.DeterministicCoordinator.DeliveryOrder
import Virtmcu.DeterministicCoordinator.FrameBuffers

/-! # Where messages come from

A message gets into a batch in one of two ways. A frame on a TX topic becomes a broadcast whose source
is the node in the topic. A message batched in a DONE report is taken over as it is, whatever source it
names: the topic of the report says which node sent it, and nothing compares the two. The two kinds can
be told apart, since only frames have a base topic. `sourceAuthentic_iff` follows the messages of one
report to the batch they are released in. -/

namespace Virtmcu.DeterministicCoordinator

open List Option

variable {args : Args} {env : Externals} {topo : TopologyGraph}

/-! ## The two kinds of messages -/

/-- The message was made of a frame of node `i`. -/
def FromFrame (i : UInt32) (m : CoordMessage) : Prop :=
  m.srcNodeId = i ∧ m.dstNodeId = broadcast ∧ m.baseTopic.isSome = true

variable {payload : List UInt8} {m : CoordMessage}

theorem fromFrame_of_txMessage {topic : String} {i : UInt32}
    (h : txMessage args env topic payload = some (i, some m)) : FromFrame i m := by
  obtain ⟨⟨proto, nodeId, base⟩, -, heq⟩ := map_eq_some_iff.mp h
  obtain ⟨rfl, hmsg⟩ := Prod.mk.inj heq
  obtain ⟨⟨vtime, seq, data⟩, -, rfl⟩ := map_eq_some_iff.mp hmsg
  exact ⟨rfl, rfl, rfl⟩

/-- One sample adds nothing but frames of a node to the buffer of that node. -/
theorem fromFrame_nextBatches {batches : UInt32 → List CoordMessage}
    (h : ∀ i, ∀ m ∈ batches i, FromFrame i m) (x : Sample) :
    ∀ i, ∀ m ∈ nextBatches args env batches x i, FromFrame i m := by
  intro i m hm
  rcases nextBatches_cases args env batches x i with
    heq | ⟨topic, payload, msg, -, htx, heq⟩ | ⟨topic, payload, -, -, heq⟩
  · rw [heq] at hm
    exact h i m hm
  · rw [heq, mem_append, mem_singleton] at hm
    rcases hm with hm | rfl
    · exact h i m hm
    · exact fromFrame_of_txMessage htx
  · rw [heq] at hm
    exact h i m (mem_filter.mp hm).1

/-- So the buffer of a node holds nothing but frames of that node, along every run. -/
theorem fromFrame_of_mem_nodeBatches (samples : List Sample) :
    ∀ i, ∀ m ∈ (loopAfter args env topo samples).nodeBatches i, FromFrame i m := by
  have hstep : ∀ (s : LoopState args.nodes) x, (∀ i, ∀ m ∈ s.nodeBatches i, FromFrame i m) →
      ∀ i, ∀ m ∈ (loopStep args env s x).1.nodeBatches i, FromFrame i m := by
    intro s x hs
    rw [loopStep_nodeBatches]
    exact fromFrame_nextBatches hs x
  refine finalState_invariant _ hstep ?_ samples
  intro i m hm
  exact absurd hm not_mem_nil

theorem baseTopic_of_decodeRecord {bytes rest : List UInt8}
    (h : decodeRecord bytes = (some m, rest)) : m.baseTopic = none := by
  unfold decodeRecord at h
  simp only at h
  split at h
  · obtain ⟨hm, -⟩ := Prod.mk.inj h
    obtain ⟨data, -, rfl⟩ := map_eq_some_iff.mp hm
    rfl
  · cases h

theorem baseTopic_of_mem_decodeRecords {numMsgs : Nat} {bytes : List UInt8}
    (h : m ∈ decodeRecords numMsgs bytes) : m.baseTopic = none := by
  induction numMsgs generalizing bytes with
  | zero => exact absurd h not_mem_nil
  | succ numMsgs ih =>
    simp only [decodeRecords, mem_append, mem_toList] at h
    rcases h with h | h
    · exact baseTopic_of_decodeRecord (Prod.ext h rfl)
    · exact ih h

theorem baseTopic_of_mem_decodeBatch {bytes : List UInt8}
    (h : m ∈ decodeBatch bytes) : m.baseTopic = none := by
  unfold decodeBatch at h
  split at h
  · exact baseTopic_of_mem_decodeRecords h
  · exact absurd h not_mem_nil

/-- A message batched in a report has no base topic, in either encoding. -/
theorem baseTopic_of_mem_batchedMsgs
    (h : m ∈ (doneRequest env payload).batchedMsgs) : m.baseTopic = none := by
  simp only [doneRequest] at h
  split at h
  · obtain ⟨fbMessage, -, rfl⟩ := mem_map.mp h
    rfl
  · split at h
    · split at h
      · simp only at h
        split at h
        · exact baseTopic_of_mem_decodeBatch h
        · exact absurd h not_mem_nil
      · simp only at h
        split at h
        · exact baseTopic_of_mem_decodeBatch h
        · exact absurd h not_mem_nil
    · exact absurd h not_mem_nil

/-- What a report hands to the barrier: frames of its node, and the messages it carries. -/
theorem fromFrame_or_batched {samples : List Sample} {i : UInt32}
     (h : m ∈ (doneCall args env (loopAfter args env topo samples) i payload).messages) :
    FromFrame i m ∨ m ∈ (doneRequest env payload).batchedMsgs := by
  rcases mem_append.mp h with h | h
  · exact .inl (fromFrame_of_mem_nodeBatches samples i m (mem_filter.mp h).1)
  · exact .inr h

/-- So does every report the barrier accepted. -/
theorem fromFrame_of_mem_accepted {samples : List Sample} {c : DoneCall}
    (hc : c ∈ accepted (loopBarrierRun args env topo samples))
    (hm : m ∈ c.messages) (hbase : m.baseTopic.isSome = true) : FromFrame c.nodeId m := by
  induction samples using reverseRecOn with
  | nil => exact absurd hc not_mem_nil
  | append_singleton samples x ih =>
    rw [loopBarrierRun_concat] at hc
    cases x with
    | tx topic payload | ctrl payload => exact ih (by simpa [callOf] using hc)
    | done topic payload =>
      cases hid : parseDoneTopic topic with
      | none => exact ih (by simpa [callOf, hid] using hc)
      | some i =>
        rw [callOf_done hid, map_some, toList_some, accepted_concat, mem_append] at hc
        rcases hc with hc | hc
        · exact ih hc
        · split at hc
          · rw [mem_singleton, entryAt_input] at hc
            subst hc
            refine (fromFrame_or_batched hm).resolve_right fun hbatched => ?_
            rw [baseTopic_of_mem_batchedMsgs hbatched] at hbase
            exact absurd hbase (by decide)
          · exact absurd hc not_mem_nil

/-! ## Identity -/

/-- The source of a message stands in its encoding. -/
theorem srcNodeId_of_encodeMessage {m m' : CoordMessage} (h : encodeMessage m = encodeMessage m') :
    m.srcNodeId = m'.srcNodeId := by
  have hsrc : leBytes 4 m.srcNodeId.toNat = leBytes 4 m'.srcNodeId.toNat := by
    have htake := congrArg (List.take 4) h
    simpa only [encodeMessage, append_assoc, take_leBytes_append] using htake
  exact UInt32.toNat_inj.mp
    (leBytes_injective m.srcNodeId.toNat_lt m'.srcNodeId.toNat_lt hsrc)

/-- Under every topology the message is routed, sent and logged as one of node `k`. -/
def RoutedAs (builder : Rf802154HeaderBuilder) (logging : Bool) (k : UInt32) (m : CoordMessage) :
    Prop :=
  ∀ g seenNodes, deliverMessage builder logging g seenNodes m =
    deliverMessage builder logging g seenNodes { m with srcNodeId := k }

/-- There is a node other than two given ones. -/
theorem exists_ne_ne (a b : UInt32) : ∃ t : UInt32, t ≠ a ∧ t ≠ b := by
  by_cases h0 : (0 : UInt32) ≠ a ∧ (0 : UInt32) ≠ b
  · exact ⟨0, h0⟩
  · by_cases h1 : (1 : UInt32) ≠ a ∧ (1 : UInt32) ≠ b
    · exact ⟨1, h1⟩
    · -- 0 and 1 are the two
      refine ⟨2, ?_, ?_⟩
      · rintro rfl
        grind
      · rintro rfl
        grind

/-- Without a topology the message reaches some node, whoever it is said to come from. -/
theorem exists_target (m : CoordMessage) (k : UInt32) :
    ∃ seenNodes t, targetNodes TopologyGraph.default seenNodes m = [t] ∧
      targetNodes TopologyGraph.default seenNodes { m with srcNodeId := k } = [t] := by
  by_cases hm : m.dstNodeId = broadcast
  · obtain ⟨t, ht, htk⟩ := exists_ne_ne m.srcNodeId k
    refine ⟨[t], t, ?_, ?_⟩
    · rw [targetNodes_default_broadcast hm]
      simp [ht]
    · rw [targetNodes_default_broadcast (by exact hm)]
      simp [htk]
  · exact ⟨[], m.dstNodeId, targetNodes_default_unicast hm [], targetNodes_default_unicast hm []⟩

/-- Only a message that names `k` as its source is treated as one of `k`. -/
theorem routedAs_iff (builder : Rf802154HeaderBuilder) (logging : Bool) (k : UInt32)
    (m : CoordMessage) : RoutedAs builder logging k m ↔ m.srcNodeId = k := by
  constructor
  · intro h
    obtain ⟨seenNodes, t, ht, ht'⟩ := exists_target m k
    have heffects := h TopologyGraph.default seenNodes
    rw [deliverMessage_eq, deliverMessage_eq, ht, ht', flatMap_singleton, flatMap_singleton] at heffects
    -- the first put of the delivery carries the source
    have hputs := append_inj_right' heffects rfl
    exact srcNodeId_of_encodeMessage (Effect.put.inj (List.cons.inj hputs).1).2
  · rintro rfl g seenNodes
    rfl

/-! ## From the report to the batch -/

/-- What the barrier keeps of a report. -/
def keptOf (args : Args) (env : Externals) (topo : TopologyGraph) (pre : List Sample) (k : UInt32)
    (payload : List UInt8) : List CoordMessage :=
  sortTruncate topo.maxMessagesPerNodePerQuantum
    (doneCall args env (loopAfter args env topo pre) k payload).messages

/-- The barrier accepts the report of node `k` at this point of the run. -/
def Accepts (args : Args) (env : Externals) (topo : TopologyGraph) (pre : List Sample) (k : UInt32)
    (payload : List UInt8) : Prop :=
  IsAccepted (entryAt QuantumBarrier.submitDone (loopAfter args env topo pre).barrier
    (doneCall args env (loopAfter args env topo pre) k payload)) = true

section

variable {pre : List Sample} {topic : String} {payload : List UInt8} {k : UInt32}

/-- An accepted report stays among the accepted ones. -/
theorem Accepts.mem_accepted (h : Accepts args env topo pre k payload)
    (hid : parseDoneTopic topic = some k) (post : List Sample) :
    doneCall args env (loopAfter args env topo pre) k payload ∈
      accepted (loopBarrierRun args env topo (pre ++ .done topic payload :: post)) := by
  obtain ⟨es, hes⟩ := @loopBarrierRun_append args env topo (pre ++ [.done topic payload]) post
  rw [append_cons, hes, loopBarrierRun_concat, callOf_done hid, map_some,
    toList_some, append_assoc, accepted, filter_append, map_append,
    singleton_append, filter_cons_of_pos h]
  exact mem_append_right _ mem_cons_self

theorem mem_messages_of_mem_keptOf (h : m ∈ keptOf args env topo pre k payload) :
    m ∈ (doneCall args env (loopAfter args env topo pre) k payload).messages :=
  mem_sort.mp (mem_of_mem_take h)

end

/-- **Exactly when a report is authentic.** Take any run, in it a report on the DONE topic of node `k`
that the barrier accepts, with any list of batched messages in either encoding, and the batch released
for its quantum. The messages kept of the report are all in the batch, and they are routed, sent and
logged as messages of `k` if and only if every message of the list that is kept names `k` as its
source; nothing checks that it does. -/
theorem sourceAuthentic_iff (args : Args) (env : Externals) (topo : TopologyGraph)
    (pre post : List Sample) {topic : String} {payload : List UInt8} {k : UInt32}
    (hid : parseDoneTopic topic = some k) (haccepts : Accepts args env topo pre k payload)
    {batch : List CoordMessage} (hbatch : ((doneRequest env payload).quantum.toNat, batch) ∈
      released (loopBarrierRun args env topo (pre ++ .done topic payload :: post))) :
    (∀ m ∈ keptOf args env topo pre k payload, m ∈ batch ∧ RoutedAs env.rf802154Builder args.pcapLog k m) ↔
    ∀ m ∈ (doneRequest env payload).batchedMsgs, m ∈ keptOf args env topo pre k payload →
      m.srcNodeId = k := by
  constructor
  · intro h m _ hkept
    exact (routedAs_iff _ _ k m).mp (h m hkept).2
  · intro h m hkept
    refine ⟨mem_released_of_accepted (haccepts.mem_accepted hid post) hkept hbatch, ?_⟩
    rw [routedAs_iff]
    -- frames name their node by themselves
    rcases fromFrame_or_batched (mem_messages_of_mem_keptOf hkept) with hframe | hbatched
    · exact hframe.1
    · exact h m hbatched hkept

/-- Three nodes, a log. -/
def trioArgs : Args := ⟨3, false, 1000000, true⟩

/-- A UART between the nodes 0 and 2; node 1 is connected to nobody. -/
def trioGraph : TopologyGraph :=
  { TopologyGraph.default with isExplicit := true, wireLinks := [⟨.uart, [0, 2], none⟩] }

/-- The report of a node for quantum 1 with one batched message. -/
def reportWith (m : CoordMessage) : List UInt8 :=
  leBytes 8 1 ++ leBytes 8 0 ++ leBytes 4 1 ++ encodeMessage m

/-- The report of a node for quantum 1 without messages. -/
def emptyReport : List UInt8 := leBytes 8 1 ++ leBytes 8 0

/-- A UART message from node 0 to node 2. -/
def trioMessage : CoordMessage := ⟨0, 2, 5, 1, .uart, [66], none⟩

/-- Node 0 batches the message itself. -/
theorem sourceAuthentic_trio :
    trioMessage ∈ keptOf trioArgs plainExternals trioGraph [] 0 (reportWith trioMessage) ∧
    ∀ m ∈ keptOf trioArgs plainExternals trioGraph [] 0 (reportWith trioMessage), m ∈ [trioMessage] ∧
        RoutedAs plainExternals.rf802154Builder trioArgs.pcapLog 0 m :=
  ⟨by decide +kernel, (sourceAuthentic_iff trioArgs plainExternals trioGraph []
    [.done "sim/coord/1/done" emptyReport, .done "sim/coord/2/done" emptyReport]
    (show parseDoneTopic "sim/coord/0/done" = some 0 by decide +kernel)
    (show IsAccepted _ = true by decide +kernel) (by decide +kernel)).mpr (by decide +kernel)⟩

/-- Node 1 batches the message in the name of node 0, and the coordinator sends it to node 2 and logs
it, over a link node 1 does not have. -/
theorem not_sourceAuthentic_trio : parseDoneTopic "sim/coord/1/done" = some 1 ∧
    (doneRequest plainExternals (reportWith trioMessage)).batchedMsgs = [trioMessage] ∧
    trioMessage.srcNodeId = 0 ∧ trioGraph.isLinkAllowed 1 2 .uart = false ∧
    releaseOf trioArgs plainExternals (loopAfter trioArgs plainExternals trioGraph
      [.done "sim/coord/1/done" (reportWith trioMessage), .done "sim/coord/0/done" emptyReport])
      (.done "sim/coord/2/done" emptyReport) = some [trioMessage] ∧
    Effect.put "sim/coord/2/rx" (encodeMessage trioMessage) ∈ loopEffects trioArgs plainExternals
      trioGraph [.done "sim/coord/1/done" (reportWith trioMessage),
        .done "sim/coord/0/done" emptyReport, .done "sim/coord/2/done" emptyReport] ∧
    Effect.pcap (MessageLog.writeMessage trioMessage) ∈ loopEffects trioArgs plainExternals
      trioGraph [.done "sim/coord/1/done" (reportWith trioMessage),
        .done "sim/coord/0/done" emptyReport, .done "sim/coord/2/done" emptyReport] := by
  refine ⟨?_, ?_, ?_, ?_, ?_, ?_, ?_⟩ <;> decide +kernel

end Virtmcu.DeterministicCoordinator
