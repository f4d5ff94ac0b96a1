import Virtmcu.DeterministicCoordinator.Topics
import Virtmcu.DeterministicCoordinator.Topology
import Virtmcu.DeterministicCoordinator.Wire

/-! # Delivery

`deliver_message`: the targets of a message under the topology and the nodes seen so far, and what is
sent to each of them. The router's `put` and the log are the only things a delivery does to the outside
world; a delivery is the list of these effects in order. -/

namespace Virtmcu.DeterministicCoordinator

/-- What the coordinator does to the outside world. -/
inductive Effect
  /-- `session.put(topic, payload)`. -/
  | put (topic : String) (payload : List UInt8)
  /-- A record appended to the PCAP log. -/
  | pcap (record : List UInt8)
  /-- `log.flush()`. -/
  | flush
  deriving DecidableEq, Repr

/-- The link carries the protocol and contains the source. -/
def WireLink.carries (link : WireLink) (protocol : Protocol) (src : UInt32) : Bool :=
  link.protocol = protocol ∧ src ∈ link.nodes

/-- The targets of a broadcast over explicit wires: all other nodes of every matching link, link after
link. -/
def TopologyGraph.wireTargets (g : TopologyGraph) (src : UInt32) (protocol : Protocol) :
    List UInt32 :=
  (g.wireLinks.filter fun link => link.carries protocol src).flatMap fun link =>
    link.nodes.filter (· ≠ src)

/-- `target_nodes` of `deliver_message`. `seenNodes` are the nodes in the iteration order of the
hash set. -/
def targetNodes (g : TopologyGraph) (seenNodes : List UInt32) (msg : CoordMessage) : List UInt32 :=
  if msg.dstNodeId = broadcast then
    if !g.isExplicit then
      seenNodes.filter fun nid =>
        nid ≠ msg.srcNodeId ∧ g.isLinkAllowed msg.srcNodeId nid msg.protocol
    -- the two arms of an explicit topology do not ask the link predicate
    else if msg.protocol.isWireless then g.rfNeighbors msg.srcNodeId
    else g.wireTargets msg.srcNodeId msg.protocol
  else if g.isLinkAllowed msg.srcNodeId msg.dstNodeId msg.protocol then [msg.dstNodeId]
  else []

/-- The topic of the second, legacy put: built from the base topic of the sender when there is one. -/
def legacyRxTopic (msg : CoordMessage) (target : UInt32) : String :=
  let node := nodeIdString target
  match msg.baseTopic with
  | some base => base ++ "/" ++ node ++ "/rx"
  | none =>
      match msg.protocol with
      | .ethernet => Templates.ethRx node
      | .uart => Templates.uartRx node
      | .canFd => Templates.canRx node
      | .lin => Templates.linRx node
      | .spi => Templates.spiBase "default" node ++ "/rx"
      | .rf802154 => Templates.rfIeee802154Rx node
      | .rfHci => Templates.rfHciRx node
      | _ => "sim/unknown/" ++ node ++ "/rx"

/-- The payload of the legacy put. -/
def legacyPayload (builder : Rf802154HeaderBuilder) (msg : CoordMessage) : List UInt8 :=
  match msg.protocol with
  | .rf802154 =>
      encodeRf802154Frame builder msg.deliveryVtimeNs msg.sequenceNumber msg.payload (-80) 255
  | .lin | .canFd | .flexRay => msg.payload
  | _ => encodeFrame msg.deliveryVtimeNs msg.sequenceNumber msg.payload

/-- One turn of the loop over the targets. The log, when there is one, and the first put carry the
target in place of the destination. -/
def deliverTo (builder : Rf802154HeaderBuilder) (logging : Bool) (msg : CoordMessage)
    (target : UInt32) : List Effect :=
  let outMsg := { msg with dstNodeId := target }
  (if logging then [.pcap (MessageLog.writeMessage outMsg)] else []) ++
    [.put (Templates.coordRx (nodeIdString target)) (encodeMessage outMsg),
     .put (legacyRxTopic msg target) (legacyPayload builder msg)]

/-- `deliver_message`. Its early return for a unicast without target agrees with the empty loop. -/
def deliverMessage (builder : Rf802154HeaderBuilder) (logging : Bool) (g : TopologyGraph)
    (seenNodes : List UInt32) (msg : CoordMessage) : List Effect :=
  let targets := targetNodes g seenNodes msg
  if targets.isEmpty ∧ msg.dstNodeId ≠ broadcast then []
  else targets.flatMap (deliverTo builder logging msg)

/-- The delivery loop over a sorted batch. -/
def deliverBatch (builder : Rf802154HeaderBuilder) (logging : Bool) (g : TopologyGraph)
    (seenNodes : List UInt32) (msgs : List CoordMessage) : List Effect :=
  msgs.flatMap (deliverMessage builder logging g seenNodes)

def Effect.isPut : Effect → Bool
  | .put _ _ => true
  | _ => false

/-- The puts of a message to a target: one in the format of the coordinator and one in that of the
protocol. -/
def putsTo (builder : Rf802154HeaderBuilder) (msg : CoordMessage) (target : UInt32) : List Effect :=
  [.put (Templates.coordRx (nodeIdString target)) (encodeMessage { msg with dstNodeId := target }),
   .put (legacyRxTopic msg target) (legacyPayload builder msg)]

/-- The puts that messages call for, to all their targets. -/
def batchPuts (builder : Rf802154HeaderBuilder) (g : TopologyGraph) (seenNodes : List UInt32)
    (msgs : List CoordMessage) : List Effect :=
  msgs.flatMap fun msg => (targetNodes g seenNodes msg).flatMap (putsTo builder msg)

/-! ## Deliveries as pairs of a receiver and a message -/

/-- The turns of the delivery loops: for every message its targets in order. -/
def deliveries (g : TopologyGraph) (seenNodes : List UInt32) (msgs : List CoordMessage) :
    List (UInt32 × CoordMessage) :=
  msgs.flatMap fun msg => (targetNodes g seenNodes msg).map fun target => (target, msg)

/-- What is sent to one receiver, in send order. -/
def sentTo (g : TopologyGraph) (seenNodes : List UInt32) (receiver : UInt32)
    (msgs : List CoordMessage) : List CoordMessage :=
  ((deliveries g seenNodes msgs).filter fun d => d.1 = receiver).map Prod.snd

section

variable (builder : Rf802154HeaderBuilder) (logging : Bool) (g : TopologyGraph)
  (seenNodes : List UInt32)

theorem deliverMessage_eq (msg : CoordMessage) : deliverMessage builder logging g seenNodes msg =
    (targetNodes g seenNodes msg).flatMap (deliverTo builder logging msg) := by
  unfold deliverMessage
  by_cases h : (targetNodes g seenNodes msg).isEmpty
  · rw [List.isEmpty_iff.mp h]
    simp
  · simp [h]

/-- The effects of a batch are those of its deliveries. -/
theorem deliverBatch_eq (msgs : List CoordMessage) : deliverBatch builder logging g seenNodes msgs =
    (deliveries g seenNodes msgs).flatMap fun d => deliverTo builder logging d.2 d.1 := by
  unfold deliverBatch deliveries
  rw [List.flatMap_assoc]
  congr 1
  funext msg
  rw [deliverMessage_eq, List.flatMap_map]

/-- A batch is put as it should be. -/
theorem filter_isPut_deliverBatch (msgs : List CoordMessage) :
    (deliverBatch builder logging g seenNodes msgs).filter Effect.isPut =
      batchPuts builder g seenNodes msgs := by
  have hto (msg : CoordMessage) : (fun target => (deliverTo builder logging msg target).filter
      Effect.isPut) = putsTo builder msg := by
    cases logging <;> rfl
  simp only [deliverBatch, batchPuts, List.filter_flatMap, deliverMessage_eq, hto]

/-- Nothing of a batch is lost in sorting it. -/
theorem deliverBatch_sort_perm (batch : List CoordMessage) :
    ((deliverBatch builder logging g seenNodes (sort batch)).filter Effect.isPut).Perm
      (batchPuts builder g seenNodes batch) := by
  rw [filter_isPut_deliverBatch]
  exact (sortBy_perm _ batch).flatMap_right _

end

/-! ## What one receiver is sent -/

section

variable {g : TopologyGraph} {seenNodes : List UInt32} {r : UInt32} {m : CoordMessage}
  {l : List CoordMessage}

theorem mem_sentTo : m ∈ sentTo g seenNodes r l ↔ m ∈ l ∧ r ∈ targetNodes g seenNodes m := by
  simp [sentTo, deliveries, and_comm]

theorem sentTo_cons :
    sentTo g seenNodes r (m :: l) = sentTo g seenNodes r [m] ++ sentTo g seenNodes r l := by
  simp [sentTo, deliveries]

/-- A receiver is sent a single message as often as it occurs among the targets. -/
theorem sentTo_singleton :
    sentTo g seenNodes r [m] = List.replicate ((targetNodes g seenNodes m).count r) m := by
  rw [List.eq_replicate_iff]
  constructor
  · rw [List.count_eq_length_filter]
    simp [sentTo, deliveries, List.filter_map, Function.comp_def, beq_eq_decide]
  · intro m' hm'
    exact List.mem_singleton.mp (mem_sentTo.mp hm').1

/-- Every copy of a message is sent to a receiver as often as the receiver is a target. -/
theorem count_sentTo :
    (sentTo g seenNodes r l).count m = l.count m * (targetNodes g seenNodes m).count r := by
  induction l with
  | nil => simp [sentTo, deliveries]
  | cons m' l ih =>
    rw [sentTo_cons, List.count_append, ih, sentTo_singleton, List.count_replicate, List.count_cons]
    by_cases hm : m' = m
    · subst hm
      simp [Nat.add_mul, Nat.add_comm]
    · simp [hm]

end

/-! ## The targets, kind by kind -/

section

variable {g : TopologyGraph} {src dst : UInt32} {p : Protocol}

theorem mem_wireTargets {t : UInt32} : t ∈ g.wireTargets src p ↔
    t ≠ src ∧ ∃ link ∈ g.wireLinks, link.joins p src t = true := by
  simp only [TopologyGraph.wireTargets, WireLink.carries, WireLink.joins, List.mem_flatMap,
    List.mem_filter, decide_eq_true_eq]
  constructor
  · rintro ⟨link, ⟨hlink, hp, hsrc⟩, ht, hne⟩
    exact ⟨hne, link, hlink, hp, hsrc, ht⟩
  · rintro ⟨hne, link, hlink, hp, hsrc, ht⟩
    exact ⟨link, ⟨hlink, hp, hsrc⟩, ht, hne⟩

theorem mem_rfNeighbors {t : UInt32} : t ∈ g.rfNeighbors src ↔
    g.wirelessMedium.isSome ∧ t ≠ src ∧ ∃ pos pos', g.nodePositions.get src = some pos ∧
      g.nodePositions.get t = some pos' ∧
      TopologyGraph.withinRange g.maxWirelessRangeM pos pos' = true := by
  unfold TopologyGraph.rfNeighbors
  cases hm : g.wirelessMedium with
  | none => simp
  | some medium =>
    cases hpos : g.nodePositions.get src with
    | none => simp
    | some pos => simp [HashMap.get_eq_some_iff, and_comm, and_left_comm]

/-- A node has at most one position, so it is a neighbour at most once. -/
theorem nodup_rfNeighbors : (g.rfNeighbors src).Nodup := by
  unfold TopologyGraph.rfNeighbors
  split
  · exact List.nodup_nil
  · split
    · exact List.nodup_nil
    · exact g.nodePositions.nodup.sublist (List.filter_sublist.map Prod.fst)

/-- Every delivery topic is a data topic. -/
theorem isRxTopic_of_mem_deliverTo {builder : Rf802154HeaderBuilder} {logging : Bool}
    {msg : CoordMessage} {target : UInt32} {topic : String} {payload : List UInt8}
    (h : Effect.put topic payload ∈ deliverTo builder logging msg target) : IsRxTopic topic := by
  have htopic : topic = Templates.coordRx (nodeIdString target) ∨ topic = legacyRxTopic msg target := by
    rcases List.mem_append.mp h with hlog | hput
    · split at hlog
      · exact absurd (List.mem_singleton.mp hlog) Effect.noConfusion
      · exact absurd hlog List.not_mem_nil
    · rcases List.mem_pair.mp hput with hfirst | hsecond
      · exact .inl (Effect.put.inj hfirst).1
      · exact .inr (Effect.put.inj hsecond).1
  rcases htopic with rfl | rfl
  · exact ⟨_, rfl⟩
  · unfold legacyRxTopic
    cases msg.baseTopic with
    | some base => exact ⟨_, rfl⟩
    | none => cases msg.protocol <;> exact ⟨_, rfl⟩

end

end Virtmcu.DeterministicCoordinator
