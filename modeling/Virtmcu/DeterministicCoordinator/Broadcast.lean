import Virtmcu.DeterministicCoordinator.Routing
import Virtmcu.DeterministicCoordinator.TopicAgreement

/-! # Whom a broadcast reaches

What one turn of the event loop delivers, and to whom. A turn hands messages to `deliver_message` one
after the other (`handedOver`); everything else it does is to flush the log and to send START
(`loopStep_output`). The nodes a broadcast is put to are then read off the topics of its puts
(`PutTo`): without a topology these are the nodes seen so far but the source, in an explicit topology the
nodes the link test allows (`broadcast_reaches_exactly`). -/

namespace Virtmcu.DeterministicCoordinator

open List

/-! ## The receiver of a put -/

/-- The topic is a receive topic of the node: some base, the node, `rx`. -/
def IsRxTopicOf (t : UInt32) (topic : String) : Prop :=
  ∃ base : String, topic = base ++ "/" ++ nodeIdString t ++ "/rx"

/-- The effects put something to the node. -/
def PutTo (effects : List Effect) (t : UInt32) : Prop :=
  ∃ topic payload, Effect.put topic payload ∈ effects ∧ IsRxTopicOf t topic

/-- A topic is a receive topic of one node only. -/
theorem IsRxTopicOf.unique {s t : UInt32} {topic : String} (hs : IsRxTopicOf s topic)
    (ht : IsRxTopicOf t topic) : s = t := by
  obtain ⟨base, rfl⟩ := hs
  obtain ⟨base', h⟩ := ht
  have hcut : base ++ "/" ++ nodeIdString s = base' ++ "/" ++ nodeIdString t := by
    have hlist := congrArg String.toList h
    rw [String.toList_append, String.toList_append (t := "/rx")] at hlist
    exact String.toList_injective (append_cancel_right hlist)
  -- the node is the last segment in front of `rx`
  have hlast := congrArg (fun topic => (split '/' topic).getLast?) hcut
  simp only [split_append '/' _ _ "/" rfl, split_nodeIdString, getLast?_concat,
    Option.some.injEq] at hlast
  exact UInt32.toNat_inj.mp (toString_nat_injective hlast)

theorem isRxTopicOf_coordRx (t : UInt32) : IsRxTopicOf t (Templates.coordRx (nodeIdString t)) :=
  ⟨"sim/coord", rfl⟩

/-- The legacy topic names the same node, whatever its base. -/
theorem isRxTopicOf_legacyRxTopic (msg : CoordMessage) (t : UInt32) :
    IsRxTopicOf t (legacyRxTopic msg t) := by
  unfold legacyRxTopic
  cases msg.baseTopic with
  | some base => exact ⟨base, rfl⟩
  | none =>
    cases msg.protocol with
    | ethernet => exact ⟨"sim/eth/frame", rfl⟩
    | uart => exact ⟨"virtmcu/uart", rfl⟩
    | canFd => exact ⟨"sim/can", rfl⟩
    | lin => exact ⟨"sim/lin", rfl⟩
    | spi => exact ⟨"sim/spi/" ++ "default", rfl⟩
    | rf802154 => exact ⟨"sim/rf/ieee802154", rfl⟩
    | rfHci => exact ⟨"sim/rf/hci", rfl⟩
    | flexRay | control => exact ⟨"sim/unknown", rfl⟩

section

variable {builder : Rf802154HeaderBuilder} {logging : Bool} {g : TopologyGraph}
  {seenNodes : List UInt32} {msg : CoordMessage} {t : UInt32}

/-- Both puts of a turn of the loop over the targets go to the target. -/
theorem isRxTopicOf_of_mem_deliverTo {topic : String} {payload : List UInt8}
    (h : Effect.put topic payload ∈ deliverTo builder logging msg t) : IsRxTopicOf t topic := by
  rcases mem_append.mp h with hlog | hput
  · split at hlog
    · exact absurd (mem_singleton.mp hlog) Effect.noConfusion
    · exact absurd hlog not_mem_nil
  · rcases mem_pair.mp hput with hfirst | hsecond
    · rw [(Effect.put.inj hfirst).1]
      exact isRxTopicOf_coordRx t
    · rw [(Effect.put.inj hsecond).1]
      exact isRxTopicOf_legacyRxTopic msg t

/-- **A message is put to its targets and to no other node.** -/
theorem putTo_deliverMessage_iff :
    PutTo (deliverMessage builder logging g seenNodes msg) t ↔ t ∈ targetNodes g seenNodes msg := by
  rw [deliverMessage_eq]
  constructor
  · rintro ⟨topic, payload, hput, htopic⟩
    obtain ⟨target, htarget, hput⟩ := mem_flatMap.mp hput
    rwa [htopic.unique (isRxTopicOf_of_mem_deliverTo hput)]
  · intro ht
    refine ⟨_, encodeMessage { msg with dstNodeId := t }, ?_, isRxTopicOf_coordRx t⟩
    refine mem_flatMap.mpr ⟨t, ht, mem_append_right _ mem_cons_self⟩

/-- The targets of a broadcast without a topology and without dropped links. -/
theorem mem_targetNodes_of_implicit (hg : g.isExplicit = false) (hdrop : g.dropList = ∅)
    (hm : msg.dstNodeId = broadcast) :
    t ∈ targetNodes g seenNodes msg ↔ t ∈ seenNodes ∧ t ≠ msg.srcNodeId := by
  simp [targetNodes, hm, hg, TopologyGraph.isLinkAllowed, TopologyGraph.isDropped, hdrop]

/-- The targets of a broadcast in an explicit topology without dropped links. -/
theorem mem_targetNodes_of_explicit (hg : g.isExplicit = true) (hdrop : g.dropList = ∅)
    (hm : msg.dstNodeId = broadcast) : t ∈ targetNodes g seenNodes msg ↔
      t ≠ msg.srcNodeId ∧ g.isLinkAllowed msg.srcNodeId t msg.protocol = true := by
  have hnot : g.isDropped msg.srcNodeId t = false := by simp [TopologyGraph.isDropped, hdrop]
  rw [mem_targetNodes_broadcast hg hm, isLinkAllowed_of_explicit hg]
  simp [hnot]

end

/-! ## What a turn of the loop delivers -/

section Turn

variable (args : Args) (env : Externals)

/-- The messages a turn hands to `deliver_message`, in order: a frame that is not coordinated, or the
sorted batch of a released quantum. -/
def handedOver (s : LoopState args.nodes) (x : Sample) : List CoordMessage :=
  match x with
  | .tx topic payload =>
      if args.noPdes then ((txMessage args env topic payload).bind Prod.snd).toList else []
  | .ctrl _ => []
  | .done _ _ => ((releaseOf args env s x).map sort).getD []

/-- What a turn does after its deliveries: a released quantum flushes the log and starts the next one. -/
def afterDelivery (s : LoopState args.nodes) (x : Sample) : List Effect :=
  match releaseOf args env s x with
  | some _ => (if args.pcapLog then [.flush] else []) ++ startEffects args.nodes (s.currentQuantum + 1)
  | none => []

/-- The node a sample names in its topic. -/
def namedNode : Sample → Option UInt32
  | .tx topic _ => (parseLegacyTopic topic).map fun r => r.2.1
  | .ctrl _ => none
  | .done topic _ => parseDoneTopic topic

variable {args env} {s : LoopState args.nodes}

/-- The seen nodes grow by the node of the topic, readable payload or not. -/
theorem loopStep_seenNodes (x : Sample) : (loopStep args env s x).1.seenNodes =
    ((namedNode x).map s.seenNodes.insert).getD s.seenNodes := by
  cases x with
  | tx topic payload =>
    show (handleTx args env s topic payload).1.seenNodes = _
    simp only [handleTx, txMessage, namedNode]
    cases parseLegacyTopic topic with
    | none => rfl
    | some r =>
      simp only [Option.map_some, Option.getD_some]
      split
      · rfl
      · split <;> rfl
  | ctrl payload =>
    show (handleCtrl args env s payload).seenNodes = s.seenNodes
    unfold handleCtrl
    split
    · rfl
    · split <;> rfl
  | done topic payload =>
    show (handleDone args env s topic payload).1.seenNodes = _
    simp only [handleDone, namedNode]
    cases parseDoneTopic topic with
    | none => rfl
    | some nodeId =>
      simp only [Option.map_some, Option.getD_some]
      split <;> rfl

/-- **What a turn does**: it delivers what is handed over to the nodes seen by then, and a released
quantum is followed by its flush and its START messages. -/
theorem loopStep_output (x : Sample) : (loopStep args env s x).2 =
    deliverBatch env.rf802154Builder args.pcapLog s.topo
      (env.seenOrder.visit (loopStep args env s x).1.seenNodes.toList) (handedOver args env s x) ++
    afterDelivery args env s x := by
  rw [loopStep_seenNodes]
  cases x with
  | tx topic payload =>
    have hafter : afterDelivery args env s (.tx topic payload) = [] := rfl
    rw [hafter, append_nil]
    show (handleTx args env s topic payload).2 = _
    simp only [handleTx, handedOver, namedNode, txMessage]
    cases parseLegacyTopic topic with
    | none => cases args.noPdes <;> rfl
    | some r =>
      obtain ⟨proto, nodeId, base⟩ := r
      simp only [Option.map_some, Option.getD_some, Option.bind_some]
      cases decodeTx env proto payload with
      | none => cases args.noPdes <;> rfl
      | some frame =>
        simp only [Option.map_some]
        cases args.noPdes with
        | false => rfl
        | true => exact (append_nil _).symm
  | ctrl payload => rfl
  | done topic payload =>
    show (handleDone args env s topic payload).2 = _
    simp only [handleDone, handedOver, namedNode, afterDelivery, releaseOf, callOf]
    cases parseDoneTopic topic with
    | none => rfl
    | some nodeId =>
      simp only [Option.map_some, Option.getD_some, Option.bind_some]
      split
      · next barrier sortedMsgs hsubmit =>
          rw [hsubmit]
          exact append_assoc _ _ _
      · next barrier hsubmit =>
          rw [hsubmit]
          rfl
      · next barrier e hsubmit =>
          rw [hsubmit]
          rfl

end Turn

/-! ## The nodes seen so far -/

/-- The node has been seen: it is one of the first `nodes` numbers, or a sample so far names it. -/
def SeenBy (nodes : Nat) (samples : List Sample) (t : UInt32) : Prop :=
  (∃ i < nodes, i.toUInt32 = t) ∨ ∃ x ∈ samples, namedNode x = some t

section Run

variable (args : Args) (env : Externals) (topo : TopologyGraph)

/-- The loop keeps exactly the nodes seen so far. -/
theorem mem_seenNodes_loopAfter (samples : List Sample) (t : UInt32) :
    t ∈ (loopAfter args env topo samples).seenNodes.toList ↔ SeenBy args.nodes samples t := by
  induction samples using reverseRecOn with
  | nil =>
    show t ∈ (initialSeen args.nodes).toList ↔ _
    simp [initialSeen, HashSet.mem_ofList, SeenBy]
  | append_singleton samples x ih =>
    -- the last sample names one more node or none
    have hstep : t ∈ (loopAfter args env topo (samples ++ [x])).seenNodes.toList ↔
        t ∈ (loopAfter args env topo samples).seenNodes.toList ∨ namedNode x = some t := by
      rw [loopAfter_concat, loopStep_seenNodes]
      cases namedNode x with
      | none => simp
      | some nodeId => simp [HashSet.mem_insert, eq_comm]
    rw [hstep, ih, SeenBy, SeenBy, or_assoc]
    simp [or_and_right, exists_or]

/-- **A broadcast reaches exactly the allowed nodes.** After any run, in a turn in which nothing is on
the drop list, `deliver_message` puts a broadcast to the nodes seen so far but the source when there is
no topology, and in an explicit topology to the other nodes the link test allows, over wires and over the
air. What it puts is what the turn puts for each message that is handed over. -/
theorem broadcast_reaches_exactly (samples : List Sample) (x : Sample) (m : CoordMessage)
    (hm : m.dstNodeId = broadcast) (hdrop : (loopAfter args env topo samples).topo.dropList = ∅) :
    let s := loopAfter args env topo samples
    let seenNodes := (loopAfter args env topo (samples ++ [x])).seenNodes
    let effects := deliverMessage env.rf802154Builder args.pcapLog s.topo
      (env.seenOrder.visit seenNodes.toList) m
    (m ∈ handedOver args env s x → effects <:+: (loopStep args env s x).2) ∧
    (s.topo.isExplicit = false → ∀ t, PutTo effects t ↔
      SeenBy args.nodes (samples ++ [x]) t ∧ t ≠ m.srcNodeId) ∧
    (s.topo.isExplicit = true → ∀ t, PutTo effects t ↔
      t ≠ m.srcNodeId ∧ s.topo.isLinkAllowed m.srcNodeId t m.protocol = true) := by
  intro s seenNodes effects
  refine ⟨?_, ?_, ?_⟩
  · intro hmem
    obtain ⟨pre, post, hsplit⟩ := List.append_of_mem hmem
    rw [loopStep_output, ← loopAfter_concat, hsplit]
    refine ⟨deliverBatch env.rf802154Builder args.pcapLog s.topo
      (env.seenOrder.visit seenNodes.toList) pre, deliverBatch env.rf802154Builder args.pcapLog s.topo
      (env.seenOrder.visit seenNodes.toList) post ++ afterDelivery args env s x, ?_⟩
    simp only [deliverBatch, List.flatMap_append, List.flatMap_cons, List.append_assoc]
    rfl
  · intro himplicit t
    rw [putTo_deliverMessage_iff, mem_targetNodes_of_implicit himplicit hdrop hm,
      (env.seenOrder.visit_perm _).mem_iff, mem_seenNodes_loopAfter]
  · intro hexplicit t
    rw [putTo_deliverMessage_iff, mem_targetNodes_of_explicit hexplicit hdrop hm]

end Run

/-- Two nodes without coordination. -/
def looseArgs : Args := ⟨2, true, 1000000, false⟩

/-- A frame of node 7, which the command line does not know. -/
def strangerFrame : Sample := .tx "sim/uart/7/tx" (encodeFrame 0 1 [7])

/-- The message made of it. -/
def strangerMessage : CoordMessage := ⟨7, broadcast, 1000000, 1, .uart, [7], some "sim/uart"⟩

/-- The frame goes to nodes 0 and 1 and not back. -/
theorem broadcast_reaches_exactly_stranger : strangerMessage ∈ handedOver looseArgs plainExternals
      (loopAfter looseArgs plainExternals TopologyGraph.default []) strangerFrame ∧
    ∀ t, PutTo (deliverMessage plainExternals.rf802154Builder false TopologyGraph.default
      (plainExternals.seenOrder.visit
        (loopAfter looseArgs plainExternals TopologyGraph.default [strangerFrame]).seenNodes.toList)
      strangerMessage) t ↔ SeenBy 2 [strangerFrame] t ∧ t ≠ 7 :=
  ⟨by decide +kernel, (broadcast_reaches_exactly looseArgs plainExternals TopologyGraph.default []
    strangerFrame strangerMessage rfl rfl).2.1 rfl⟩

end Virtmcu.DeterministicCoordinator
