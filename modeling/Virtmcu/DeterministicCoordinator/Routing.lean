import Virtmcu.DeterministicCoordinator.Delivery
import Virtmcu.DeterministicCoordinator.TopologyLoad

/-! # Routing under a loaded topology

Two promises of the router, each with the exact set of inputs on which `deliver_message` keeps it.
Links are enforced everywhere except for a broadcast over an explicit topology, which expands the
links or the radio neighbourhood without looking at the drop list (`targets_allowed_iff`). A message
reaches a receiver at most once except for a broadcast over wires whose links overlap or repeat a node
(`sentTo_at_most_once_iff`). -/

namespace Virtmcu.DeterministicCoordinator

open List

/-! ## Links without the drop list -/

/-- The topology itself joins the two nodes for the protocol, whatever the drop list says. -/
def TopologyGraph.connects (g : TopologyGraph) (src dst : UInt32) (protocol : Protocol) : Bool :=
  if protocol.isWireless then decide (dst ∈ g.rfNeighbors src)
  else g.wireLinks.any fun link => link.joins protocol src dst

section

variable {g : TopologyGraph} {src t : UInt32} {p : Protocol} {msg : CoordMessage}
  {seenNodes : List UInt32}

theorem isLinkAllowed_of_explicit (hg : g.isExplicit = true) :
    g.isLinkAllowed src t p = true ↔ g.isDropped src t = false ∧ g.connects src t p = true := by
  unfold TopologyGraph.isLinkAllowed TopologyGraph.connects
  cases hd : g.isDropped src t <;> simp [hg]

theorem not_isDropped_of_isLinkAllowed (h : g.isLinkAllowed src t p = true) :
    g.isDropped src t = false := by
  by_contra hd
  rw [Bool.not_eq_false] at hd
  simp [TopologyGraph.isLinkAllowed, hd] at h

/-- A broadcast over an explicit topology goes to every connected node other than the source. -/
theorem mem_targetNodes_broadcast (hg : g.isExplicit = true) (hm : msg.dstNodeId = broadcast) :
    t ∈ targetNodes g seenNodes msg ↔
      t ≠ msg.srcNodeId ∧ g.connects msg.srcNodeId t msg.protocol = true := by
  unfold targetNodes TopologyGraph.connects
  rw [if_pos hm]
  simp only [hg, Bool.not_true, Bool.false_eq_true, if_false]
  split
  · rw [decide_eq_true_eq]
    constructor
    · intro ht
      exact ⟨(mem_rfNeighbors.mp ht).2.1, ht⟩
    · exact And.right
  · rw [mem_wireTargets, any_eq_true]

/-- Control updates do not change which nodes are connected. -/
theorem connects_applyUpdates (fromStr : String → Option JsonValue) (updates : List String) :
    (g.applyUpdates fromStr updates).connects src t p = g.connects src t p := by
  obtain ⟨drops, hdrops⟩ := @TopologyGraph.applyUpdates_dropList fromStr g updates
  rw [hdrops]
  rfl

theorem isExplicit_applyUpdates (fromStr : String → Option JsonValue) (updates : List String) :
    (g.applyUpdates fromStr updates).isExplicit = g.isExplicit := by
  obtain ⟨drops, hdrops⟩ := @TopologyGraph.applyUpdates_dropList fromStr g updates
  rw [hdrops]

/-- Every other kind of message only goes where the link predicate says. -/
theorem isLinkAllowed_of_mem_targetNodes (h : ¬ (msg.dstNodeId = broadcast ∧ g.isExplicit = true))
    (ht : t ∈ targetNodes g seenNodes msg) : g.isLinkAllowed msg.srcNodeId t msg.protocol = true := by
  unfold targetNodes at ht
  by_cases hm : msg.dstNodeId = broadcast
  · have hg : g.isExplicit = false := by
      by_contra hg
      exact h ⟨hm, by simpa using hg⟩
    rw [if_pos hm, hg] at ht
    have hmem := (mem_filter.mp ht).2
    rw [decide_eq_true_eq] at hmem
    exact hmem.2
  · rw [if_neg hm] at ht
    split at ht
    · rename_i hallowed
      rw [mem_singleton.mp ht]
      exact hallowed
    · exact absurd ht not_mem_nil

end

/-! ## Enforcement -/

section

variable {fromStr : String → Option Gen.World} {order : IterationOrder (UInt32 × Position)}
  {content : Option String} {g : TopologyGraph} {src t : UInt32} {p : Protocol}

/-- The link predicate of a freshly loaded explicit topology. -/
theorem isLinkAllowed_of_fromYaml (h : TopologyGraph.fromYaml fromStr order content = .ok g)
    (hg : g.isExplicit = true) : g.isLinkAllowed src t p = true ↔ g.connects src t p = true := by
  have hopen : g.isDropped src t = false := by
    simp [TopologyGraph.isDropped, TopologyGraph.dropList_of_fromYaml h]
  rw [isLinkAllowed_of_explicit hg, hopen]
  exact ⟨And.right, fun hconn => ⟨rfl, hconn⟩⟩

/-- What the link predicate says after a control history. -/
theorem lastDecisive_of_isLinkAllowed (h : TopologyGraph.fromYaml fromStr order content = .ok g)
    {jsonFromStr : String → Option JsonValue} {updates : List String}
    (hallowed : (g.applyUpdates jsonFromStr updates).isLinkAllowed src t p = true) :
    lastDecisive jsonFromStr src t updates ≠ some .block := by
  intro hblock
  have hopen := not_isDropped_of_isLinkAllowed hallowed
  rw [(TopologyGraph.isDropped_of_fromYaml h jsonFromStr updates src t).mpr hblock] at hopen
  exact absurd hopen (by decide)

theorem isLinkAllowed_applyUpdates (h : TopologyGraph.fromYaml fromStr order content = .ok g)
    (hg : g.isExplicit = true) (jsonFromStr : String → Option JsonValue) (updates : List String) :
    (g.applyUpdates jsonFromStr updates).isLinkAllowed src t p = true ↔
      lastDecisive jsonFromStr src t updates ≠ some .block ∧ g.connects src t p = true := by
  have hg' := (isExplicit_applyUpdates (g := g) jsonFromStr updates).trans hg
  have hdropped := TopologyGraph.isDropped_of_fromYaml h jsonFromStr updates src t
  rw [isLinkAllowed_of_explicit hg', connects_applyUpdates, ← Bool.not_eq_true, hdropped]

end

/-- **Exactly when the topology is enforced.** Take any topology loaded from YAML, any control
history after it and any message. Every target is allowed by the link predicate and is not cut off from
the source by its last decisive update, if and only if the message is not a broadcast over an explicit
topology that links the source to a node which the control history has cut off. -/
theorem targets_allowed_iff {fromStr : String → Option Gen.World}
    {order : IterationOrder (UInt32 × Position)} {content : Option String} {g : TopologyGraph}
    (h : TopologyGraph.fromYaml fromStr order content = .ok g)
    (jsonFromStr : String → Option JsonValue) (updates : List String) (seenNodes : HashSet UInt32)
    (msg : CoordMessage) : (∀ t ∈ targetNodes (g.applyUpdates jsonFromStr updates) seenNodes.toList msg,
      (g.applyUpdates jsonFromStr updates).isLinkAllowed msg.srcNodeId t msg.protocol = true ∧
        lastDecisive jsonFromStr msg.srcNodeId t updates ≠ some .block) ↔
    ¬ (msg.dstNodeId = broadcast ∧ g.isExplicit = true ∧ ∃ t, t ≠ msg.srcNodeId ∧
        g.isLinkAllowed msg.srcNodeId t msg.protocol = true ∧
        lastDecisive jsonFromStr msg.srcNodeId t updates = some .block) := by
  have hexp := isExplicit_applyUpdates (g := g) jsonFromStr updates
  by_cases hb : msg.dstNodeId = broadcast ∧ g.isExplicit = true
  · obtain ⟨hm, hg⟩ := hb
    simp only [mem_targetNodes_broadcast (hexp.trans hg) hm, connects_applyUpdates,
      isLinkAllowed_applyUpdates h hg, isLinkAllowed_of_fromYaml h hg]
    constructor
    · rintro hall ⟨-, -, t, hne, hconn, hblock⟩
      exact (hall t ⟨hne, hconn⟩).2 hblock
    · rintro hno t ⟨hne, hconn⟩
      have hopen : lastDecisive jsonFromStr msg.srcNodeId t updates ≠ some .block :=
        fun hblock => hno ⟨hm, hg, t, hne, hconn, hblock⟩
      exact ⟨⟨hopen, hconn⟩, hopen⟩
  · constructor
    · rintro - ⟨hm, hg, -⟩
      exact hb ⟨hm, hg⟩
    · intro _ t ht
      have hallowed := isLinkAllowed_of_mem_targetNodes (by rwa [hexp]) ht
      exact ⟨hallowed, lastDecisive_of_isLinkAllowed h hallowed⟩

/-! ## A world to try it on -/

/-- Two nodes on one UART. -/
def uartPairYaml : String :=
  "topology:\n  nodes:\n    - name: \"0\"\n    - name: \"1\"\n" ++
    "  links:\n    - type: uart\n      nodes: [0, 1]\n"

/-- The document the YAML parser reads there. -/
def uartPairWorld : Gen.World where
  peripherals := []
  topology := some {
    globalSeed := none
    links := [⟨none, [.integer 0, .integer 1], ⟨"uart", Gen.uart_mem_protocolPattern⟩⟩]
    maxMessagesPerNodePerQuantum := none
    nodes := [⟨.string "0"⟩, ⟨.string "1"⟩]
    transport := none
    wireless := none }

/-- A YAML parser that knows this document. -/
def uartPairParser (text : String) : Option Gen.World :=
  if text = uartPairYaml then some uartPairWorld else none

/-- The graph loaded from it. -/
def uartPairGraph : TopologyGraph where
  maxMessagesPerNodePerQuantum := 1024
  globalSeed := 0
  transport := .zenoh
  wireLinks := [⟨.uart, [0, 1], none⟩]
  wirelessMedium := none
  nodePositions := HashMap.empty
  maxWirelessRangeM := 0.0
  isExplicit := true
  dropList := ∅

theorem fromYaml_uartPair : TopologyGraph.fromYaml uartPairParser (.insertion _) (some uartPairYaml) =
    .ok uartPairGraph := by
  with_unfolding_all rfl

/-- The control message with which the test suite cuts node 0 off from node 1. -/
def cutUpdate : String := "\x7b\"from\": \"0\", \"to\": \"1\", \"drop_probability\": 1.0\x7d"

/-- A JSON parser that knows this message. -/
def cutParser (text : String) : Option JsonValue :=
  if text = cutUpdate then
    some (.object [("from", .string "0"), ("to", .string "1"),
      ("drop_probability", .number (.float 1.0))])
  else none

/-- A unicast over the cut link is stopped. -/
theorem targets_allowed_uartPair :
    TopologyGraph.fromYaml uartPairParser (.insertion _) (some uartPairYaml) = .ok uartPairGraph ∧
    ∀ t ∈ targetNodes (uartPairGraph.applyUpdates cutParser [cutUpdate]) [0, 1]
        ⟨0, 1, 5, 1, .uart, [], none⟩,
      (uartPairGraph.applyUpdates cutParser [cutUpdate]).isLinkAllowed 0 t .uart = true ∧
        lastDecisive cutParser 0 t [cutUpdate] ≠ some .block :=
  ⟨fromYaml_uartPair, (targets_allowed_iff fromYaml_uartPair cutParser [cutUpdate]
    ⟨[0, 1], by decide⟩ ⟨0, 1, 5, 1, .uart, [], none⟩).mpr fun h => absurd h.1 (by decide)⟩

/-- A broadcast over the cut link is not. -/
theorem not_targets_allowed_uartPair :
    TopologyGraph.fromYaml uartPairParser (.insertion _) (some uartPairYaml) = .ok uartPairGraph ∧
      1 ∈ targetNodes (uartPairGraph.applyUpdates cutParser [cutUpdate]) [0, 1]
        ⟨0, broadcast, 5, 1, .uart, [], none⟩ ∧
      (uartPairGraph.applyUpdates cutParser [cutUpdate]).isLinkAllowed 0 1 .uart = false ∧
      lastDecisive cutParser 0 1 [cutUpdate] = some .block :=
  ⟨fromYaml_uartPair, by decide +kernel, by decide +kernel, by decide +kernel⟩

/-! ## At most once -/

section

variable {g : TopologyGraph} {seenNodes : HashSet UInt32} {msg : CoordMessage}

/-- The matching links do not name a node other than the source twice: not within one link, and not in
two of them. -/
def TopologyGraph.NoRepeatedPeer (g : TopologyGraph) (src : UInt32) (protocol : Protocol) : Prop :=
  (∀ link ∈ g.wireLinks, link.carries protocol src = true →
    ∀ t, t ≠ src → link.nodes.count t ≤ 1) ∧
  g.wireLinks.Pairwise fun link link' =>
    link.carries protocol src = true → link'.carries protocol src = true →
      ∀ t, t ≠ src → t ∈ link.nodes → t ∉ link'.nodes

/-- One link contributes each node once exactly when it does not repeat a node other than the
source. -/
theorem nodup_filter_ne_iff (l : List UInt32) (src : UInt32) :
    (l.filter (· ≠ src)).Nodup ↔ ∀ t, t ≠ src → l.count t ≤ 1 := by
  rw [nodup_iff_count_le_one]
  constructor
  · intro h t ht
    have hcount := h t
    rwa [count_filter (by simpa using ht)] at hcount
  · intro h t
    by_cases ht : t = src
    · have hnot : t ∉ l.filter (· ≠ src) := by simp [ht]
      rw [count_eq_zero_of_not_mem hnot]
      exact Nat.zero_le 1
    · rw [count_filter (by simpa using ht)]
      exact h t ht

theorem nodup_wireTargets_iff (src : UInt32) (p : Protocol) :
    (g.wireTargets src p).Nodup ↔ g.NoRepeatedPeer src p := by
  unfold TopologyGraph.wireTargets TopologyGraph.NoRepeatedPeer
  -- without repetition inside each link, and without overlap between two of them
  rw [nodup_flatMap, pairwise_filter]
  refine and_congr ?_ ?_
  · simp only [mem_filter, nodup_filter_ne_iff, and_imp]
  · refine List.Pairwise.iff fun {link link'} => ?_
    simp only [Function.onFun, List.Disjoint, mem_filter, decide_eq_true_eq]
    constructor
    · intro h hc hc' t hne ht ht'
      exact h hc hc' ⟨ht, hne⟩ ⟨ht', hne⟩
    · intro h hc hc' t ht ht'
      exact h hc hc' t ht.2 ht.1 ht'.1

/-- Every other kind of message has distinct targets. -/
theorem nodup_targetNodes (h : ¬ (msg.dstNodeId = broadcast ∧ g.isExplicit = true ∧
    msg.protocol.isWireless = false)) : (targetNodes g seenNodes.toList msg).Nodup := by
  unfold targetNodes
  split
  · rename_i hm
    split
    · exact seenNodes.nodup.filter _
    · rename_i hg
      split
      · exact nodup_rfNeighbors
      · rename_i hw
        exact absurd ⟨hm, by simpa using hg, by simpa using hw⟩ h
  · split
    · exact nodup_singleton _
    · exact nodup_nil

end

/-- **Exactly when a receiver gets a message at most once.** For every topology that loads and every
message: no node is sent the message twice, if and only if the message is not a broadcast over explicit
wires, or the links it goes out on do not name a peer twice. -/
theorem sentTo_at_most_once_iff (fromStr : String → Option Gen.World)
    (order : IterationOrder (UInt32 × Position)) (content : Option String) (g : TopologyGraph)
    (seenNodes : HashSet UInt32) (msg : CoordMessage) :
    TopologyGraph.fromYaml fromStr order content = .ok g →
    ((∀ t, (sentTo g seenNodes.toList t [msg]).length ≤ 1) ↔
      (msg.dstNodeId = broadcast ∧ g.isExplicit = true ∧ msg.protocol.isWireless = false →
        g.NoRepeatedPeer msg.srcNodeId msg.protocol)) := by
  intro _
  have hnodup : (∀ t, (sentTo g seenNodes.toList t [msg]).length ≤ 1) ↔
      (targetNodes g seenNodes.toList msg).Nodup := by
    rw [List.nodup_iff_count_le_one]
    simp only [sentTo_singleton, List.length_replicate]
  rw [hnodup]
  by_cases hb : msg.dstNodeId = broadcast ∧ g.isExplicit = true ∧ msg.protocol.isWireless = false
  · have htargets : targetNodes g seenNodes.toList msg =
        g.wireTargets msg.srcNodeId msg.protocol := by
      simp [targetNodes, hb]
    rw [htargets, nodup_wireTargets_iff]
    exact ⟨fun h _ => h, fun h => h hb⟩
  · exact ⟨fun _ h => absurd h hb, fun _ => nodup_targetNodes hb⟩

/-- Node 1 gets a broadcast of node 0 over their one link once. -/
theorem sentTo_at_most_once_uartPair :
    TopologyGraph.fromYaml uartPairParser (.insertion _) (some uartPairYaml) = .ok uartPairGraph ∧
    ∀ t, (sentTo uartPairGraph [0, 1] t [⟨0, broadcast, 5, 1, .uart, [], none⟩]).length ≤ 1 := by
  refine ⟨fromYaml_uartPair,
    (sentTo_at_most_once_iff _ _ _ _ ⟨[0, 1], by decide⟩ _ fromYaml_uartPair).mpr fun _ => ?_⟩
  refine ⟨fun link hlink _ t _ => ?_, List.pairwise_singleton _ _⟩
  rw [List.mem_singleton.mp hlink]
  exact List.nodup_iff_count_le_one.mp (by decide) t

/-- Two nodes joined by two UART links. -/
def twoUartsYaml : String := uartPairYaml ++ "    - type: uart\n      nodes: [1, 0]\n"

/-- A YAML parser that knows this document. -/
def twoUartsParser (text : String) : Option Gen.World :=
  if text = twoUartsYaml then
    some ⟨[], some {
      globalSeed := none
      links := [⟨none, [.integer 0, .integer 1], ⟨"uart", Gen.uart_mem_protocolPattern⟩⟩,
        ⟨none, [.integer 1, .integer 0], ⟨"uart", Gen.uart_mem_protocolPattern⟩⟩]
      maxMessagesPerNodePerQuantum := none
      nodes := [⟨.string "0"⟩, ⟨.string "1"⟩]
      transport := none
      wireless := none }⟩
  else none

/-- The graph loaded from it. -/
def twoUartsGraph : TopologyGraph :=
  { uartPairGraph with wireLinks := [⟨.uart, [0, 1], none⟩, ⟨.uart, [1, 0], none⟩] }

/-- Node 1 gets a broadcast of node 0 twice. -/
theorem sentTwice_twoUarts :
    TopologyGraph.fromYaml twoUartsParser (.insertion _) (some twoUartsYaml) = .ok twoUartsGraph ∧
      (sentTo twoUartsGraph [0, 1] 1 [⟨0, broadcast, 5, 1, .uart, [], none⟩]).length = 2 :=
  ⟨by with_unfolding_all rfl, by decide⟩

end Virtmcu.DeterministicCoordinator
