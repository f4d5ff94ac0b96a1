import Virtmcu.ZenohCoordinator.Message
import Virtmcu.Foundations.HashOrder

/-! # The topology graph of the Zenoh coordinator

`TopologyGraph` of the Zenoh coordinator's `topology.rs`. Nodes are named by strings and there is no
drop list; besides the link test there is a function that lists the peers of a node on its wires. The
destinations it lists pass the link test (`isLinkAllowed_of_mem_getWirePeers`), and in an explicit
topology they are all the other nodes that do (`getWirePeers_agrees`). -/

namespace Virtmcu.ZenohCoordinator

/-- A coordinate triple `[f64; 3]`. -/
structure Position where
  x : Float
  y : Float
  z : Float
  deriving DecidableEq

/-- A wired link: a protocol and the nodes it joins. -/
structure WireLink where
  protocol : Protocol
  nodes : List String
  baud : Option UInt32
  deriving DecidableEq, Repr

/-- A node of the radio medium. -/
structure WirelessNode where
  id : String
  initialPosition : Position
  deriving DecidableEq

/-- The radio medium. -/
structure WirelessMedium where
  medium : String
  nodes : List WirelessNode
  maxRangeM : Float
  deriving DecidableEq

/-- `TopologyGraph`. The position map carries the order in which a loop over it visits the nodes. -/
structure TopologyGraph where
  globalSeed : Option UInt64
  wireLinks : List WireLink
  wirelessMedium : Option WirelessMedium
  nodePositions : HashMap String Position
  maxWirelessRangeM : Float
  isExplicit : Bool
  maxMessagesPerNodePerQuantum : Nat

namespace TopologyGraph

/-- `TopologyGraph::default`: no topology loaded, everything allowed. -/
def default : TopologyGraph where
  globalSeed := none
  wireLinks := []
  wirelessMedium := none
  nodePositions := HashMap.empty
  maxWirelessRangeM := 0.0
  isExplicit := false
  maxMessagesPerNodePerQuantum := 1024

/-- `has_wireless`. -/
def hasWireless (g : TopologyGraph) : Bool := g.wirelessMedium.isSome

/-- `is_link_allowed`. -/
def isLinkAllowed (g : TopologyGraph) (srcNodeId dstNodeId : String) (protocol : Protocol) : Bool :=
  if !g.isExplicit then true
  else g.wireLinks.any fun link =>
    link.protocol = protocol ∧ srcNodeId ∈ link.nodes ∧ dstNodeId ∈ link.nodes

/-- `get_wire_peers`. -/
def getWirePeers (g : TopologyGraph) (nodeId : String) (protocol : Protocol) : HashSet String :=
  if !g.isExplicit then ⟨[], List.nodup_nil⟩
  else HashSet.ofList <|
    (g.wireLinks.filter fun link => link.protocol = protocol ∧ nodeId ∈ link.nodes).flatMap
      fun link => link.nodes.filter fun node => node ≠ nodeId

/-- `update_positions`. -/
def updatePositions (g : TopologyGraph) (updates : List (String × Position)) : TopologyGraph :=
  { g with nodePositions := updates.foldl (fun m u => m.insert u.1 u.2) g.nodePositions }

/-- The range test of `rf_neighbors`. -/
def withinRange (maxRange : Float) (p q : Position) : Bool :=
  let dx := p.x - q.x
  let dy := p.y - q.y
  let dz := p.z - q.z
  let dist := (dx * dx + dy * dy + dz * dz).sqrt
  decide (dist ≤ maxRange + 1e-6)

/-- `rf_neighbors`: the other positioned nodes in range. -/
def rfNeighbors (g : TopologyGraph) (nodeId : String) : HashSet String :=
  if g.wirelessMedium.isNone then ⟨[], List.nodup_nil⟩
  else match g.nodePositions.get nodeId with
    | none => ⟨[], List.nodup_nil⟩
    | some myPos =>
        HashSet.ofList <| (g.nodePositions.toList.filter fun e =>
          e.1 ≠ nodeId ∧ withinRange g.maxWirelessRangeM myPos e.2).map Prod.fst

section

variable {g : TopologyGraph} {src dst : String} {protocol : Protocol}

/-- In an explicit topology a link is allowed when some wire of the protocol joins the two nodes. -/
theorem isLinkAllowed_iff (hexp : g.isExplicit = true) : g.isLinkAllowed src dst protocol = true ↔
      ∃ link ∈ g.wireLinks, link.protocol = protocol ∧ src ∈ link.nodes ∧ dst ∈ link.nodes := by
  simp [isLinkAllowed, hexp]

theorem mem_getWirePeers (hexp : g.isExplicit = true) : dst ∈ (g.getWirePeers src protocol).toList ↔
      dst ≠ src ∧ g.isLinkAllowed src dst protocol = true := by
  rw [isLinkAllowed_iff hexp]
  simp only [getWirePeers, hexp, Bool.not_true, Bool.false_eq_true, if_false, HashSet.mem_ofList,
    List.mem_flatMap, List.mem_filter, decide_eq_true_eq]
  constructor
  · rintro ⟨link, ⟨hlink, hprotocol, hsrc⟩, hdst, hne⟩
    exact ⟨hne, link, hlink, hprotocol, hsrc, hdst⟩
  · rintro ⟨hne, link, hlink, hprotocol, hsrc, hdst⟩
    exact ⟨link, ⟨hlink, hprotocol, hsrc⟩, hdst, hne⟩

/-- The listed peers pass the link test. -/
theorem isLinkAllowed_of_mem_getWirePeers (hmem : dst ∈ (g.getWirePeers src protocol).toList) :
    g.isLinkAllowed src dst protocol = true := by
  cases hexp : g.isExplicit with
  | true => exact ((mem_getWirePeers hexp).mp hmem).2
  | false => simp [isLinkAllowed, hexp]

/-- The link test does not look at the direction. -/
theorem isLinkAllowed_comm (g : TopologyGraph) (src dst : String) (protocol : Protocol) :
    g.isLinkAllowed src dst protocol = g.isLinkAllowed dst src protocol := by
  cases hexp : g.isExplicit with
  | false => simp [isLinkAllowed, hexp]
  | true =>
    rw [Bool.eq_iff_iff, isLinkAllowed_iff hexp, isLinkAllowed_iff hexp]
    constructor
    · rintro ⟨link, hlink, hprotocol, hsrc, hdst⟩
      exact ⟨link, hlink, hprotocol, hdst, hsrc⟩
    · rintro ⟨link, hlink, hprotocol, hdst, hsrc⟩
      exact ⟨link, hlink, hprotocol, hsrc, hdst⟩

end

/-- **Peers and link test agree.** In an explicit topology, whatever its links, the peers of a node on
the wires of a protocol are the other nodes the link test allows, and both relations are symmetric. -/
theorem getWirePeers_agrees (g : TopologyGraph) (hexp : g.isExplicit = true) (protocol : Protocol)
    (a b : String) :
    (b ∈ (g.getWirePeers a protocol).toList ↔ b ≠ a ∧ g.isLinkAllowed a b protocol = true) ∧
    (b ∈ (g.getWirePeers a protocol).toList ↔ a ∈ (g.getWirePeers b protocol).toList) ∧
    g.isLinkAllowed a b protocol = g.isLinkAllowed b a protocol := by
  refine ⟨mem_getWirePeers hexp, ?_, isLinkAllowed_comm g a b protocol⟩
  rw [mem_getWirePeers hexp, mem_getWirePeers hexp, isLinkAllowed_comm g b a protocol, ne_comm]

/-- Two overlapping links, one of them naming a node twice. -/
def overlapping : TopologyGraph :=
  { default with
    isExplicit := true
    wireLinks := [⟨.uart, ["0", "1", "1"], none⟩, ⟨.uart, ["1", "0", "2"], none⟩] }

theorem getWirePeers_agrees_overlapping : (overlapping.getWirePeers "0" .uart).toList = ["1", "2"] ∧
    ("1" ∈ (overlapping.getWirePeers "0" .uart).toList ↔
      "1" ≠ "0" ∧ overlapping.isLinkAllowed "0" "1" .uart = true) ∧
    ("1" ∈ (overlapping.getWirePeers "0" .uart).toList ↔
      "0" ∈ (overlapping.getWirePeers "1" .uart).toList) ∧
    overlapping.isLinkAllowed "0" "1" .uart = overlapping.isLinkAllowed "1" "0" .uart :=
  ⟨by decide, getWirePeers_agrees overlapping rfl .uart "0" "1"⟩

end TopologyGraph

end Virtmcu.ZenohCoordinator
