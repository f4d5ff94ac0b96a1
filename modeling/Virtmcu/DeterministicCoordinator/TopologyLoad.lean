import Virtmcu.DeterministicCoordinator.Topology

/-! # Loading a topology

`TopologyGraph::from_yaml`: from the world document, as the generated schema types present it, to the
graph. The file reader and the YAML parser are parameters; everything after them is here, including
the split-brain check, the fallback to legacy top-level peripherals and the order in which unknown
nodes are noticed. -/

namespace Virtmcu.DeterministicCoordinator

/-! ## The schema types -/

namespace Gen

/-- `NodeId`: untagged, an unsigned integer or a string. -/
inductive NodeId
  | integer (i : UInt64)
  | string (s : String)
  deriving DecidableEq, Repr

/-- The pattern of `Protocol.json`. -/
def protocolPattern : List String :=
  ["Ethernet", "Uart", "CanFd", "Spi", "FlexRay", "Lin", "Rf802154", "RfHci",
   "eth", "uart", "canfd", "spi", "flexray", "lin", "rf802154", "rfhci", "ethernet"]

theorem uart_mem_protocolPattern : "uart" ∈ protocolPattern := by decide

/-- A protocol name that matches the pattern; other names do not deserialize. -/
structure Protocol where
  name : String
  matches_pattern : name ∈ protocolPattern

/-- A declared node. -/
structure Node where
  name : NodeId

/-- A top-level peripheral or memory; only the name matters here. -/
structure Resource where
  name : NodeId

structure WireLink where
  baud : Option UInt32
  nodes : List NodeId
  type : Protocol

structure Coordinate where
  x : Float
  y : Float
  z : Float

structure WirelessNode where
  initialPosition : Coordinate
  name : NodeId

structure WirelessMedium where
  maxRangeM : Float
  medium : String
  nodes : List WirelessNode

structure Topology where
  globalSeed : Option String
  links : List WireLink
  maxMessagesPerNodePerQuantum : Option UInt32
  nodes : List Node
  transport : Option Transport
  wireless : Option WirelessMedium

structure World where
  peripherals : List Resource
  topology : Option Topology

end Gen

/-! ## Conversions -/

/-- `From<gen::Protocol>`: by lower-cased name. -/
def Protocol.ofGen (p : Gen.Protocol) : Protocol :=
  match p.name.toLower with
  | "ethernet" | "eth" => .ethernet
  | "uart" => .uart
  | "spi" => .spi
  | "canfd" => .canFd
  | "flexray" => .flexRay
  | "lin" => .lin
  | "rf802154" => .rf802154
  | "rfhci" => .rfHci
  | _ => .control

/-- `node_id_to_u32`: integers are truncated, strings that are not `u32` decimals become
`u32::MAX`. -/
def nodeIdToU32 : Gen.NodeId → UInt32
  | .integer i => i.toUInt32
  | .string s => (parseU32 s).getD broadcast

/-- `TopologyError`. -/
inductive TopologyError
  | ioError
  | yamlError
  | unknownNode (n : UInt32)
  | splitBrainError (message : String)
  deriving DecidableEq, Repr

/-- The text of the split-brain error. -/
def splitBrainMessage : String :=
  "Split-brain YAML detected: both 'topology.nodes' and numeric 'peripherals' are present."

/-- The name is an integer or a decimal string. -/
def isNumeric : Gen.NodeId → Bool
  | .integer _ => true
  | .string s => (parseU32 s).isSome

/-! ## The loader -/

/-- The document declares topology nodes and also has numeric peripherals. -/
def isSplitBrain (world : Gen.World) : Bool :=
  (world.topology.any fun t => !t.nodes.isEmpty) && world.peripherals.any fun p => isNumeric p.name

/-- The ids links may refer to: those of `topology.nodes`, or, when there are none, those of the
top-level peripherals provided every one of them has an id. -/
def validNodes (world : Gen.World) : List UInt32 :=
  let declared := ((world.topology.map Gen.Topology.nodes).getD []).map fun node => nodeIdToU32 node.name
  -- `u32::MAX` stands for a name that is no id; such a node counts for nothing
  let valid := declared.filter (· ≠ broadcast)
  if valid.isEmpty then
    let fallback := world.peripherals.map fun p => nodeIdToU32 p.name
    if fallback.all (· ≠ broadcast) then fallback else []
  else valid

/-- An endpoint of a link must be a valid node. -/
def resolveNode (valid : List UInt32) (nid : Gen.NodeId) : Except TopologyError UInt32 :=
  let id := nodeIdToU32 nid
  if id ∈ valid then .ok id else .error (.unknownNode id)

/-- One wired link of the document. -/
def loadLink (valid : List UInt32) (link : Gen.WireLink) : Except TopologyError WireLink := do
  let nodes ← link.nodes.mapM (resolveNode valid)
  return ⟨.ofGen link.type, nodes, link.baud⟩

/-- One radio node of the document. A node without an id is passed over in silence. -/
def loadWirelessNode (valid : List UInt32)
    (acc : HashMap UInt32 Position × List WirelessNode) (node : Gen.WirelessNode) :
    Except TopologyError (HashMap UInt32 Position × List WirelessNode) :=
  let id := nodeIdToU32 node.name
  let position : Position :=
    ⟨node.initialPosition.x, node.initialPosition.y, node.initialPosition.z⟩
  if id ≠ broadcast then
    if id ∈ valid then .ok (acc.1.insert id position, acc.2 ++ [⟨id, position⟩])
    else .error (.unknownNode id)
  else .ok acc

/-- The graph of a topology section. -/
def loadTopology (order : IterationOrder (UInt32 × Position)) (valid : List UInt32)
    (topo : Gen.Topology) : Except TopologyError TopologyGraph := do
  let wireLinks ← topo.links.mapM (loadLink valid)
  let (positions, nodes) ←
    ((topo.wireless.map Gen.WirelessMedium.nodes).getD []).foldlM (loadWirelessNode valid)
      (HashMap.empty, [])
  return {
    maxMessagesPerNodePerQuantum := (topo.maxMessagesPerNodePerQuantum.getD 1024).toNat
    globalSeed := (topo.globalSeed.bind parseU64).getD 0
    transport := topo.transport.getD .zenoh
    wireLinks := wireLinks
    wirelessMedium := topo.wireless.map fun wl => ⟨wl.medium, nodes, wl.maxRangeM⟩
    nodePositions := positions.reorder order
    maxWirelessRangeM := (topo.wireless.map Gen.WirelessMedium.maxRangeM).getD 0.0
    isExplicit := true
    dropList := ∅ }

/-- `from_yaml` after parsing. -/
def TopologyGraph.ofWorld (order : IterationOrder (UInt32 × Position)) (world : Gen.World) :
    Except TopologyError TopologyGraph :=
  if isSplitBrain world then .error (.splitBrainError splitBrainMessage)
  else match world.topology with
    | some topo => loadTopology order (validNodes world) topo
    | none => .ok TopologyGraph.default

/-- `TopologyGraph::from_yaml`, with the content of the file (if it can be read), the YAML parser and
the iteration order of the position map as parameters. -/
def TopologyGraph.fromYaml (fromStr : String → Option Gen.World)
    (order : IterationOrder (UInt32 × Position)) (content : Option String) :
    Except TopologyError TopologyGraph :=
  match content with
  | none => .error .ioError
  | some text =>
      match fromStr text with
      | none => .error .yamlError
      | some world => TopologyGraph.ofWorld order world

/-! ## What a loaded graph is like -/

variable {order : IterationOrder (UInt32 × Position)} {g : TopologyGraph}

/-- No pair is dropped before the first control update. -/
theorem TopologyGraph.dropList_of_ofWorld
    {world : Gen.World} (h : TopologyGraph.ofWorld order world = .ok g) : g.dropList = ∅ := by
  unfold TopologyGraph.ofWorld at h
  split at h
  · cases h
  · split at h
    · rename_i topo _
      simp only [loadTopology, bind, Except.bind] at h
      split at h
      · cases h
      · split at h
        · cases h
        · cases h
          rfl
    · cases h
      rfl

theorem TopologyGraph.dropList_of_fromYaml {fromStr : String → Option Gen.World} {content : Option String}
    (h : TopologyGraph.fromYaml fromStr order content = .ok g) : g.dropList = ∅ := by
  unfold TopologyGraph.fromYaml at h
  split at h
  · cases h
  · split at h
    · cases h
    · exact TopologyGraph.dropList_of_ofWorld h

/-- So a pair is dropped exactly when its last decisive control update blocked it. -/
theorem TopologyGraph.isDropped_of_fromYaml {fromStr : String → Option Gen.World} {content : Option String}
    (h : TopologyGraph.fromYaml fromStr order content = .ok g)
    (jsonFromStr : String → Option JsonValue) (updates : List String) (a b : UInt32) :
    (g.applyUpdates jsonFromStr updates).isDropped a b = true ↔
      lastDecisive jsonFromStr a b updates = some .block := by
  rw [TopologyGraph.isDropped_applyUpdates]
  have hnone : g.isDropped a b = false := by
    simp [TopologyGraph.isDropped, TopologyGraph.dropList_of_fromYaml h]
  cases hd : lastDecisive jsonFromStr a b updates with
  | none => simp [hnone]
  | some change => simp

end Virtmcu.DeterministicCoordinator
