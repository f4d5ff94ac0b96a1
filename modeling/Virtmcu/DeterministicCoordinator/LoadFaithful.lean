import Virtmcu.DeterministicCoordinator.TopologyLoad
import Virtmcu.Foundations.Checked

/-! # Is loading a topology faithful?

A document names its nodes by integers and strings; the loader works with 32-bit ids. It truncates
integers, maps every string that is no number to `u32::MAX`, and uses that id for "no node". What is
lost on the way shows in `loadFaithful_iff`: whether the loader accepts the right documents, and keeps
the nodes of those it accepts apart. -/

namespace Virtmcu.DeterministicCoordinator

open List

/-! ## Names in a document -/

/-- The text of a name: the integer 7 and the string `"7"` are one name. -/
def Gen.NodeId.text : Gen.NodeId → String
  | .integer i => toString i.toNat
  | .string s => s

/-- The nodes a document declares: those of `topology.nodes`, or, when there are none, the top-level
peripherals of a legacy document, in which all of them are numbers. -/
def declaredNodes (world : Gen.World) : List Gen.NodeId :=
  let nodes := ((world.topology.map Gen.Topology.nodes).getD []).map Gen.Node.name
  if nodes.isEmpty then
    let names := world.peripherals.map Gen.Resource.name
    if names.all isNumeric then names else []
  else nodes

/-- The wired links of a document. -/
def documentLinks (world : Gen.World) : List Gen.WireLink :=
  (world.topology.map Gen.Topology.links).getD []

/-- The radio nodes of a document. -/
def documentRadios (world : Gen.World) : List Gen.WirelessNode :=
  ((world.topology.bind Gen.Topology.wireless).map Gen.WirelessMedium.nodes).getD []

/-- The name is that of a declared node. -/
def NamesDeclared (world : Gen.World) (nid : Gen.NodeId) : Prop :=
  ∃ node ∈ declaredNodes world, node.text = nid.text

/-- Every link endpoint and every radio node names a declared node. -/
structure ReferencesDeclared (world : Gen.World) : Prop where
  links : ∀ link ∈ documentLinks world, ∀ nid ∈ link.nodes, NamesDeclared world nid
  radios : ∀ radio ∈ documentRadios world, NamesDeclared world radio.name

/-- Differently named declared nodes have different ids. -/
def IdsDiffer (world : Gen.World) : Prop :=
  ∀ a ∈ declaredNodes world, ∀ b ∈ declaredNodes world, a.text ≠ b.text →
    nodeIdToU32 a ≠ nodeIdToU32 b

/-! ## What the loader accepts -/

/-- The loader finds every link endpoint among the valid ids, and every radio node that has an id. -/
structure ReferencesResolve (world : Gen.World) : Prop where
  links : ∀ link ∈ documentLinks world, ∀ nid ∈ link.nodes, nodeIdToU32 nid ∈ validNodes world
  radios : ∀ radio ∈ documentRadios world,
    nodeIdToU32 radio.name ≠ broadcast → nodeIdToU32 radio.name ∈ validNodes world

variable {nid : Gen.NodeId}

theorem resolveNode_eq_ok_iff {valid : List UInt32} {id : UInt32} :
    resolveNode valid nid = .ok id ↔ nodeIdToU32 nid ∈ valid ∧ id = nodeIdToU32 nid := by
  by_cases h : nodeIdToU32 nid ∈ valid
  · simp [resolveNode, h, eq_comm]
  · simp [resolveNode, h]

/-- A link of the document as a link of the graph. -/
def linkOfGen (link : Gen.WireLink) : WireLink :=
  ⟨.ofGen link.type, link.nodes.map nodeIdToU32, link.baud⟩

theorem loadLink_eq_ok_iff {valid : List UInt32} {link : Gen.WireLink} {r : WireLink} :
    loadLink valid link = .ok r ↔ (∀ nid ∈ link.nodes, nodeIdToU32 nid ∈ valid) ∧ r = linkOfGen link := by
  unfold loadLink
  simp only [bind_eq_ok_iff, mapM_eq_ok_iff (fun _ _ => resolveNode_eq_ok_iff), pure, Except.pure,
    Except.ok.injEq]
  constructor
  · rintro ⟨ids, ⟨hvalid, rfl⟩, rfl⟩
    exact ⟨hvalid, rfl⟩
  · rintro ⟨hvalid, rfl⟩
    exact ⟨link.nodes.map nodeIdToU32, ⟨hvalid, rfl⟩, rfl⟩

/-- The positions and radio nodes after one more radio node of the document. -/
def addWirelessNode (acc : HashMap UInt32 Position × List WirelessNode) (node : Gen.WirelessNode) :
    HashMap UInt32 Position × List WirelessNode :=
  let id := nodeIdToU32 node.name
  let position : Position :=
    ⟨node.initialPosition.x, node.initialPosition.y, node.initialPosition.z⟩
  if id ≠ broadcast then (acc.1.insert id position, acc.2 ++ [⟨id, position⟩]) else acc

theorem loadWirelessNode_eq_ok_iff (valid : List UInt32)
    (acc : HashMap UInt32 Position × List WirelessNode) (node : Gen.WirelessNode)
    (r : HashMap UInt32 Position × List WirelessNode) : loadWirelessNode valid acc node = .ok r ↔
      (nodeIdToU32 node.name ≠ broadcast → nodeIdToU32 node.name ∈ valid) ∧
        r = addWirelessNode acc node := by
  unfold loadWirelessNode addWirelessNode
  by_cases hid : nodeIdToU32 node.name = broadcast
  · simp [hid, eq_comm]
  · by_cases hvalid : nodeIdToU32 node.name ∈ valid
    · simp [hid, hvalid, eq_comm]
    · simp [hid, hvalid]

/-- The radio nodes that have an id are exactly those with a position. -/
theorem isSome_get_foldl_addWirelessNode (radios : List Gen.WirelessNode)
    (acc : HashMap UInt32 Position × List WirelessNode) (id : UInt32) :
    ((radios.foldl addWirelessNode acc).1.get id).isSome = true ↔ (acc.1.get id).isSome = true ∨
        id ≠ broadcast ∧ ∃ radio ∈ radios, nodeIdToU32 radio.name = id := by
  induction radios generalizing acc with
  | nil => simp
  | cons radio radios ih =>
    rw [foldl_cons, ih]
    have hadd : ((addWirelessNode acc radio).1.get id).isSome = true ↔
        (acc.1.get id).isSome = true ∨ id ≠ broadcast ∧ nodeIdToU32 radio.name = id := by
      unfold addWirelessNode
      by_cases hid : nodeIdToU32 radio.name = broadcast
      · simp only [hid, ne_eq, not_true_eq_false, if_false]
        constructor
        · exact .inl
        · rintro (h | ⟨hne, heq⟩)
          · exact h
          · exact absurd heq.symm hne
      · simp only [hid, ne_eq, not_false_eq_true, if_true, HashMap.get_insert]
        by_cases heq : id = nodeIdToU32 radio.name
        · subst heq
          simp [hid]
        · simp [heq, Ne.symm heq]
    rw [hadd, exists_mem_cons_iff, and_or_left, or_assoc]

variable {world : Gen.World}

/-- A document with a topology is loaded when its references resolve; the links have all their
endpoints, and exactly the radio nodes with an id have a position. -/
theorem loadTopology_eq_ok {order : IterationOrder (UInt32 × Position)}
    {topo : Gen.Topology} (htopo : world.topology = some topo) {g : TopologyGraph}
    (h : loadTopology order (validNodes world) topo = .ok g) :
    ReferencesResolve world ∧ g.wireLinks = (documentLinks world).map linkOfGen ∧
      ∀ id, (g.nodePositions.get id).isSome = true ↔
        id ≠ broadcast ∧ ∃ radio ∈ documentRadios world, nodeIdToU32 radio.name = id := by
  have hlinks : documentLinks world = topo.links := by simp [documentLinks, htopo]
  have hradios : documentRadios world = (topo.wireless.map Gen.WirelessMedium.nodes).getD [] := by
    simp [documentRadios, htopo]
  unfold loadTopology at h
  rw [bind_eq_ok_iff] at h
  obtain ⟨wireLinks, hwire, h⟩ := h
  rw [bind_eq_ok_iff] at h
  obtain ⟨loaded, hloaded, h⟩ := h
  rw [mapM_eq_ok_iff (fun _ _ => loadLink_eq_ok_iff)] at hwire
  rw [foldlM_eq_ok_iff (loadWirelessNode_eq_ok_iff _)] at hloaded
  simp only [pure, Except.pure, Except.ok.injEq] at h
  subst h
  refine ⟨⟨?_, ?_⟩, ?_, fun id => ?_⟩
  · rw [hlinks]
    exact hwire.1
  · rw [hradios]
    exact hloaded.1
  · rw [hlinks]
    exact hwire.2
  · have hperm : (loaded.1.reorder order).get id = loaded.1.get id :=
      HashMap.get_eq_of_perm (order.visit_perm _) id
    show ((loaded.1.reorder order).get id).isSome = true ↔ _
    rw [hperm, hloaded.2, isSome_get_foldl_addWirelessNode, hradios]
    have hempty : ((HashMap.empty : HashMap UInt32 Position).get id).isSome = false := rfl
    simp only [hempty, Bool.false_eq_true, false_or]

/-- Conversely, resolving references suffice. -/
theorem exists_loadTopology {order : IterationOrder (UInt32 × Position)}
    {topo : Gen.Topology} (htopo : world.topology = some topo) (h : ReferencesResolve world) :
    ∃ g, loadTopology order (validNodes world) topo = .ok g := by
  have hlinks : documentLinks world = topo.links := by simp [documentLinks, htopo]
  have hradios : documentRadios world = (topo.wireless.map Gen.WirelessMedium.nodes).getD [] := by
    simp [documentRadios, htopo]
  have hwire : topo.links.mapM (loadLink (validNodes world)) = .ok (topo.links.map linkOfGen) :=
    (mapM_eq_ok_iff (fun _ _ => loadLink_eq_ok_iff) _ _).mpr ⟨hlinks ▸ h.links, rfl⟩
  have hloaded := (foldlM_eq_ok_iff (loadWirelessNode_eq_ok_iff (validNodes world))
    ((topo.wireless.map Gen.WirelessMedium.nodes).getD []) (HashMap.empty, []) _).mpr
      ⟨hradios ▸ h.radios, rfl⟩
  unfold loadTopology
  rw [hwire]
  simp only [bind, Except.bind, hloaded]
  exact ⟨_, rfl⟩

/-! ## Faithful loading -/

/-- **Faithful loading** of the document `world` that the parser finds in a text: `from_yaml` accepts it
exactly when it is not split-brain and its references are declared, and an accepted document keeps its
nodes apart, the endpoints of its links and the positions of its radio nodes. -/
structure LoadFaithful (fromStr : String → Option Gen.World)
    (order : IterationOrder (UInt32 × Position)) (text : String) (world : Gen.World) : Prop where
  accepts_iff : (∃ g, TopologyGraph.fromYaml fromStr order (some text) = .ok g) ↔
    isSplitBrain world = false ∧ ReferencesDeclared world
  ids_differ : ∀ g, TopologyGraph.fromYaml fromStr order (some text) = .ok g → IdsDiffer world
  links_kept : ∀ g, TopologyGraph.fromYaml fromStr order (some text) = .ok g →
    g.wireLinks.map WireLink.nodes = (documentLinks world).map fun link => link.nodes.map nodeIdToU32
  radios_placed : ∀ g, TopologyGraph.fromYaml fromStr order (some text) = .ok g →
    ∀ radio ∈ documentRadios world, (g.nodePositions.get (nodeIdToU32 radio.name)).isSome = true

/-- Every radio node has an id. -/
def RadiosHaveIds (world : Gen.World) : Prop :=
  ∀ radio ∈ documentRadios world, nodeIdToU32 radio.name ≠ broadcast

/-- What the ids of a document have to be like: declared references resolve, to different ids for
different names, and an undeclared reference leaves one that does not resolve. -/
def IdsFaithful (world : Gen.World) : Prop :=
  (ReferencesDeclared world ∧ IdsDiffer world ∧ ReferencesResolve world ∧ RadiosHaveIds world) ∨
    (¬ ReferencesDeclared world ∧ ¬ ReferencesResolve world)

section

variable {fromStr : String → Option Gen.World} {order : IterationOrder (UInt32 × Position)}
  {text : String} {world : Gen.World} {g : TopologyGraph}

theorem fromYaml_of_parsed (hworld : fromStr text = some world) :
    TopologyGraph.fromYaml fromStr order (some text) = TopologyGraph.ofWorld order world := by
  simp [TopologyGraph.fromYaml, hworld]

/-- What is known of a graph that was loaded. -/
theorem ofWorld_eq_ok (h : TopologyGraph.ofWorld order world = .ok g) :
    isSplitBrain world = false ∧ ReferencesResolve world ∧
      g.wireLinks = (documentLinks world).map linkOfGen ∧ ∀ id, (g.nodePositions.get id).isSome = true ↔
        id ≠ broadcast ∧ ∃ radio ∈ documentRadios world, nodeIdToU32 radio.name = id := by
  unfold TopologyGraph.ofWorld at h
  cases hsplit : isSplitBrain world with
  | true =>
    rw [hsplit, if_pos rfl] at h
    cases h
  | false =>
    rw [hsplit, if_neg Bool.false_ne_true] at h
    refine ⟨rfl, ?_⟩
    cases htopo : world.topology with
    | some topo =>
      rw [htopo] at h
      exact loadTopology_eq_ok htopo h
    | none =>
      -- without a topology there is nothing to resolve
      rw [htopo] at h
      cases h
      have hlinks : documentLinks world = [] := by simp [documentLinks, htopo]
      have hradios : documentRadios world = [] := by simp [documentRadios, htopo]
      refine ⟨⟨?_, ?_⟩, ?_, fun id => ?_⟩
      · simp [hlinks]
      · simp [hradios]
      · rw [hlinks]
        rfl
      · rw [hradios]
        simp [TopologyGraph.default, HashMap.get, HashMap.empty]

/-- **What `from_yaml` accepts**: documents that are not split-brain and whose references resolve. -/
theorem exists_ofWorld_iff : (∃ g, TopologyGraph.ofWorld order world = .ok g) ↔
      isSplitBrain world = false ∧ ReferencesResolve world := by
  constructor
  · rintro ⟨g, h⟩
    obtain ⟨hsplit, hresolve, -⟩ := ofWorld_eq_ok h
    exact ⟨hsplit, hresolve⟩
  · rintro ⟨hsplit, hresolve⟩
    unfold TopologyGraph.ofWorld
    rw [hsplit, if_neg Bool.false_ne_true]
    cases htopo : world.topology with
    | some topo => exact exists_loadTopology htopo hresolve
    | none => exact ⟨_, rfl⟩

end

/-! ## Documents with plain numbers -/

/-- The name is a number below `u32::MAX`, written without sign and leading zeros. -/
def IsPlainNumber (nid : Gen.NodeId) : Prop := ∃ k < 2 ^ 32 - 1, nid.text = toString k

theorem toNat_nodeIdToU32 {k : Nat} (hk : k < 2 ^ 32 - 1)
    (h : nid.text = toString k) : (nodeIdToU32 nid).toNat = k := by
  cases nid with
  | integer i =>
    have hi : i.toNat = k := toString_nat_injective h
    show i.toUInt32.toNat = k
    rw [UInt64.toNat_toUInt32]
    omega
  | string s =>
    have hs : s = toString k := h
    have hparse : parseUnsigned (2 ^ 32) s = some k := by
      rw [hs]
      exact parseUnsigned_toString (by omega)
    show ((parseU32 s).getD broadcast).toNat = k
    rw [parseU32, hparse, Option.map_some, Option.getD_some]
    have hsize : UInt32.size = 2 ^ 32 := rfl
    exact UInt32.toNat_ofNat_of_lt' (by omega)

theorem IsPlainNumber.ne_broadcast (h : IsPlainNumber nid) : nodeIdToU32 nid ≠ broadcast := by
  obtain ⟨k, hk, htext⟩ := h
  intro heq
  have hid := toNat_nodeIdToU32 hk htext
  rw [heq] at hid
  have hmax : broadcast.toNat = 2 ^ 32 - 1 := rfl
  omega

/-- Among plain numbers, ids and names are the same thing. -/
theorem IsPlainNumber.nodeIdToU32_eq_iff {a b : Gen.NodeId} (ha : IsPlainNumber a)
    (hb : IsPlainNumber b) : nodeIdToU32 a = nodeIdToU32 b ↔ a.text = b.text := by
  obtain ⟨j, hj, hja⟩ := ha
  obtain ⟨k, hk, hkb⟩ := hb
  have hja' := toNat_nodeIdToU32 hj hja
  have hkb' := toNat_nodeIdToU32 hk hkb
  rw [← UInt32.toNat_inj, hja', hkb', hja, hkb]
  exact ⟨congrArg toString, toString_nat_injective⟩

/-- A name that is no number has no id. -/
theorem isNumeric_of_ne_broadcast (h : nodeIdToU32 nid ≠ broadcast) : isNumeric nid = true := by
  cases nid with
  | integer i => rfl
  | string s =>
    show (parseU32 s).isSome = true
    cases hparse : parseU32 s with
    | some id => rfl
    | none => simp [nodeIdToU32, hparse] at h

/-- When the declared names are plain numbers, their ids are the valid ones. -/
theorem validNodes_of_isPlainNumber (h : ∀ nid ∈ declaredNodes world, IsPlainNumber nid) :
    validNodes world = (declaredNodes world).map nodeIdToU32 := by
  unfold validNodes
  unfold declaredNodes at h ⊢
  generalize (world.topology.map Gen.Topology.nodes).getD [] = nodes at h ⊢
  cases nodes with
  | cons node nodes =>
    have hfilter : ((node :: nodes).map fun node => nodeIdToU32 node.name).filter
        (· ≠ broadcast) = (node :: nodes).map fun node => nodeIdToU32 node.name := by
      refine filter_eq_self.mpr fun id hid => ?_
      obtain ⟨declared, hdeclared, rfl⟩ := mem_map.mp hid
      have hplain := h declared.name (mem_map.mpr ⟨declared, hdeclared, rfl⟩)
      simpa using hplain.ne_broadcast
    dsimp only
    rw [hfilter]
    simp only [map_cons, isEmpty_cons, Bool.false_eq_true, if_false, map_map, Function.comp_def]
  | nil =>
    simp only [map_nil, isEmpty_nil, filter_nil, if_true] at h ⊢
    by_cases hall : (world.peripherals.map Gen.Resource.name).all isNumeric = true
    · -- a legacy document
      rw [if_pos hall] at h ⊢
      have hids : ((world.peripherals.map fun p => nodeIdToU32 p.name).all (· ≠ broadcast)) =
          true := by
        simp only [all_eq_true, mem_map]
        rintro id ⟨p, hp, rfl⟩
        have hplain := h p.name (mem_map.mpr ⟨p, hp, rfl⟩)
        simpa using hplain.ne_broadcast
      rw [if_pos hids, map_map]
      rfl
    · -- some peripheral is no node, and so has no id
      rw [if_neg hall]
      have hids : ¬ ((world.peripherals.map fun p => nodeIdToU32 p.name).all (· ≠ broadcast)) =
          true := by
        intro hids
        refine hall ?_
        simp only [all_eq_true, mem_map] at hids ⊢
        rintro nid ⟨p, hp, rfl⟩
        exact isNumeric_of_ne_broadcast (by simpa using hids _ ⟨p, hp, rfl⟩)
      rw [if_neg hids, map_nil]

/-- **Plain numbers are safe**: when every declared and every referenced name is a plain number, the ids
are faithful. -/
theorem idsFaithful_of_isPlainNumber (hdeclared : ∀ nid ∈ declaredNodes world, IsPlainNumber nid)
    (hlinks : ∀ link ∈ documentLinks world, ∀ nid ∈ link.nodes, IsPlainNumber nid)
    (hradios : ∀ radio ∈ documentRadios world, IsPlainNumber radio.name) : IdsFaithful world := by
  -- a plain number resolves when it is declared
  have hmem {nid : Gen.NodeId} (hnid : IsPlainNumber nid) :
      nodeIdToU32 nid ∈ validNodes world ↔ NamesDeclared world nid := by
    rw [validNodes_of_isPlainNumber hdeclared, mem_map]
    constructor
    · rintro ⟨node, hnode, heq⟩
      exact ⟨node, hnode, ((hdeclared node hnode).nodeIdToU32_eq_iff hnid).mp heq⟩
    · rintro ⟨node, hnode, heq⟩
      exact ⟨node, hnode, ((hdeclared node hnode).nodeIdToU32_eq_iff hnid).mpr heq⟩
  have hiff : ReferencesResolve world ↔ ReferencesDeclared world := by
    constructor
    · intro h
      exact ⟨fun link hlink nid hnid => (hmem (hlinks link hlink nid hnid)).mp (h.links link hlink nid hnid),
        fun radio hradio => (hmem (hradios radio hradio)).mp
          (h.radios radio hradio (hradios radio hradio).ne_broadcast)⟩
    · intro h
      exact ⟨fun link hlink nid hnid => (hmem (hlinks link hlink nid hnid)).mpr (h.links link hlink nid hnid),
        fun radio hradio _ => (hmem (hradios radio hradio)).mpr (h.radios radio hradio)⟩
  by_cases h : ReferencesDeclared world
  · refine .inl ⟨h, fun a ha b hb hne heq => ?_, hiff.mpr h, fun radio hradio => ?_⟩
    · exact hne (((hdeclared a ha).nodeIdToU32_eq_iff (hdeclared b hb)).mp heq)
    · exact (hradios radio hradio).ne_broadcast
  · exact .inr ⟨h, fun hresolve => h (hiff.mp hresolve)⟩

/-! ## Main result -/

/-- **Exactly when loading is faithful.** A split-brain document is rejected, as it should be. Any other
is loaded faithfully if and only if either all its references are declared and find an id, and
differently named nodes have different ids, or some reference is undeclared and some reference fails to
find an id. -/
theorem loadFaithful_iff (fromStr : String → Option Gen.World)
    (order : IterationOrder (UInt32 × Position)) (text : String) (world : Gen.World)
    (hworld : fromStr text = some world) :
    LoadFaithful fromStr order text world ↔ isSplitBrain world = true ∨ IdsFaithful world := by
  have hyaml : TopologyGraph.fromYaml fromStr order (some text) = TopologyGraph.ofWorld order world :=
    fromYaml_of_parsed hworld
  constructor
  · rintro ⟨haccepts, hids, -, hradios⟩
    rw [hyaml, exists_ofWorld_iff] at haccepts
    by_cases hsplit : isSplitBrain world = true
    · exact Or.inl hsplit
    · have hsplit' : isSplitBrain world = false := by simpa using hsplit
      right
      by_cases hdeclared : ReferencesDeclared world
      · have hresolve := (haccepts.mpr ⟨hsplit', hdeclared⟩).2
        obtain ⟨g, hg⟩ := exists_ofWorld_iff.mpr ⟨hsplit', hresolve⟩
        obtain ⟨-, -, -, hpositions⟩ := ofWorld_eq_ok hg
        have hhave : RadiosHaveIds world := by
          intro radio hradio
          exact ((hpositions _).mp (hradios g (hyaml.trans hg) radio hradio)).1
        exact Or.inl ⟨hdeclared, hids g (hyaml.trans hg), hresolve, hhave⟩
      · exact Or.inr ⟨hdeclared, fun hresolve => hdeclared (haccepts.mp ⟨hsplit', hresolve⟩).2⟩
  · intro h
    have hloaded (g : TopologyGraph)
        (hg : TopologyGraph.fromYaml fromStr order (some text) = .ok g) :
        ReferencesDeclared world ∧ IdsDiffer world ∧ RadiosHaveIds world := by
      obtain ⟨hsplit, hresolve, -⟩ := ofWorld_eq_ok (hyaml.symm.trans hg)
      rcases h with h | ⟨hdeclared, hdiffer, -, hhave⟩ | ⟨-, hnot⟩
      · rw [hsplit] at h
        cases h
      · exact ⟨hdeclared, hdiffer, hhave⟩
      · exact absurd hresolve hnot
    refine ⟨⟨?_, ?_⟩, fun g hg => (hloaded g hg).2.1, fun g hg => ?_, fun g hg radio hradio => ?_⟩
    · rintro ⟨g, hg⟩
      exact ⟨(ofWorld_eq_ok (hyaml.symm.trans hg)).1, (hloaded g hg).1⟩
    · rintro ⟨hsplit, hdeclared⟩
      rw [hyaml, exists_ofWorld_iff]
      rcases h with h | ⟨-, -, hresolve, -⟩ | ⟨hnot, -⟩
      · rw [hsplit] at h
        cases h
      · exact ⟨hsplit, hresolve⟩
      · exact absurd hdeclared hnot
    · obtain ⟨-, -, hlinks, -⟩ := ofWorld_eq_ok (hyaml.symm.trans hg)
      rw [hlinks, List.map_map]
      rfl
    · obtain ⟨-, -, -, hpositions⟩ := ofWorld_eq_ok (hyaml.symm.trans hg)
      exact (hpositions _).mpr ⟨(hloaded g hg).2.2 radio hradio, radio, hradio, rfl⟩

/-- A UART between the nodes of the given names. -/
def linkWorld (names : List String) : Gen.World where
  peripherals := []
  topology := some {
    globalSeed := none
    links := [⟨none, names.map .string, ⟨"uart", Gen.uart_mem_protocolPattern⟩⟩]
    maxMessagesPerNodePerQuantum := none
    nodes := names.map fun name => ⟨.string name⟩
    transport := none
    wireless := none }

/-- Two nodes with plain numbers and a link between them. -/
theorem loadFaithful_numbers : LoadFaithful (fun _ => some (linkWorld ["0", "1"]))
    (IterationOrder.insertion _) "" (linkWorld ["0", "1"]) := by
  have hplain : ∀ nid ∈ [Gen.NodeId.string "0", Gen.NodeId.string "1"], IsPlainNumber nid := by
    intro nid hnid
    simp only [List.mem_cons, List.not_mem_nil, or_false] at hnid
    rcases hnid with rfl | rfl
    · exact ⟨0, by decide, by decide +kernel⟩
    · exact ⟨1, by decide, by decide +kernel⟩
  refine (loadFaithful_iff _ _ _ _ rfl).mpr (Or.inr (idsFaithful_of_isPlainNumber hplain ?_ ?_))
  · intro link hlink nid hnid
    rw [List.mem_singleton.mp hlink] at hnid
    exact hplain nid hnid
  · intro radio hradio
    cases hradio

/-- The node `sensor` is declared and linked, and the document is refused: its id is that of no
node. -/
theorem not_loadFaithful_sensor : isSplitBrain (linkWorld ["sensor", "1"]) = false ∧
    ReferencesDeclared (linkWorld ["sensor", "1"]) ∧
    (∀ g, TopologyGraph.fromYaml (fun _ => some (linkWorld ["sensor", "1"]))
      (IterationOrder.insertion _) (some "") ≠ .ok g) ∧
    ¬ LoadFaithful (fun _ => some (linkWorld ["sensor", "1"])) (IterationOrder.insertion _) ""
      (linkWorld ["sensor", "1"]) := by
  have hsplit : isSplitBrain (linkWorld ["sensor", "1"]) = false := by decide +kernel
  have hdeclared : ReferencesDeclared (linkWorld ["sensor", "1"]) := by
    refine ⟨fun link hlink nid hnid => ?_, fun radio hradio => ?_⟩
    · rw [List.mem_singleton.mp hlink] at hnid
      exact ⟨nid, hnid, rfl⟩
    · cases hradio
  have hrefused : ∀ g, TopologyGraph.fromYaml (fun _ => some (linkWorld ["sensor", "1"]))
      (IterationOrder.insertion _) (some "") ≠ .ok g := by
    intro g hg
    have hresolve := (ofWorld_eq_ok hg).2.1.links _ (List.mem_singleton_self _) (.string "sensor")
      List.mem_cons_self
    exact absurd hresolve (by decide +kernel)
  refine ⟨hsplit, hdeclared, hrefused, fun h => ?_⟩
  obtain ⟨g, hg⟩ := h.accepts_iff.mpr ⟨hsplit, hdeclared⟩
  exact hrefused g hg

end Virtmcu.DeterministicCoordinator
