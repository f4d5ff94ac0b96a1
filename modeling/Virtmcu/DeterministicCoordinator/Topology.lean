import Virtmcu.DeterministicCoordinator.Message
import Virtmcu.Foundations.HashOrder
import Virtmcu.Foundations.Text
import Mathlib.Data.Finset.Prod

/-! # The topology graph

`TopologyGraph` of `topology.rs`: the wired links, the radio medium and the drop list that network
control maintains, with the link predicate `is_link_allowed`, the radio neighbourhood `rf_neighbors`
and the control update `update_from_json`. Coordinates are IEEE doubles and the distance test is the
source's expression; nothing here depends on its rounding. -/

namespace Virtmcu.DeterministicCoordinator

open List

/-- The configured transport. -/
inductive Transport
  | zenoh
  | unix
  deriving DecidableEq, Repr

/-- A coordinate triple `[f64; 3]`. -/
structure Position where
  x : Float
  y : Float
  z : Float
  deriving DecidableEq

/-- A wired link: a protocol and the nodes it joins. -/
structure WireLink where
  protocol : Protocol
  nodes : List UInt32
  baud : Option UInt32
  deriving DecidableEq, Repr

/-- The link carries the protocol and joins the two nodes. -/
def WireLink.joins (link : WireLink) (protocol : Protocol) (src dst : UInt32) : Bool :=
  link.protocol = protocol ∧ src ∈ link.nodes ∧ dst ∈ link.nodes

/-- A node of the radio medium. -/
structure WirelessNode where
  id : UInt32
  initialPosition : Position
  deriving DecidableEq

/-- The radio medium. -/
structure WirelessMedium where
  medium : String
  nodes : List WirelessNode
  maxRangeM : Float
  deriving DecidableEq

/-- `TopologyGraph`. The position map carries the order in which a loop over it visits the nodes. -/
structure TopologyGraph where
  maxMessagesPerNodePerQuantum : Nat
  globalSeed : UInt64
  transport : Transport
  wireLinks : List WireLink
  wirelessMedium : Option WirelessMedium
  nodePositions : HashMap UInt32 Position
  maxWirelessRangeM : Float
  isExplicit : Bool
  dropList : Finset (UInt32 × UInt32)

namespace TopologyGraph

/-- `TopologyGraph::default`: no topology loaded, everything allowed. -/
def default : TopologyGraph where
  maxMessagesPerNodePerQuantum := 1024
  globalSeed := 0
  transport := .zenoh
  wireLinks := []
  wirelessMedium := none
  nodePositions := HashMap.empty
  maxWirelessRangeM := 0.0
  isExplicit := false
  dropList := ∅

/-- The range test of `rf_neighbors`. -/
def withinRange (maxRange : Float) (p q : Position) : Bool :=
  let dx := p.x - q.x
  let dy := p.y - q.y
  let dz := p.z - q.z
  let dist := (dx * dx + dy * dy + dz * dz).sqrt
  decide (dist ≤ maxRange + 1e-6)

/-- `rf_neighbors`: the other positioned nodes in range, in the iteration order of the map. -/
def rfNeighbors (g : TopologyGraph) (nodeId : UInt32) : List UInt32 :=
  if g.wirelessMedium.isNone then []
  else match g.nodePositions.get nodeId with
    | none => []
    | some myPos =>
        (g.nodePositions.toList.filter fun e =>
          e.1 ≠ nodeId ∧ withinRange g.maxWirelessRangeM myPos e.2).map Prod.fst

/-- The drop list names the pair, in either direction. -/
def isDropped (g : TopologyGraph) (src dst : UInt32) : Bool :=
  (src, dst) ∈ g.dropList ∨ (dst, src) ∈ g.dropList

/-- `is_link_allowed`. -/
def isLinkAllowed (g : TopologyGraph) (src dst : UInt32) (protocol : Protocol) : Bool :=
  -- the drop list goes before everything else, also without a topology
  if g.isDropped src dst then false
  else if !g.isExplicit then true
  else if protocol.isWireless then decide (dst ∈ g.rfNeighbors src)
  else g.wireLinks.any fun link => link.joins protocol src dst

/-- `update_positions`. -/
def updatePositions (g : TopologyGraph) (updates : List (UInt32 × Position)) : TopologyGraph :=
  { g with nodePositions := updates.foldl (fun m u => m.insert u.1 u.2) g.nodePositions }

end TopologyGraph

/-! ## Network control -/

/-- `serde_json::Number`. -/
inductive JsonNumber
  | posInt (n : UInt64)
  | negInt (n : Int64)
  | float (f : Float)

/-- `serde_json::Value`. -/
inductive JsonValue
  | null
  | bool (b : Bool)
  | number (n : JsonNumber)
  | string (s : String)
  | array (items : List JsonValue)
  | object (fields : List (String × JsonValue))

namespace JsonValue

/-- `Value::get` with a string key. -/
def get (key : String) : JsonValue → Option JsonValue
  | object fields => fields.lookup key
  | _ => none

/-- `Value::as_str`. -/
def asStr : JsonValue → Option String
  | string s => some s
  | _ => none

/-- `Value::as_f64`. -/
def asF64 : JsonValue → Option Float
  | number (.posInt n) => some n.toFloat
  | number (.negInt n) => some n.toFloat
  | number (.float f) => some f
  | _ => none

end JsonValue

/-- Why a control update is refused. -/
inductive UpdateError
  | json
  | parseInt
  deriving DecidableEq, Repr

/-- The effect of one well-formed control object on a node pair. -/
inductive LinkChange
  | block
  | restore
  | keep
  deriving DecidableEq, Repr

/-- The thresholds of `update_from_json`. -/
def LinkChange.ofDropProbability (p : Float) : LinkChange :=
  if p ≥ 0.99 then .block else if p ≤ 0.01 then .restore else .keep

/-- The reading of a control object: the two nodes and what becomes of their link, or nothing when a
field is missing or has another type. -/
def readUpdate (v : JsonValue) : Except UpdateError (Option (UInt32 × UInt32 × LinkChange)) :=
  match (v.get "from").bind JsonValue.asStr, (v.get "to").bind JsonValue.asStr,
      (v.get "drop_probability").bind JsonValue.asF64 with
  | some fromVal, some toVal, some dropProb =>
      match parseU32 fromVal, parseU32 toVal with
      | some fromNode, some toNode =>
          .ok (some (fromNode, toNode, LinkChange.ofDropProbability dropProb))
      | _, _ => .error .parseInt
  | _, _, _ => .ok none

namespace TopologyGraph

/-- Apply a link change: blocking enters the pair as named, restoring removes it in both
directions. -/
def applyChange (g : TopologyGraph) (fromNode toNode : UInt32) : LinkChange → TopologyGraph
  | .block => { g with dropList := insert (fromNode, toNode) g.dropList }
  | .restore => { g with dropList := (g.dropList.erase (fromNode, toNode)).erase (toNode, fromNode) }
  | .keep => g

/-- `update_from_json`. The JSON reader `fromStr` is the parser of `serde_json`. -/
def updateFromJson (fromStr : String → Option JsonValue) (g : TopologyGraph) (jsonStr : String) :
    Except UpdateError TopologyGraph :=
  match fromStr jsonStr with
  | none => .error .json
  | some v =>
      match readUpdate v with
      | .error e => .error e
      | .ok none => .ok g
      | .ok (some (fromNode, toNode, change)) => .ok (g.applyChange fromNode toNode change)

/-- A sequence of control updates. A refused update is logged and leaves the graph alone. -/
def applyUpdates (fromStr : String → Option JsonValue) (g : TopologyGraph) (updates : List String) :
    TopologyGraph :=
  updates.foldl (fun g u => match g.updateFromJson fromStr u with
    | .ok g' => g'
    | .error _ => g) g

end TopologyGraph

/-! ## The drop list as a function of the control history -/

/-- What an update says about the pair `{a, b}`: a change other than `keep` of a link named in either
order. -/
def decisive (fromStr : String → Option JsonValue) (a b : UInt32) (update : String) :
    Option LinkChange :=
  match (fromStr update).map readUpdate with
  | some (.ok (some (fromNode, toNode, change))) =>
      if ((fromNode, toNode) = (a, b) ∨ (fromNode, toNode) = (b, a)) ∧ change ≠ .keep then
        some change
      else none
  | _ => none

/-- The last word of a control history on the pair `{a, b}`. -/
def lastDecisive (fromStr : String → Option JsonValue) (a b : UInt32) (updates : List String) :
    Option LinkChange :=
  (updates.filterMap (decisive fromStr a b)).getLast?

namespace TopologyGraph

variable {fromStr : String → Option JsonValue} {g : TopologyGraph} {a b : UInt32}

theorem isDropped_iff : g.isDropped a b = true ↔ (a, b) ∈ g.dropList ∨ (b, a) ∈ g.dropList := by
  simp [isDropped]

/-- A change of the pair `{a, b}` decides whether it is dropped; other changes do not touch it. -/
theorem isDropped_applyChange (f t : UInt32) (change : LinkChange) :
    (g.applyChange f t change).isDropped a b = true ↔
      if ((f, t) = (a, b) ∨ (f, t) = (b, a)) ∧ change ≠ .keep then change = .block
      else g.isDropped a b = true := by
  rw [isDropped_iff, isDropped_iff]
  by_cases hpair : (f, t) = (a, b) ∨ (f, t) = (b, a)
  · cases change with
    | keep => simp [applyChange]
    | block =>
      rw [if_pos ⟨hpair, by decide⟩]
      refine ⟨fun _ => rfl, fun _ => hpair.imp (fun h => ?_) (fun h => ?_)⟩
      · exact h ▸ Finset.mem_insert_self _ _
      · exact h ▸ Finset.mem_insert_self _ _
    | restore =>
      rw [if_pos ⟨hpair, by decide⟩]
      -- both directions are erased, whichever of them the update names
      rcases hpair with h | h
      · obtain ⟨rfl, rfl⟩ := Prod.mk.inj h
        simp [applyChange]
      · obtain ⟨rfl, rfl⟩ := Prod.mk.inj h
        simp [applyChange]
  · rw [if_neg fun h => hpair h.1]
    have hab : (a, b) ≠ (f, t) := fun h => hpair (.inl h.symm)
    have hba : (b, a) ≠ (f, t) := fun h => hpair (.inr h.symm)
    have hab' : (a, b) ≠ (t, f) := fun h => hba (congrArg Prod.swap h)
    have hba' : (b, a) ≠ (t, f) := fun h => hab (congrArg Prod.swap h)
    cases change with
    | keep => exact Iff.rfl
    | block => simp only [applyChange, Finset.mem_insert, hab, hba, false_or]
    | restore => simp only [applyChange, Finset.mem_erase, ne_eq, hab, hba, hab', hba',
        not_false_eq_true, true_and]

/-- One update of the history, in terms of what it says about the pair. -/
theorem isDropped_updateFromJson (update : String) :
    (applyUpdates fromStr g [update]).isDropped a b = true ↔
      match decisive fromStr a b update with
      | some change => change = .block
      | none => g.isDropped a b = true := by
  simp only [applyUpdates, foldl_cons, foldl_nil, updateFromJson, decisive]
  cases hv : fromStr update with
  | none => simp
  | some v =>
    cases hr : readUpdate v with
    | error e => simp [hr]
    | ok r =>
      cases r with
      | none => simp [hr]
      | some u =>
        obtain ⟨f, t, change⟩ := u
        simp only [hr, Option.map_some, isDropped_applyChange]
        split_ifs <;> simp

/-- **The drop list follows the last decisive update** of a pair, in both directions. -/
theorem isDropped_applyUpdates (updates : List String) :
    (applyUpdates fromStr g updates).isDropped a b = true ↔
      match lastDecisive fromStr a b updates with
      | some change => change = .block
      | none => g.isDropped a b = true := by
  -- from the end: a decisive last update settles the matter, any other one passes it on
  induction updates using reverseRecOn with
  | nil => simp [applyUpdates, lastDecisive]
  | append_singleton updates u ih =>
    have hsplit : applyUpdates fromStr g (updates ++ [u]) =
        applyUpdates fromStr (applyUpdates fromStr g updates) [u] := by
      simp [applyUpdates]
    rw [hsplit, isDropped_updateFromJson, ih]
    cases hd : decisive fromStr a b u with
    | none | some change => simp [lastDecisive, filterMap_append, hd]

/-- Control updates change nothing but the drop list. -/
theorem applyUpdates_dropList (updates : List String) :
    ∃ drops, applyUpdates fromStr g updates = { g with dropList := drops } := by
  induction updates using reverseRecOn with
  | nil => exact ⟨g.dropList, rfl⟩
  | append_singleton updates u ih =>
    obtain ⟨drops, hdrops⟩ := ih
    have hsplit : applyUpdates fromStr g (updates ++ [u]) =
        applyUpdates fromStr { g with dropList := drops } [u] := by
      rw [← hdrops]
      simp [applyUpdates]
    rw [hsplit]
    simp only [applyUpdates, foldl_cons, foldl_nil, updateFromJson]
    cases hv : fromStr u with
    | none => exact ⟨drops, rfl⟩
    | some v =>
      cases hr : readUpdate v with
      | error e => exact ⟨drops, by simp [hr]⟩
      | ok r =>
        cases r with
        | none => exact ⟨drops, by simp [hr]⟩
        | some w =>
          obtain ⟨f, t, change⟩ := w
          simp only [hr]
          cases change <;> exact ⟨_, rfl⟩

end TopologyGraph

end Virtmcu.DeterministicCoordinator
