import Virtmcu.DeterministicCoordinator.Topology

/-! # Link control over histories

Network control blocks and restores links through `update_from_json`. Blocking enters one direction of
a pair in the drop list, restoring clears both and the link test looks at both, so that the last update
that takes a side on a pair, in whichever order it names the nodes, is the one that counts. The
drop list belongs to the graph alone and starts empty in every graph that is built
(`TopologyGraph.dropList_of_fromYaml` for loaded ones). -/

namespace Virtmcu.DeterministicCoordinator

open List

variable {fromStr : String → Option JsonValue} {g : TopologyGraph} {a b : UInt32}

/-- The last word of a history is that of an update behind which no other takes a side. -/
theorem lastDecisive_eq_some_iff {updates : List String} {change : LinkChange} :
    lastDecisive fromStr a b updates = some change ↔
      ∃ earlier update later, updates = earlier ++ update :: later ∧
        decisive fromStr a b update = some change ∧ ∀ u ∈ later, decisive fromStr a b u = none := by
  rw [lastDecisive, getLast?_eq_some_iff]
  constructor
  · rintro ⟨words, hwords⟩
    obtain ⟨earlier, rest, rfl, -, hrest⟩ := filterMap_eq_append_iff.mp hwords
    obtain ⟨silent, update, later, rfl, -, hupdate, hlater⟩ := filterMap_eq_cons_iff.mp hrest
    refine ⟨earlier ++ silent, update, later, ?_, hupdate, filterMap_eq_nil_iff.mp hlater⟩
    rw [append_assoc]
  · rintro ⟨earlier, update, later, rfl, hupdate, hlater⟩
    refine ⟨earlier.filterMap (decisive fromStr a b), ?_⟩
    rw [filterMap_append, filterMap_cons_some hupdate, filterMap_eq_nil_iff.mpr hlater]

variable {update : String}

namespace TopologyGraph

theorem isDropped_comm (g : TopologyGraph) (a b : UInt32) : g.isDropped b a = g.isDropped a b := by
  simp only [isDropped, or_comm]

/-- The drop list vetoes a link; it never adds one. -/
theorem isLinkAllowed_eq (g : TopologyGraph) (src dst : UInt32) (protocol : Protocol) :
    g.isLinkAllowed src dst protocol =
      (!g.isDropped src dst && { g with dropList := ∅ }.isLinkAllowed src dst protocol) := by
  have hnone : { g with dropList := ∅ }.isDropped src dst = false := by simp [isDropped]
  cases hdrop : g.isDropped src dst with
  | true => simp [isLinkAllowed, hdrop]
  | false =>
    simp only [isLinkAllowed, hdrop, hnone, Bool.not_false, Bool.true_and]
    rfl

/-- An update without a side on any pair is without effect. -/
theorem applyUpdates_of_not_decisive
    (h : ∀ a b, decisive fromStr a b update = none) : applyUpdates fromStr g [update] = g := by
  simp only [applyUpdates, foldl_cons, foldl_nil, updateFromJson]
  cases hv : fromStr update with
  | none => rfl
  | some v =>
    cases hr : readUpdate v with
    | error e => simp only [hr]
    | ok r =>
      rcases r with _ | ⟨f, t, change⟩
      · simp only [hr]
      · have hside := h f t
        simp only [decisive, hv, Option.map_some, hr, true_or, true_and] at hside
        cases change with
        | keep => simp only [hr, applyChange]
        | block | restore => simp at hside

end TopologyGraph

/-- A refused update takes no side. -/
theorem decisive_of_error {e : UpdateError}
    (h : g.updateFromJson fromStr update = .error e) (a b : UInt32) :
    decisive fromStr a b update = none := by
  simp only [TopologyGraph.updateFromJson] at h
  cases hv : fromStr update with
  | none => simp [decisive, hv]
  | some v =>
    cases hr : readUpdate v with
    | error e => simp [decisive, hv, hr]
    | ok r =>
      rw [hv] at h
      rcases r with _ | u
      · simp [hr] at h
      · simp [hr] at h

/-- An update between the two thresholds takes no side. -/
theorem decisive_of_keep {v : JsonValue} {f t : UInt32}
    (hv : fromStr update = some v) (hr : readUpdate v = .ok (some (f, t, .keep))) (a b : UInt32) :
    decisive fromStr a b update = none := by
  simp [decisive, hv, hr]

/-- **Link control over histories.** From a graph as it is built, after any updates, a pair is in the
drop list, in both directions alike, exactly when the last update that takes a side on it blocks it;
from a graph in use the drop list it has counts as long as no update takes a side. A pair in the drop
list is denied for every protocol and any other pair is treated as if there were no drop list. Refused
updates and updates between the thresholds change nothing. -/
theorem linkControl_history (fromStr : String → Option JsonValue) (g : TopologyGraph)
    (updates : List String) (a b : UInt32) : (g.dropList = ∅ →
      ((g.applyUpdates fromStr updates).isDropped a b = true ↔
        ∃ earlier update later, updates = earlier ++ update :: later ∧
          decisive fromStr a b update = some .block ∧ ∀ u ∈ later, decisive fromStr a b u = none)) ∧
    ((g.applyUpdates fromStr updates).isDropped a b = true ↔
      lastDecisive fromStr a b updates = some .block ∨
      lastDecisive fromStr a b updates = none ∧ g.isDropped a b = true) ∧
    (g.applyUpdates fromStr updates).isDropped b a = (g.applyUpdates fromStr updates).isDropped a b ∧
    (∀ protocol, (g.applyUpdates fromStr updates).isLinkAllowed a b protocol =
      (!(g.applyUpdates fromStr updates).isDropped a b &&
        { g with dropList := ∅ }.isLinkAllowed a b protocol)) ∧
    (∀ update e, (g.applyUpdates fromStr updates).updateFromJson fromStr update = .error e →
      g.applyUpdates fromStr (updates ++ [update]) = g.applyUpdates fromStr updates) ∧
    (∀ update v f t, fromStr update = some v → readUpdate v = .ok (some (f, t, .keep)) →
      g.applyUpdates fromStr (updates ++ [update]) = g.applyUpdates fromStr updates) := by
  have hlast : (g.applyUpdates fromStr updates).isDropped a b = true ↔
      lastDecisive fromStr a b updates = some .block ∨
      lastDecisive fromStr a b updates = none ∧ g.isDropped a b = true := by
    rw [TopologyGraph.isDropped_applyUpdates]
    cases lastDecisive fromStr a b updates with
    | none | some change => simp
  have hconcat : ∀ update, g.applyUpdates fromStr (updates ++ [update]) =
      (g.applyUpdates fromStr updates).applyUpdates fromStr [update] := by
    intro update
    simp [TopologyGraph.applyUpdates]
  refine ⟨fun hempty => ?_, hlast, TopologyGraph.isDropped_comm _ a b, fun protocol => ?_,
    fun update e he => ?_, fun update v f t hv hr => ?_⟩
  · have hfresh : g.isDropped a b = false := by simp [TopologyGraph.isDropped, hempty]
    rw [hlast, hfresh, ← lastDecisive_eq_some_iff]
    simp
  · obtain ⟨drops, hdrops⟩ := @TopologyGraph.applyUpdates_dropList fromStr g updates
    rw [TopologyGraph.isLinkAllowed_eq, hdrops]
  · rw [hconcat]
    exact TopologyGraph.applyUpdates_of_not_decisive (decisive_of_error he)
  · rw [hconcat]
    exact TopologyGraph.applyUpdates_of_not_decisive (decisive_of_keep hv hr)

end Virtmcu.DeterministicCoordinator
