import Mathlib.Order.Lattice
import Virtmcu.Foundations.Panic

/-! # Insertion by binary search

A binary search in a sorted list answers with a position: that of an equal key, or the one where the key
could stand. Whichever it is, what stands before the position is at most the key and what stands from
there on is at least the key. That is all that the standard library promises, and all that an insertion
needs to keep the list sorted. -/

namespace Virtmcu

open List

variable {α κ : Type*} [LinearOrder κ]

/-- A binary search in lists of keys. Nothing is promised for a list that is not sorted. -/
structure BinarySearch (κ : Type*) [LinearOrder κ] where
  position : List κ → κ → ℕ
  position_le : ∀ {keys : List κ} {key : κ}, keys.Pairwise (· ≤ ·) → position keys key ≤ keys.length
  le_of_mem_take : ∀ {keys : List κ} {key : κ}, keys.Pairwise (· ≤ ·) →
    ∀ k ∈ keys.take (position keys key), k ≤ key
  le_of_mem_drop : ∀ {keys : List κ} {key : κ}, keys.Pairwise (· ≤ ·) →
    ∀ k ∈ keys.drop (position keys key), key ≤ k

namespace BinarySearch

variable (search : BinarySearch κ) {key : α → κ} {l : List α}

theorem position_le_length (h : l.Pairwise fun a b => key a ≤ key b) (a : α) :
    search.position (l.map key) (key a) ≤ l.length := by
  have hkeys : (l.map key).Pairwise (· ≤ ·) := pairwise_map.mpr h
  calc search.position (l.map key) (key a)
      ≤ (l.map key).length := search.position_le hkeys
    _ = l.length := length_map key

/-- What is inserted at the position that the search found stands in order. -/
theorem pairwise_insert (h : l.Pairwise fun a b => key a ≤ key b) (a : α) :
    (l.take (search.position (l.map key) (key a)) ++
      a :: l.drop (search.position (l.map key) (key a))).Pairwise fun a b => key a ≤ key b := by
  have hkeys : (l.map key).Pairwise (· ≤ ·) := pairwise_map.mpr h
  have hbefore : ∀ b ∈ l.take (search.position (l.map key) (key a)), key b ≤ key a := by
    intro b hb
    refine search.le_of_mem_take hkeys (key b) ?_
    rw [← map_take]
    exact mem_map_of_mem hb
  have hbehind : ∀ b ∈ l.drop (search.position (l.map key) (key a)), key a ≤ key b := by
    intro b hb
    refine search.le_of_mem_drop hkeys (key b) ?_
    rw [← map_drop]
    exact mem_map_of_mem hb
  rw [pairwise_append, pairwise_cons]
  refine ⟨h.sublist (take_sublist _ _), ⟨hbehind, h.sublist (drop_sublist _ _)⟩, ?_⟩
  intro b hb c hc
  rcases mem_cons.mp hc with rfl | hc
  · exact hbefore b hb
  · exact (hbefore b hb).trans (hbehind c hc)

end BinarySearch

/-- The first position whose key is not smaller. -/
def lowerBound : List κ → κ → ℕ
  | [], _ => 0
  | k :: keys, key => if k < key then lowerBound keys key + 1 else 0

/-- The search that looks at one key after the other. -/
def linearSearch (κ : Type*) [LinearOrder κ] : BinarySearch κ where
  position := lowerBound
  position_le := by
    intro keys key hsorted
    induction hsorted with
    | nil => exact Nat.le_refl 0
    | cons _ _ ih =>
        unfold lowerBound
        split
        · exact Nat.succ_le_succ ih
        · exact Nat.zero_le _
  le_of_mem_take := by
    intro keys key hsorted
    induction hsorted with
    | nil => simp
    | cons _ _ ih =>
        unfold lowerBound
        split
        next hlt =>
          rw [List.take_succ_cons]
          exact List.forall_mem_cons.mpr ⟨le_of_lt hlt, ih⟩
        next => simp
  le_of_mem_drop := by
    intro keys key hsorted
    induction hsorted with
    | nil => simp
    | cons hfirst _ ih =>
        unfold lowerBound
        split
        next =>
          rw [List.drop_succ_cons]
          exact ih
        next hge =>
          have hle := not_lt.mp hge
          exact List.forall_mem_cons.mpr ⟨hle, fun k hk => hle.trans (hfirst k hk)⟩

end Virtmcu
