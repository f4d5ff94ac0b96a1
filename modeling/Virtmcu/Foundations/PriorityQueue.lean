import Mathlib.Algebra.Order.Group.Multiset

/-! # Priority queues

A priority queue by what it promises: a multiset of elements, of which `pop` takes one with the smallest
key. Which of several elements with that key it takes is left to the implementation. Elements that
satisfy a condition which smaller keys satisfy as well come first (`PriorityQueue.popWhile`), so a loop
that pops while the condition holds takes exactly those, in the order of their keys. -/

namespace Virtmcu

open List

universe u

/-- An implementation of a priority queue. -/
structure PriorityQueue (α : Type u) {κ : Type*} [LinearOrder κ] (key : α → κ) where
  /-- The queues. -/
  Carrier : Type u
  /-- What is in a queue. -/
  items : Carrier → Multiset α
  empty : Carrier
  push : α → Carrier → Carrier
  /-- The element with the smallest key, and the queue without it. -/
  pop : Carrier → Option (α × Carrier)
  items_empty : items empty = 0
  items_push : ∀ a q, items (push a q) = a ::ₘ items q
  items_of_pop_none : ∀ {q}, pop q = none → items q = 0
  items_of_pop_some : ∀ {q a r}, pop q = some (a, r) → items q = a ::ₘ items r
  key_le_of_pop_some : ∀ {q a r}, pop q = some (a, r) → ∀ b ∈ items r, key a ≤ key b

namespace PriorityQueue

variable {α : Type u} {κ : Type*} [LinearOrder κ] {key : α → κ} (Q : PriorityQueue α key)

attribute [simp] items_empty items_push

/-- The element that `pop` takes. -/
def peek (q : Q.Carrier) : Option α := (Q.pop q).map Prod.fst

/-- There is nothing in the queue. -/
def isEmpty (q : Q.Carrier) : Bool := (Q.pop q).isNone

theorem isEmpty_iff (q : Q.Carrier) : Q.isEmpty q = true ↔ Q.items q = 0 := by
  unfold isEmpty
  rw [Option.isNone_iff_eq_none]
  refine ⟨Q.items_of_pop_none, fun h => ?_⟩
  cases hpop : Q.pop q with
  | none => rfl
  | some taken =>
    have hitems := Q.items_of_pop_some (a := taken.1) (r := taken.2) hpop
    exact absurd (h ▸ hitems).symm (Multiset.cons_ne_zero)

/-- All elements of a list are pushed, one after the other. -/
def pushAll (l : List α) (q : Q.Carrier) : Q.Carrier := l.foldl (fun q a => Q.push a q) q

@[simp] theorem items_pushAll (l : List α) (q : Q.Carrier) :
    Q.items (Q.pushAll l q) = Q.items q + (l : Multiset α) := by
  unfold pushAll
  induction l generalizing q with
  | nil => simp
  | cons a l ih =>
    rw [foldl_cons, ih, Q.items_push, ← Multiset.cons_coe, Multiset.cons_add, Multiset.add_cons]

/-! ## Popping while a condition holds -/

/-- Pops while the next element satisfies the condition, at most `fuel` times: the elements that are
taken, and the queue without them. -/
def popWhile (p : α → Bool) : (fuel : ℕ) → Q.Carrier → List α × Q.Carrier
  | 0, q => ([], q)
  | fuel + 1, q =>
      match Q.pop q with
      | none => ([], q)
      | some (a, r) => if p a then (a :: (popWhile p fuel r).1, (popWhile p fuel r).2) else ([], q)

/-- What is taken was in the queue. -/
theorem popWhile_items (p : α → Bool) (fuel : ℕ) (q : Q.Carrier) :
    Q.items q = ((Q.popWhile p fuel q).1 : Multiset α) + Q.items (Q.popWhile p fuel q).2 := by
  induction fuel generalizing q with
  | zero => simp [popWhile]
  | succ fuel ih =>
    unfold popWhile
    cases hpop : Q.pop q with
    | none => simp
    | some taken =>
      obtain ⟨a, r⟩ := taken
      dsimp only
      split
      · rw [Q.items_of_pop_some hpop, ← Multiset.cons_coe, Multiset.cons_add, ← ih]
      · simp

theorem popWhile_forall (p : α → Bool) (fuel : ℕ) (q : Q.Carrier) :
    ∀ a ∈ (Q.popWhile p fuel q).1, p a = true := by
  induction fuel generalizing q with
  | zero => simp [popWhile]
  | succ fuel ih =>
    unfold popWhile
    split
    · simp
    · split
      · rename_i a r hpop hp
        exact forall_mem_cons.mpr ⟨hp, ih r⟩
      · simp

/-- **In the order of their keys.** -/
theorem popWhile_sorted (p : α → Bool) (fuel : ℕ) (q : Q.Carrier) :
    (Q.popWhile p fuel q).1.Pairwise fun a b => key a ≤ key b := by
  induction fuel generalizing q with
  | zero => exact List.Pairwise.nil
  | succ fuel ih =>
    unfold popWhile
    cases hpop : Q.pop q with
    | none => exact List.Pairwise.nil
    | some taken =>
      obtain ⟨a, r⟩ := taken
      dsimp only
      split
      · refine pairwise_cons.mpr ⟨fun b hb => ?_, ih r⟩
        refine Q.key_le_of_pop_some hpop b ?_
        rw [Q.popWhile_items p fuel r]
        exact Multiset.mem_add.mpr (.inl (Multiset.mem_coe.mpr hb))
      · exact List.Pairwise.nil

variable {p : α → Bool} (hp : ∀ a b, key a ≤ key b → p b = true → p a = true)

include hp

/-- Nothing that satisfies the condition is left. -/
theorem not_of_mem_popWhile {fuel : ℕ} {q : Q.Carrier} (hfuel : (Q.items q).card ≤ fuel) :
    ∀ a ∈ Q.items (Q.popWhile p fuel q).2, p a = false := by
  induction fuel generalizing q with
  | zero =>
    intro a ha
    rw [popWhile, Multiset.card_eq_zero.mp (Nat.le_zero.mp hfuel)] at ha
    exact absurd ha (Multiset.notMem_zero a)
  | succ fuel ih =>
    unfold popWhile
    cases hpop : Q.pop q with
    | none =>
      intro a ha
      rw [Q.items_of_pop_none hpop] at ha
      exact absurd ha (Multiset.notMem_zero a)
    | some taken =>
      obtain ⟨a, r⟩ := taken
      dsimp only
      split
      · refine ih ?_
        rw [Q.items_of_pop_some hpop, Multiset.card_cons] at hfuel
        exact Nat.le_of_succ_le_succ hfuel
      · -- the condition fails at the smallest key, so it fails everywhere
        rename_i ha
        intro b hb
        rw [Q.items_of_pop_some hpop, Multiset.mem_cons] at hb
        rcases hb with rfl | hb
        · exact Bool.eq_false_iff.mpr ha
        · refine Bool.eq_false_iff.mpr fun hpb => ha ?_
          exact hp a b (Q.key_le_of_pop_some hpop b hb) hpb

/-- **The loop takes exactly what satisfies the condition.** -/
theorem popWhile_eq_filter {fuel : ℕ} {q : Q.Carrier} (hfuel : (Q.items q).card ≤ fuel) :
    ((Q.popWhile p fuel q).1 : Multiset α) = (Q.items q).filter (p · = true) ∧
      Q.items (Q.popWhile p fuel q).2 = (Q.items q).filter (p · = false) := by
  have htaken := Q.popWhile_forall p fuel q
  have hleft := Q.not_of_mem_popWhile hp hfuel
  rw [Q.popWhile_items p fuel q, Multiset.filter_add, Multiset.filter_add]
  constructor
  · rw [Multiset.filter_eq_self.mpr (fun a ha => htaken a (Multiset.mem_coe.mp ha)),
      Multiset.filter_eq_nil.mpr (fun a ha => Bool.eq_false_iff.mp (hleft a ha)), add_zero]
  · rw [Multiset.filter_eq_nil.mpr (fun a ha => by simp [htaken a (Multiset.mem_coe.mp ha)]),
      Multiset.filter_eq_self.mpr (fun a ha => hleft a ha), zero_add]

end PriorityQueue

/-! ## An implementation -/

section

variable {α : Type u} {κ : Type*} [LinearOrder κ] (key : α → κ)

/-- The first element with the smallest key, and the list without it. -/
def extractMin : List α → Option (α × List α)
  | [] => none
  | a :: l =>
      match extractMin l with
      | none => some (a, [])
      | some (b, r) => if key a ≤ key b then some (a, l) else some (b, a :: r)

variable {key}

theorem extractMin_none {l : List α} (h : extractMin key l = none) : l = [] := by
  cases l with
  | nil => rfl
  | cons a l =>
    unfold extractMin at h
    split at h
    · cases h
    · split at h <;> cases h

theorem extractMin_some {l r : List α} {a : α} (h : extractMin key l = some (a, r)) :
    l.Perm (a :: r) ∧ ∀ b ∈ r, key a ≤ key b := by
  induction l generalizing a r with
  | nil => cases h
  | cons x l ih =>
    unfold extractMin at h
    cases hmin : extractMin key l with
    | none =>
      rw [hmin, Option.some.injEq, Prod.mk.injEq] at h
      obtain ⟨rfl, rfl⟩ := h
      rw [extractMin_none hmin]
      exact ⟨List.Perm.refl _, fun b hb => absurd hb not_mem_nil⟩
    | some taken =>
      obtain ⟨b, s⟩ := taken
      obtain ⟨hperm, hle⟩ := ih hmin
      rw [hmin] at h
      dsimp only at h
      split at h
      · rename_i hxb
        obtain ⟨rfl, rfl⟩ := Prod.mk.inj (Option.some.inj h)
        refine ⟨List.Perm.refl _, fun c hc => ?_⟩
        rcases mem_cons.mp (hperm.mem_iff.mp hc) with rfl | hc
        · exact hxb
        · exact hxb.trans (hle c hc)
      · rename_i hxb
        obtain ⟨rfl, rfl⟩ := Prod.mk.inj (Option.some.inj h)
        refine ⟨(hperm.cons x).trans (List.Perm.swap b x s), fun c hc => ?_⟩
        rcases mem_cons.mp hc with rfl | hc
        · exact (le_of_lt (not_le.mp hxb))
        · exact hle c hc

variable (key)

/-- A list that is searched for its minimum. -/
def listQueue : PriorityQueue α key where
  Carrier := List α
  items l := l
  empty := []
  push a l := a :: l
  pop := extractMin key
  items_empty := rfl
  items_push _ _ := rfl
  items_of_pop_none h := by rw [extractMin_none h]; rfl
  items_of_pop_some h := Multiset.coe_eq_coe.mpr (extractMin_some h).1
  key_le_of_pop_some h b hb := (extractMin_some h).2 b (Multiset.mem_coe.mp hb)

end

end Virtmcu
