import Mathlib.Data.List.Sort

/-! # Sorting under a total comparator

`sortBy cmp` sorts a list by a three-way comparator. When the comparator is transitive and answers
`eq` only on equal elements (`Std.TransCmp`, `Std.LawfulEqCmp`), the sorted list is a function of the
*multiset* of elements: two permutations of one list sort to the same list
(`sortBy_eq_of_perm`). That is the whole reason a stable and an unstable sort, or two arrival orders,
cannot be told apart after sorting. -/

namespace Virtmcu

open List

variable {α : Type*} (cmp : α → α → Ordering)

/-- `a` comes no later than `b` under the comparator. -/
def CmpLe (a b : α) : Prop := (cmp a b).isLE = true

instance : DecidableRel (CmpLe cmp) := fun a b => inferInstanceAs (Decidable ((cmp a b).isLE = true))

/-- The list sorted in non-decreasing comparator order. -/
def sortBy (l : List α) : List α := l.insertionSort (CmpLe cmp)

/-- Sorting permutes. -/
theorem sortBy_perm (l : List α) : (sortBy cmp l).Perm l := perm_insertionSort _ l

/-- Sorting neither adds nor loses elements. -/
@[simp] theorem mem_sortBy {l : List α} {a : α} : a ∈ sortBy cmp l ↔ a ∈ l :=
  (sortBy_perm cmp l).mem_iff

section Total

variable [Std.TransCmp cmp]

/-- A transitive comparator compares any two elements one way or the other. -/
theorem cmpLe_total (a b : α) : CmpLe cmp a b ∨ CmpLe cmp b a := by
  unfold CmpLe
  rw [@Std.OrientedCmp.eq_swap α cmp _ b a]
  cases cmp a b <;> simp

theorem cmpLe_trans {a b c : α} (hab : CmpLe cmp a b) (hbc : CmpLe cmp b c) : CmpLe cmp a c :=
  Std.TransCmp.isLE_trans hab hbc

/-- The result of a sort is in non-decreasing order. -/
theorem pairwise_sortBy (l : List α) : (sortBy cmp l).Pairwise (CmpLe cmp) :=
  haveI : Std.Total (CmpLe cmp) := ⟨cmpLe_total cmp⟩
  haveI : IsTrans α (CmpLe cmp) := ⟨fun _ _ _ => cmpLe_trans cmp⟩
  pairwise_insertionSort _ l

/-- An element that strictly precedes another one comes before it in the sorted list. -/
theorem pair_sublist_sortBy {l : List α} {a b : α} (ha : a ∈ l) (hb : b ∈ l)
    (hlt : ¬ CmpLe cmp b a) : List.Sublist [a, b] (sortBy cmp l) := by
  have hsorted := pairwise_sortBy cmp l
  obtain ⟨pre, post, hsplit⟩ := append_of_mem ((mem_sortBy cmp).mpr hb)
  have ha' : a ∈ pre ++ b :: post := hsplit ▸ (mem_sortBy cmp).mpr ha
  rw [hsplit] at hsorted ⊢
  -- if `a` came after `b`, the sorted list would have `b` before `a`
  rcases mem_append.mp ha' with hpre | hpost
  · exact (singleton_sublist.mpr hpre).append (singleton_sublist.mpr mem_cons_self)
  · rcases mem_cons.mp hpost with rfl | hpost
    · exact absurd ((cmpLe_total cmp a a).elim id id) hlt
    · have htail := (pairwise_append.mp hsorted).2.1
      exact absurd (rel_of_pairwise_cons htail hpost) hlt

variable [Std.LawfulEqCmp cmp]

/-- Elements that compare both ways are equal. -/
theorem cmpLe_antisymm {a b : α} (hab : CmpLe cmp a b) (hba : CmpLe cmp b a) : a = b := by
  unfold CmpLe at hab hba
  rw [@Std.OrientedCmp.eq_swap α cmp _ b a] at hba
  apply @Std.LawfulEqCmp.eq_of_compare α cmp
  cases h : cmp a b <;> simp_all

/-- A list that is already in order is the sorting of each of its permutations. -/
theorem sortBy_eq_of_pairwise {l s : List α} (hs : s.Pairwise (CmpLe cmp)) (h : s.Perm l) :
    sortBy cmp l = s :=
  ((sortBy_perm cmp l).trans h.symm).eq_of_pairwise
    (fun _ _ _ _ => cmpLe_antisymm cmp) (pairwise_sortBy cmp l) hs

/-- **Sorting is canonical**: permutations of one list sort to the same list. -/
theorem sortBy_eq_of_perm {l l' : List α} (h : l.Perm l') : sortBy cmp l = sortBy cmp l' :=
  sortBy_eq_of_pairwise cmp (pairwise_sortBy cmp l') ((sortBy_perm cmp l').trans h.symm)

end Total

/-! ## Comparing by a key -/

section Key

variable {β : Type*} [Ord α] [Ord β] {key : α → β}

/-- Comparing by a key is transitive if the keys are. -/
theorem transOrd_of_key [Std.TransOrd β] (h : ∀ a b : α, compare a b = compare (key a) (key b)) :
    Std.TransOrd α where
  eq_swap {a b} := by
    rw [h a b, h b a]
    exact Std.OrientedCmp.eq_swap
  isLE_trans {a b c} hab hbc := by
    rw [h] at hab hbc ⊢
    exact Std.TransCmp.isLE_trans hab hbc

/-- Comparing by a key tells different elements apart if the key does. -/
theorem lawfulEqOrd_of_key [Std.LawfulEqOrd β]
    (h : ∀ a b : α, compare a b = compare (key a) (key b)) (hkey : Function.Injective key) :
    Std.LawfulEqOrd α where
  compare_self {a} := by
    rw [h]
    exact Std.ReflCmp.compare_self
  eq_of_compare {a b} hab := by
    rw [h] at hab
    exact hkey (Std.LawfulEqCmp.eq_of_compare hab)

end Key

end Virtmcu
