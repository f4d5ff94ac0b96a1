import Mathlib.Data.List.Nodup
import Mathlib.Data.List.Perm.Basic

/-! # Hash containers and their iteration order

A hash set or map answers membership and lookups independently of how it stores its elements, but a
`for` loop over it sees them in an order the program does not control. Both containers are represented
here by that order: the list of elements a loop would visit, without repetitions. Two permutations of
the list are the same container under two iteration orders, and "for every iteration order" is
quantification over permutations. -/

namespace Virtmcu

open List

/-- An iteration order: some permutation of the elements. -/
structure IterationOrder (α : Type*) where
  /-- The elements in the order a loop visits them. -/
  visit : List α → List α
  visit_perm : ∀ l, (visit l).Perm l

/-- Iteration in insertion order. -/
def IterationOrder.insertion (α : Type*) : IterationOrder α := ⟨id, fun _ => List.Perm.refl _⟩

/-- Iteration against the order of insertion. -/
def IterationOrder.reversed (α : Type*) : IterationOrder α := ⟨List.reverse, List.reverse_perm⟩

/-- A list without repetitions that reads the same in both directions has at most one element. -/
theorem eq_of_reverse_eq {α : Type*} {l : List α} (hnodup : l.Nodup) (hrev : l.reverse = l) {a b : α}
    (ha : a ∈ l) (hb : b ∈ l) : a = b := by
  cases l with
  | nil => exact absurd ha not_mem_nil
  | cons c l =>
    have hl : l = [] := by
      by_contra hne
      -- the first element of the reversed list comes from the tail
      have hhead : l.getLast hne = c := by
        have hfirst := congrArg List.head? hrev
        rw [reverse_cons, List.head?_append_of_ne_nil _ (by simpa using hne),
          List.head?_reverse, getLast?_eq_getLast_of_ne_nil hne, List.head?_cons] at hfirst
        exact Option.some.inj hfirst
      exact (nodup_cons.mp hnodup).1 (hhead ▸ getLast_mem hne)
    rw [hl, mem_singleton] at ha hb
    rw [ha, hb]

/-- Permutations of a list with at most one element are equal. -/
theorem eq_of_perm_of_subsingleton {α : Type*} {l l' : List α} (hperm : l.Perm l')
    (hnodup : l.Nodup) (hall : ∀ a ∈ l, ∀ b ∈ l, a = b) : l = l' := by
  cases l with
  | nil => exact (nil_perm.mp hperm).symm
  | cons a l =>
    have hl : l = [] := by
      rw [eq_nil_iff_forall_not_mem]
      intro b hb
      have hab := hall a mem_cons_self b (mem_cons_of_mem _ hb)
      exact (nodup_cons.mp hnodup).1 (hab ▸ hb)
    rw [hl] at hperm ⊢
    exact singleton_perm.mp hperm

/-- A hash set, given by the elements in iteration order. -/
structure HashSet (α : Type*) where
  toList : List α
  nodup : toList.Nodup

namespace HashSet

variable {α : Type*} [DecidableEq α]

/-- Insert an element; an element that is present stays where it is. -/
def insert (s : HashSet α) (a : α) : HashSet α :=
  if h : a ∈ s.toList then s else ⟨s.toList ++ [a], by
    rw [← List.concat_eq_append]
    exact List.Nodup.concat h s.nodup⟩

theorem toList_insert_of_notMem {s : HashSet α} {a : α} (h : a ∉ s.toList) :
    (s.insert a).toList = s.toList ++ [a] := by
  simp [insert, h]

theorem mem_insert {s : HashSet α} {a b : α} : b ∈ (s.insert a).toList ↔ b ∈ s.toList ∨ b = a := by
  by_cases h : a ∈ s.toList
  · have hsame : s.insert a = s := dif_pos h
    rw [hsame]
    constructor
    · exact .inl
    · rintro (hb | rfl)
      · exact hb
      · exact h
  · rw [toList_insert_of_notMem h, mem_append, mem_singleton]

/-- The elements of a list, first occurrences first. -/
def ofList (l : List α) : HashSet α := l.foldl insert ⟨[], List.nodup_nil⟩

theorem mem_ofList {l : List α} {a : α} : a ∈ (ofList l).toList ↔ a ∈ l := by
  have hfold : ∀ (s : HashSet α), a ∈ (l.foldl insert s).toList ↔ a ∈ s.toList ∨ a ∈ l := by
    induction l with
    | nil => simp
    | cons b l ih =>
      intro s
      rw [foldl_cons, ih, mem_insert, mem_cons, or_assoc]
  rw [ofList, hfold]
  simp

/-- The same set under another iteration order. -/
def reorder (s : HashSet α) (o : IterationOrder α) : HashSet α :=
  ⟨o.visit s.toList, (o.visit_perm _).nodup_iff.mpr s.nodup⟩

omit [DecidableEq α] in
theorem mem_reorder {s : HashSet α} {o : IterationOrder α} {a : α} :
    a ∈ (s.reorder o).toList ↔ a ∈ s.toList :=
  (o.visit_perm _).mem_iff

end HashSet

/-- A hash map, given by its entries in iteration order; no key occurs twice. -/
structure HashMap (κ ν : Type*) where
  toList : List (κ × ν)
  nodup : (toList.map Prod.fst).Nodup

namespace HashMap

variable {κ ν : Type*} [DecidableEq κ]

/-- The map without entries. -/
def empty : HashMap κ ν := ⟨[], List.nodup_nil⟩

/-- The value of a key. -/
def get (m : HashMap κ ν) (k : κ) : Option ν := m.toList.lookup k

/-- Insert an entry, replacing the value of a key that is present. -/
def insert (m : HashMap κ ν) (k : κ) (v : ν) : HashMap κ ν :=
  if h : k ∈ m.toList.map Prod.fst then
    ⟨m.toList.map fun e => if e.1 = k then (k, v) else e, by
      have hkeys : (m.toList.map fun e => if e.1 = k then (k, v) else e).map Prod.fst =
          m.toList.map Prod.fst := by
        rw [List.map_map]
        refine List.map_congr_left fun e _ => ?_
        by_cases he : e.1 = k <;> simp [he]
      rw [hkeys]
      exact m.nodup⟩
  else ⟨m.toList ++ [(k, v)], by
    rw [List.map_append, List.map_singleton, ← List.concat_eq_append]
    exact List.Nodup.concat h m.nodup⟩

/-- The same map under another iteration order. -/
def reorder (m : HashMap κ ν) (o : IterationOrder (κ × ν)) : HashMap κ ν :=
  ⟨o.visit m.toList, ((o.visit_perm _).map _).nodup_iff.mpr m.nodup⟩

/-- A key has the value of its entry. -/
theorem get_eq_some_iff (m : HashMap κ ν) {k : κ} {v : ν} : m.get k = some v ↔ (k, v) ∈ m.toList := by
  obtain ⟨l, hl⟩ := m
  show l.lookup k = some v ↔ (k, v) ∈ l
  induction l with
  | nil => simp
  | cons e l ih =>
    obtain ⟨k', v'⟩ := e
    rw [map_cons, nodup_cons] at hl
    by_cases hk : k = k'
    · subst hk
      -- the key does not occur again, so the first entry is the only one
      have hnot : (k, v) ∉ l := fun hmem => hl.1 (mem_map.mpr ⟨(k, v), hmem, rfl⟩)
      simp [hnot, eq_comm]
    · have hbeq : (k == k') = false := by simpa using hk
      rw [lookup_cons, hbeq, mem_cons, ih hl.2]
      simp [hk]

/-- A lookup after an insertion. -/
theorem get_insert (m : HashMap κ ν) (k : κ) (v : ν) (k' : κ) :
    (m.insert k v).get k' = if k' = k then some v else m.get k' := by
  apply Option.ext
  intro w
  rw [get_eq_some_iff]
  unfold insert
  by_cases hk : k ∈ m.toList.map Prod.fst
  · -- the entry of `k` is replaced
    rw [dif_pos hk, mem_map]
    by_cases heq : k' = k
    · subst heq
      rw [if_pos rfl]
      obtain ⟨e, he, hkey⟩ := mem_map.mp hk
      constructor
      · rintro ⟨e', he', hentry⟩
        by_cases hk' : e'.1 = k'
        · rw [if_pos hk'] at hentry
          rw [(Prod.mk.inj hentry).2]
        · rw [if_neg hk'] at hentry
          exact absurd (congrArg Prod.fst hentry) hk'
      · intro hw
        refine ⟨e, he, ?_⟩
        rw [if_pos hkey, Option.some.inj hw]
    · rw [if_neg heq, get_eq_some_iff]
      constructor
      · rintro ⟨e', he', hentry⟩
        by_cases hk' : e'.1 = k
        · rw [if_pos hk'] at hentry
          exact absurd (congrArg Prod.fst hentry).symm heq
        · rw [if_neg hk'] at hentry
          rwa [← hentry]
      · intro hmem
        exact ⟨(k', w), hmem, if_neg heq⟩
  · rw [dif_neg hk, mem_append, mem_singleton]
    by_cases heq : k' = k
    · subst heq
      have hnot : (k', w) ∉ m.toList := fun hmem => hk (mem_map.mpr ⟨(k', w), hmem, rfl⟩)
      simp [hnot, eq_comm]
    · rw [if_neg heq, get_eq_some_iff]
      simp [heq]

/-- Remove the entry of a key. -/
def remove (m : HashMap κ ν) (k : κ) : HashMap κ ν :=
  ⟨m.toList.filter fun e => e.1 ≠ k, (List.filter_sublist.map _).nodup m.nodup⟩

/-- A lookup after a removal. -/
theorem get_remove (m : HashMap κ ν) (k k' : κ) :
    (m.remove k).get k' = if k' = k then none else m.get k' := by
  apply Option.ext
  intro v
  rw [get_eq_some_iff]
  by_cases heq : k' = k
  · simp [remove, heq]
  · rw [if_neg heq, get_eq_some_iff]
    simp [remove, heq]

/-- A key that is removed leaves fewer entries. -/
theorem length_remove_lt (m : HashMap κ ν) {k : κ} {v : ν} (h : m.get k = some v) :
    (m.remove k).toList.length < m.toList.length := by
  rw [get_eq_some_iff] at h
  refine length_filter_lt_length_iff_exists.mpr ⟨(k, v), h, ?_⟩
  simp

/-- Lookups do not see the iteration order. -/
theorem get_eq_of_perm {m m' : HashMap κ ν} (h : m.toList.Perm m'.toList) (k : κ) : m.get k = m'.get k := by
  apply Option.ext
  intro v
  rw [get_eq_some_iff, get_eq_some_iff, h.mem_iff]

end HashMap

end Virtmcu
