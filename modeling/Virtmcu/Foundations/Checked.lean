import Mathlib.Data.List.Basic

/-! # Checked traversals

A traversal of a list in `Except` whose step either passes a check and computes, or fails: it succeeds
exactly when all elements pass, and then it is the plain traversal. -/

namespace Virtmcu

open List

universe u

variable {ε : Type*} {α β σ : Type u}

/-- A binding succeeds when both its parts do. -/
theorem bind_eq_ok_iff {x : Except ε α} {f : α → Except ε β} {r : β} :
    (x >>= f) = .ok r ↔ ∃ a, x = .ok a ∧ f a = .ok r := by
  cases x with
  | error e | ok a => simp [bind, Except.bind]

/-- **Mapping with a check** succeeds when every element passes. -/
theorem mapM_eq_ok_iff {f : α → Except ε β} {ok : α → Prop} {g : α → β}
    (hf : ∀ a r, f a = .ok r ↔ ok a ∧ r = g a) (l : List α) (r : List β) :
    l.mapM f = .ok r ↔ (∀ a ∈ l, ok a) ∧ r = l.map g := by
  induction l generalizing r with
  | nil => simp [pure, Except.pure, eq_comm]
  | cons a l ih =>
    rw [mapM_cons, bind_eq_ok_iff]
    simp only [bind_eq_ok_iff, hf, ih, pure, Except.pure, Except.ok.injEq, forall_mem_cons, map_cons]
    constructor
    · rintro ⟨b, ⟨ha, rfl⟩, bs, ⟨hl, rfl⟩, rfl⟩
      exact ⟨⟨ha, hl⟩, rfl⟩
    · rintro ⟨⟨ha, hl⟩, rfl⟩
      exact ⟨g a, ⟨ha, rfl⟩, l.map g, ⟨hl, rfl⟩, rfl⟩

/-- **Folding with a check** succeeds when every element passes. -/
theorem foldlM_eq_ok_iff {f : σ → α → Except ε σ} {ok : α → Prop} {g : σ → α → σ}
    (hf : ∀ s a r, f s a = .ok r ↔ ok a ∧ r = g s a) (l : List α) (s r : σ) :
    l.foldlM f s = .ok r ↔ (∀ a ∈ l, ok a) ∧ r = l.foldl g s := by
  induction l generalizing s with
  | nil => simp [pure, Except.pure, eq_comm]
  | cons a l ih =>
    rw [foldlM_cons, bind_eq_ok_iff]
    simp only [hf, ih, forall_mem_cons, foldl_cons]
    constructor
    · rintro ⟨s', ⟨ha, rfl⟩, hl, rfl⟩
      exact ⟨⟨ha, hl⟩, rfl⟩
    · rintro ⟨⟨ha, hl⟩, rfl⟩
      exact ⟨g s a, ⟨ha, rfl⟩, hl, rfl⟩

end Virtmcu
