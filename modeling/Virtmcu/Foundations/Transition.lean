import Mathlib.Order.WellFounded

/-! # Transition systems

The steps of a system are a relation. Two rules about where steps lead: what every step keeps holds
wherever the system gets to, and a goal can be reached if from every state short of it some step gets
to it or lowers a rank. A machine that is driven by inputs is such a system, on the inputs that pass a
test in the state they find. -/

namespace Virtmcu

variable {σ β : Type*} {step : σ → σ → Prop}

/-- **Invariant rule.** -/
theorem steps_invariant {P : σ → Prop} (hstep : ∀ s s', step s s' → P s → P s') {s t : σ}
    (hpath : Relation.ReflTransGen step s t) (hs : P s) : P t := by
  induction hpath with
  | refl => exact hs
  | tail _ hlast ih => exact hstep _ _ hlast ih

/-- **Variant rule.** The argument maintains `P` until the goal `Q` is met; the rank may take its
values in any well-founded order. -/
theorem exists_goal_of_rank [LT β] [WellFoundedLT β] {P Q : σ → Prop} (rank : σ → β)
    (hstep : ∀ s, P s → Q s ∨ ∃ s', step s s' ∧ (Q s' ∨ (P s' ∧ rank s' < rank s)))
    {s : σ} (hs : P s) : ∃ s', Relation.ReflTransGen step s s' ∧ Q s' := by
  induction hr : rank s using WellFoundedLT.induction generalizing s with
  | ind r ih =>
    rcases hstep s hs with hgoal | ⟨s', hs', hgoal | ⟨hkept, hlt⟩⟩
    · exact ⟨s, .refl, hgoal⟩
    · exact ⟨s', .single hs', hgoal⟩
    · obtain ⟨t, hpath, hgoal⟩ := ih (rank s') (hr ▸ hlt) hkept rfl
      exact ⟨t, .head hs' hpath, hgoal⟩

/-! ## Machines with inputs -/

section

variable {ι : Type*} (step : σ → ι → σ) (ok : σ → ι → Bool)

/-- A step on an input that passes the test. -/
def GuardedStep (s s' : σ) : Prop := ∃ i, ok s i = true ∧ step s i = s'

/-- All inputs of a run pass the test. -/
def passes : σ → List ι → Bool
  | _, [] => true
  | s, i :: is => ok s i && passes (step s i) is

/-- A list of inputs that pass is a path. -/
theorem steps_of_passes {s : σ} {is : List ι} (h : passes step ok s is = true) :
    Relation.ReflTransGen (GuardedStep step ok) s (is.foldl step s) := by
  induction is generalizing s with
  | nil => exact .refl
  | cons i is ih =>
    rw [passes, Bool.and_eq_true] at h
    exact .head ⟨i, h.1, rfl⟩ (ih h.2)

end

end Virtmcu
