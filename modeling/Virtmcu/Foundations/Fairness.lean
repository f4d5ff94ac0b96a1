import Mathlib.Algebra.BigOperators.Group.Finset.Basic
import Mathlib.Order.Filter.AtTopBot.Basic
import Mathlib.Order.Filter.Finite
import Virtmcu.Foundations.Transition

/-! # Endless runs and fairness

A machine that is driven by inputs runs for ever; at some times nothing happens. The run is fair to a set
of inputs if one of them is taken again and again whenever one of them could be taken again and again.
What holds from some time on, and what holds again and again, is said with the filter `atTop`.

There is one rule (`Behaviour.eventually_not_ok`): if no step raises a rank and the steps of a fair set
lower it, then from some time on no input of the set can be taken. -/

namespace Virtmcu

open Filter

/-! ## Sequences -/

section

variable {α : Type*}

/-- A sequence that does not change from some time on has a last value. -/
theorem exists_eventually_eq {f : ℕ → α} (h : ∀ᶠ n in atTop, f (n + 1) = f n) :
    ∃ a, ∀ᶠ n in atTop, f n = a := by
  obtain ⟨N, hN⟩ := eventually_atTop.mp h
  refine ⟨f N, eventually_atTop.mpr ⟨N, fun n hn => ?_⟩⟩
  induction n, hn using Nat.le_induction with
  | base => rfl
  | succ n hn ih => rw [hN n hn, ih]

/-- What holds from some time on holds at the next time. -/
theorem eventually_succ {p : ℕ → Prop} (h : ∀ᶠ n in atTop, p n) : ∀ᶠ n in atTop, p (n + 1) :=
  (tendsto_add_atTop_nat 1).eventually h

/-- Numbers that never get larger from some time on change only finitely often. -/
theorem eventually_succ_eq {V : ℕ → ℕ} (h : ∀ᶠ n in atTop, V (n + 1) ≤ V n) :
    ∀ᶠ n in atTop, V (n + 1) = V n := by
  obtain ⟨N, hN⟩ := eventually_atTop.mp h
  -- the least value after that time is the last one
  obtain ⟨v, ⟨M, hM, rfl⟩, hmin⟩ :=
    wellFounded_lt.has_min {v | ∃ n, N ≤ n ∧ V n = v} ⟨V N, N, le_rfl, rfl⟩
  have hlast : ∀ n, M ≤ n → V n = V M := by
    intro n hn
    induction n, hn using Nat.le_induction with
    | base => rfl
    | succ n hn ih =>
      have hle := hN n (hM.trans hn)
      have hge : ¬ V (n + 1) < V M := hmin _ ⟨n + 1, by omega, rfl⟩
      omega
  refine eventually_atTop.mpr ⟨M, fun n hn => ?_⟩
  rw [hlast n hn, hlast (n + 1) (by omega)]

/-- A sum over a family when one member changes. -/
theorem sum_update_add {ι : Type*} [Fintype ι] [DecidableEq ι] (f : α → ℕ) (g : ι → α) (i : ι)
    (a : α) : ∑ j, f (Function.update g i a j) + f (g i) = ∑ j, f (g j) + f a := by
  have hrest : ∑ j ∈ Finset.univ.erase i, f (Function.update g i a j) =
      ∑ j ∈ Finset.univ.erase i, f (g j) := by
    refine Finset.sum_congr rfl fun j hj => ?_
    rw [Function.update_of_ne (Finset.ne_of_mem_erase hj)]
  rw [← Finset.add_sum_erase _ _ (Finset.mem_univ i), hrest, Function.update_self,
    ← Finset.add_sum_erase _ (fun j => f (g j)) (Finset.mem_univ i)]
  omega

end

/-! ## Runs -/

section

variable {σ ι : Type*} (step : σ → ι → σ) (ok : σ → ι → Bool)

/-- An endless run of a machine on inputs that pass a test. -/
structure Behaviour (start : σ) where
  state : ℕ → σ
  /-- The input at a time, if there is one. -/
  move : ℕ → Option ι
  state_zero : state 0 = start
  idle : ∀ n, move n = none → state (n + 1) = state n
  next : ∀ n i, move n = some i → ok (state n) i = true ∧ state (n + 1) = step (state n) i

namespace Behaviour

variable {step ok} {start : σ} (r : Behaviour step ok start)

/-- The run is strongly fair to a set of inputs. -/
def Fair (F : Set ι) : Prop :=
  (∃ᶠ n in atTop, ∃ i ∈ F, ok (r.state n) i = true) → ∃ᶠ n in atTop, ∃ i ∈ F, r.move n = some i

/-- What a run gets to, the machine gets to. -/
theorem steps (n : ℕ) : Relation.ReflTransGen (GuardedStep step ok) start (r.state n) := by
  induction n with
  | zero => rw [r.state_zero]
  | succ n ih =>
    cases hmove : r.move n with
    | none => rwa [r.idle n hmove]
    | some i =>
      obtain ⟨hok, hnext⟩ := r.next n i hmove
      exact ih.tail ⟨i, hok, hnext.symm⟩

/-- What is true of a state itself and of everything a step leads to from it is true at the next time. -/
theorem next_of_step {P : σ → Prop} {n : ℕ} (hsame : P (r.state n))
    (hstep : ∀ i, r.move n = some i → ok (r.state n) i = true → P (step (r.state n) i)) :
    P (r.state (n + 1)) := by
  cases hmove : r.move n with
  | none => rwa [r.idle n hmove]
  | some i =>
    obtain ⟨hok, hnext⟩ := r.next n i hmove
    rw [hnext]
    exact hstep i hmove hok

/-- What holds at the start and is kept by the steps of the run holds at all times. -/
theorem forall_state {P : σ → Prop} (hstart : P start)
    (hstep : ∀ n i, r.move n = some i → ok (r.state n) i = true → P (r.state n) →
      P (step (r.state n) i)) (n : ℕ) : P (r.state n) := by
  induction n with
  | zero => rwa [r.state_zero]
  | succ n ih => exact r.next_of_step ih fun i hmove hok => hstep n i hmove hok ih

/-- What every step keeps holds at all later times. -/
theorem of_le {P : σ → Prop} {N : ℕ} (hP : P (r.state N))
    (hstep : ∀ n, N ≤ n → P (r.state n) → P (r.state (n + 1))) {n : ℕ} (hn : N ≤ n) : P (r.state n) := by
  induction n, hn using Nat.le_induction with
  | base => exact hP
  | succ n hn ih => exact hstep n hn ih

/-- What steps keep from some time on either never holds again or holds for good. -/
theorem eventually_or_eventually_not {P : σ → Prop}
    (hstep : ∀ᶠ n in atTop, P (r.state n) → P (r.state (n + 1))) :
    (∀ᶠ n in atTop, P (r.state n)) ∨ ∀ᶠ n in atTop, ¬ P (r.state n) := by
  by_cases hfreq : ∃ᶠ n in atTop, P (r.state n)
  · obtain ⟨N, hN⟩ := eventually_atTop.mp hstep
    obtain ⟨M, hM, hP⟩ := frequently_atTop.mp hfreq N
    refine Or.inl (eventually_atTop.mpr ⟨M, fun n hn => ?_⟩)
    exact r.of_le hP (fun m hm => hN m (hM.trans hm)) hn
  · exact Or.inr (not_frequently.mp hfreq)

variable {r} {F : Set ι}

/-- If a fair set is not used from some time on, it cannot be used from some time on. -/
theorem Fair.eventually_not_ok_of_unused (hfair : r.Fair F)
    (hunused : ∀ᶠ n in atTop, ∀ i ∈ F, r.move n ≠ some i) :
    ∀ᶠ n in atTop, ∀ i ∈ F, ok (r.state n) i = false := by
  by_contra hcan
  have hfreq : ∃ᶠ n in atTop, ∃ i ∈ F, ok (r.state n) i = true := by
    refine (not_eventually.mp hcan).mono fun n hn => ?_
    push Not at hn
    obtain ⟨i, hi, hok⟩ := hn
    exact ⟨i, hi, Bool.eq_true_of_not_eq_false hok⟩
  obtain ⟨n, ⟨i, hi, hmove⟩, hno⟩ := ((hfair hfreq).and_eventually hunused).exists
  exact hno i hi hmove

/-- **Rank rule.** If no step raises a rank and the steps of a fair set lower it, then from some time on
no input of the set can be taken. -/
theorem Fair.eventually_not_ok (hfair : r.Fair F) (rank : σ → ℕ)
    (hle : ∀ᶠ n in atTop, rank (r.state (n + 1)) ≤ rank (r.state n))
    (hlt : ∀ᶠ n in atTop, ∀ i ∈ F, r.move n = some i → rank (r.state (n + 1)) < rank (r.state n)) :
    ∀ᶠ n in atTop, ∀ i ∈ F, ok (r.state n) i = false := by
  have hsame := eventually_succ_eq (V := fun n => rank (r.state n)) hle
  refine hfair.eventually_not_ok_of_unused ?_
  filter_upwards [hsame, hlt] with n hsame hlt i hi hmove
  exact absurd hsame (Nat.ne_of_lt (hlt i hi hmove))

end Behaviour

/-! ## Runs that come to rest -/

/-- The inputs of a run pass where they are taken. -/
theorem ok_of_passes {s : σ} {is : List ι} (h : passes step ok s is = true) {n : ℕ} {i : ι}
    (hi : is[n]? = some i) : ok ((is.take n).foldl step s) i = true := by
  induction is generalizing s n with
  | nil => cases hi
  | cons j is ih =>
    rw [passes, Bool.and_eq_true] at h
    cases n with
    | zero =>
      obtain rfl : j = i := Option.some.inj hi
      exact h.1
    | succ n => exact ih h.2 hi

namespace Behaviour

variable {step ok} {start : σ}

/-- A finite run, after which nothing happens. -/
def ofMoves (is : List ι) (h : passes step ok start is = true) : Behaviour step ok start where
  state n := (is.take n).foldl step start
  move n := is[n]?
  state_zero := rfl
  idle n hn := by
    have hlen : is.length ≤ n := List.getElem?_eq_none_iff.mp hn
    rw [List.take_of_length_le hlen, List.take_of_length_le (by omega)]
  next n i hi := by
    refine ⟨ok_of_passes step ok h hi, ?_⟩
    rw [List.take_add_one, hi, Option.toList_some, List.foldl_append]
    rfl

theorem state_ofMoves {is : List ι} (h : passes step ok start is = true) {n : ℕ}
    (hn : is.length ≤ n) : (ofMoves is h).state n = is.foldl step start :=
  congrArg (List.foldl step start) (List.take_of_length_le hn)

/-- What holds until a run comes to rest holds for good. -/
theorem forall_state_ofMoves {is : List ι} (h : passes step ok start is = true) {P : σ → Prop}
    (hP : ∀ n ≤ is.length, P ((ofMoves is h).state n)) (n : ℕ) : P ((ofMoves is h).state n) := by
  rcases Nat.le_total n is.length with hle | hge
  · exact hP n hle
  · rw [state_ofMoves h hge, ← state_ofMoves h le_rfl]
    exact hP is.length le_rfl

/-- A run that comes to rest is fair to what cannot be done in the end. -/
theorem fair_ofMoves {is : List ι} (h : passes step ok start is = true) {F : Set ι}
    (hrest : ∀ i ∈ F, ok (is.foldl step start) i = false) : (ofMoves is h).Fair F := by
  intro hfreq
  obtain ⟨n, hn, i, hi, hok⟩ := frequently_atTop.mp hfreq is.length
  rw [state_ofMoves h hn, hrest i hi] at hok
  cases hok

end Behaviour

end

end Virtmcu
