import Mathlib.Data.List.Induction

/-! # Runs of a deterministic machine with outputs

A machine is a function `step : σ → ι → σ × ο`: it consumes one input, moves to a new state and
answers one output. `finalState` is where a list of inputs leads and `entries` is the complete record
of the run: for every input the state before it, the answer, and the state after. Properties of
"every call of every run" are then properties of the members of `entries`, and the rules of the file
(`finalState_invariant`, `entries_invariant`, `forall_entries_iff`) are the only inductions over runs
that a client needs. -/

namespace Virtmcu

open List

variable {σ ι ο : Type*}

/-- One consumed input of a run. -/
structure Entry (σ ι ο : Type*) where
  /-- The state the input finds. -/
  before : σ
  /-- The input. -/
  input : ι
  /-- The answer of the machine. -/
  output : ο
  /-- The state the input leaves behind. -/
  after : σ

variable (step : σ → ι → σ × ο)

/-- The entry of input `i` in state `s`. -/
def entryAt (s : σ) (i : ι) : Entry σ ι ο := ⟨s, i, (step s i).2, (step s i).1⟩

@[simp] theorem entryAt_before (s : σ) (i : ι) : (entryAt step s i).before = s := rfl

@[simp] theorem entryAt_input (s : σ) (i : ι) : (entryAt step s i).input = i := rfl

@[simp] theorem entryAt_output (s : σ) (i : ι) : (entryAt step s i).output = (step s i).2 := rfl

@[simp] theorem entryAt_after (s : σ) (i : ι) : (entryAt step s i).after = (step s i).1 := rfl

/-- The state after all inputs. -/
def finalState (s : σ) (is : List ι) : σ := is.foldl (fun s i => (step s i).1) s

/-- The record of the run, oldest entry first. -/
def entries : σ → List ι → List (Entry σ ι ο)
  | _, [] => []
  | s, i :: is => entryAt step s i :: entries (step s i).1 is

@[simp] theorem finalState_nil (s : σ) : finalState step s [] = s := rfl

@[simp] theorem finalState_cons (s : σ) (i : ι) (is : List ι) :
    finalState step s (i :: is) = finalState step (step s i).1 is := rfl

@[simp] theorem entries_nil (s : σ) : entries step s [] = [] := rfl

@[simp] theorem entries_cons (s : σ) (i : ι) (is : List ι) :
    entries step s (i :: is) = entryAt step s i :: entries step (step s i).1 is := rfl

theorem finalState_append (s : σ) (is js : List ι) :
    finalState step s (is ++ js) = finalState step (finalState step s is) js := by
  simp [finalState, foldl_append]

/-- A run over `is ++ js` is the run over `is` followed by the run over `js` from where it ended. -/
theorem entries_append (s : σ) (is js : List ι) :
    entries step s (is ++ js) = entries step s is ++ entries step (finalState step s is) js := by
  induction is generalizing s with
  | nil => rfl
  | cons i is ih => simp [ih]

/-- The last input seen from the end of the run. -/
theorem finalState_concat (s : σ) (is : List ι) (i : ι) :
    finalState step s (is ++ [i]) = (step (finalState step s is) i).1 := by
  simp [finalState_append]

theorem entries_concat (s : σ) (is : List ι) (i : ι) :
    entries step s (is ++ [i]) = entries step s is ++ [entryAt step (finalState step s is) i] := by
  simp [entries_append]

/-- The inputs can be read back from the record. -/
@[simp] theorem entries_map_input (s : σ) (is : List ι) : (entries step s is).map Entry.input = is := by
  induction is generalizing s with
  | nil => rfl
  | cons i is ih => simp [ih]

variable {s : σ} {is : List ι}

theorem forall_entries_input {p : ι → Prop} : (∀ e ∈ entries step s is, p e.input) ↔ ∀ i ∈ is, p i := by
  conv_rhs => rw [← entries_map_input step s is]
  exact forall_mem_map.symm

/-- An entry of a run is an input together with the run that led up to it. -/
theorem mem_entries {e : Entry σ ι ο} : e ∈ entries step s is ↔
      ∃ pre i post, is = pre ++ i :: post ∧ e = entryAt step (finalState step s pre) i := by
  induction is generalizing s with
  | nil => simp
  | cons j is ih =>
    rw [entries_cons, mem_cons, ih]
    constructor
    · rintro (rfl | ⟨pre, i, post, rfl, rfl⟩)
      · exact ⟨[], j, is, rfl, rfl⟩
      · exact ⟨j :: pre, i, post, rfl, rfl⟩
    · rintro ⟨pre, i, post, his, rfl⟩
      cases pre with
      | nil =>
        obtain ⟨rfl, rfl⟩ := List.cons.inj his
        exact .inl rfl
      | cons k pre =>
        obtain ⟨rfl, rfl⟩ := List.cons.inj his
        exact .inr ⟨pre, i, post, rfl, rfl⟩

variable {P : σ → Prop}

/-- **Invariant rule**: what every step preserves holds wherever a run leads. -/
theorem finalState_invariant (hstep : ∀ s i, P s → P (step s i).1) (hs : P s)
    (is : List ι) : P (finalState step s is) := by
  induction is generalizing s with
  | nil => exact hs
  | cons i is ih => exact ih (hstep s i hs)

/-- **History rule**: a property of the record so far together with the present state, established at
the start and kept by every appended entry, holds after every run. -/
theorem entries_invariant {P : List (Entry σ ι ο) → σ → Prop} (hnil : P [] s)
    (hstep : ∀ es t i, P es t → P (es ++ [entryAt step t i]) (step t i).1) (is : List ι) :
    P (entries step s is) (finalState step s is) := by
  induction is using reverseRecOn with
  | nil => exact hnil
  | append_singleton is i ih =>
    rw [entries_concat, finalState_concat]
    exact hstep _ _ _ ih

/-- **Assumption rule**: when the entries of a run satisfy `Q`, what every such step preserves holds
wherever the run leads, and what it guarantees holds of every entry. -/
theorem entries_of_assumption {Q R : Entry σ ι ο → Prop}
    (hstep : ∀ s i, Q (entryAt step s i) → P s → P (step s i).1 ∧ R (entryAt step s i)) (hs : P s)
    (his : ∀ e ∈ entries step s is, Q e) : P (finalState step s is) ∧ ∀ e ∈ entries step s is, R e := by
  induction is generalizing s with
  | nil => simp [hs]
  | cons i is ih =>
    obtain ⟨hi, hrest⟩ := forall_mem_cons.mp his
    obtain ⟨hnext, hentry⟩ := hstep s i hi hs
    obtain ⟨hfinal, hentries⟩ := ih hnext hrest
    exact ⟨hfinal, forall_mem_cons.mpr ⟨hentry, hentries⟩⟩

/-- The same for an assumption about the inputs alone. -/
theorem entries_of_inputs {Q : ι → Prop} {R : Entry σ ι ο → Prop}
    (hstep : ∀ s i, Q i → P s → P (step s i).1 ∧ R (entryAt step s i)) (hs : P s)
    (his : ∀ i ∈ is, Q i) : P (finalState step s is) ∧ ∀ e ∈ entries step s is, R e :=
  entries_of_assumption step (Q := fun e => Q e.input) hstep hs ((forall_entries_input step).mpr his)

/-- **Exactness rule**: if a step keeps `P` exactly when its entry satisfies `Q`, then a run keeps `P` all
along exactly when all its entries satisfy `Q`. The steps may rely on an invariant. -/
theorem forall_entries_iff {I P : σ → Prop} {Q : Entry σ ι ο → Prop} (hinv : ∀ s i, I s → I (step s i).1)
    (hstep : ∀ s i, I s → P s → (P (step s i).1 ↔ Q (entryAt step s i))) (hI : I s) (hP : P s)
    (is : List ι) : (∀ e ∈ entries step s is, P e.after) ↔ ∀ e ∈ entries step s is, Q e := by
  induction is generalizing s with
  | nil => simp
  | cons i is ih =>
    rw [entries_cons, forall_mem_cons, forall_mem_cons, entryAt_after]
    -- the rest of the run is reached with `P` on both sides
    constructor
    · rintro ⟨hfirst, hrest⟩
      exact ⟨(hstep s i hI hP).mp hfirst, (ih (hinv s i hI) hfirst).mp hrest⟩
    · rintro ⟨hfirst, hrest⟩
      have hnext := (hstep s i hI hP).mpr hfirst
      exact ⟨hnext, (ih (hinv s i hI) hnext).mpr hrest⟩

/-! ## Deleting inputs that change nothing -/

section Stutter

variable {keep : Entry σ ι ο → Bool}
  (hstutter : ∀ s i, keep (entryAt step s i) = false → (step s i).1 = s)

include hstutter

/-- **Stutter rule**: when every entry that is not kept leaves the state as it was, the run over the
kept inputs alone consists of exactly the kept entries. -/
theorem entries_kept (s : σ) (is : List ι) :
    entries step s (((entries step s is).filter keep).map Entry.input) =
      (entries step s is).filter keep := by
  induction is generalizing s with
  | nil => rfl
  | cons i is ih =>
    rw [entries_cons, filter_cons]
    cases hkeep : keep (entryAt step s i) with
    | true => simp only [if_true, map_cons, entryAt_input, entries_cons, ih]
    | false =>
      have hsame : (step s i).1 = s := hstutter s i hkeep
      simp only [Bool.false_eq_true, if_false, hsame, ih]

/-- The kept inputs alone lead to the same state. -/
theorem finalState_kept (s : σ) (is : List ι) :
    finalState step s (((entries step s is).filter keep).map Entry.input) = finalState step s is := by
  induction is generalizing s with
  | nil => rfl
  | cons i is ih =>
    rw [entries_cons, filter_cons, finalState_cons]
    cases hkeep : keep (entryAt step s i) with
    | true => simp only [if_true, map_cons, entryAt_input, finalState_cons, ih]
    | false =>
      have hsame : (step s i).1 = s := hstutter s i hkeep
      simp only [Bool.false_eq_true, if_false, hsame, ih]

end Stutter

end Virtmcu
