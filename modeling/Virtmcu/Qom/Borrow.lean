import Mathlib.Algebra.Group.Int.Defs
import Mathlib.Data.Fintype.Card
import Virtmcu.Foundations.Transition

/-! # The borrows of a `BqlGuarded`

`Qom.BqlGuarded` takes `get` and `get_mut` as single steps. Here they are what they are: atomic operations
on `borrow_count`, of any number of threads. `get` loads the count, asserts that it is not negative, and
raises it by a weak compare-exchange, or starts again; `get_mut` is one compare-exchange from 0 to -1. A
read guard is dropped by `fetch_sub`, a write guard by storing 0.

The count is an `isize`. It does not overflow, whether the build checks for that or not: a live guard is a
reference, with eight bytes of the address space to itself. -/

namespace Virtmcu.Qom.Borrow

variable {Thread : Type*}

/-- Where a guard lives: an address that is divisible by eight. -/
abbrev Place := Fin 2305843009213693952

/-- Where a thread is in `get`. -/
inductive Pc
  | idle
  /-- At the load. -/
  | loading
  /-- At the compare-exchange. -/
  | loaded (b : Int64)
  deriving DecidableEq

/-- The cell and its threads. -/
structure State (Thread : Type*) where
  borrowCount : Int64
  pc : Thread → Pc
  /-- The live read guards. -/
  readers : Finset Place
  /-- The live write guards. -/
  writers : Finset Place

/-- `BqlGuarded::new`. -/
def initial : State Thread := ⟨0, fun _ => .idle, ∅, ∅⟩

/-- The atomic steps. -/
inductive Move (Thread : Type*)
  /-- A thread calls `get`. -/
  | get (t : Thread)
  | load (t : Thread)
  /-- `compare_exchange_weak`, which may fail for no reason. The guard gets a place. -/
  | exchange (t : Thread) (place : Place) (spurious : Bool)
  | getMut (t : Thread) (place : Place)
  | dropRead (place : Place)
  | dropWrite (place : Place)

section

variable [DecidableEq Thread]

/-- A thread goes on. -/
def State.setPc (s : State Thread) (t : Thread) (pc : Pc) : State Thread :=
  { s with pc := Function.update s.pc t pc }

/-- A failed assertion ends the call, and nothing else. -/
def step (overflowChecks : Bool) (s : State Thread) : Move Thread → State Thread
  | .get t => s.setPc t .loading
  | .load t => s.setPc t (if 0 ≤ s.borrowCount then .loaded s.borrowCount else .idle)
  | .exchange t place spurious =>
      match s.pc t with
      | .loaded b =>
          -- `b + 1` is computed before the exchange
          if overflowChecks ∧ b = Int64.maxValue then s.setPc t .idle
          else if s.borrowCount = b ∧ spurious = false then
            { s.setPc t .idle with borrowCount := b + 1, readers := insert place s.readers }
          else s.setPc t .loading
      | _ => s
  | .getMut _ place =>
      if s.borrowCount = 0 then { s with borrowCount := -1, writers := insert place s.writers } else s
  | .dropRead place => { s with borrowCount := s.borrowCount - 1, readers := s.readers.erase place }
  | .dropWrite place => { s with borrowCount := 0, writers := s.writers.erase place }

end

/-- A place that no live guard has. -/
def State.IsFree (s : State Thread) (place : Place) : Prop := place ∉ s.readers ∧ place ∉ s.writers

instance (s : State Thread) (place : Place) : Decidable (s.IsFree place) :=
  inferInstanceAs (Decidable (_ ∧ _))

/-- A step of a thread that is there, or a drop of a live guard. -/
def enabled (s : State Thread) : Move Thread → Bool
  | .get t => s.pc t = .idle
  | .load t => s.pc t = .loading
  | .exchange t place _ => (s.pc t matches .loaded _) && decide (s.IsFree place)
  | .getMut t place => s.pc t = .idle ∧ s.IsFree place
  | .dropRead place => place ∈ s.readers
  | .dropWrite place => place ∈ s.writers

/-! ## The count -/

/-- There are not so many places that the count overflows. -/
theorem card_lt (places : Finset Place) : (places.card : ℤ) < 2 ^ 63 - 1 := by
  have hle := places.card_le_univ
  rw [Fintype.card_fin] at hle
  omega

/-- The count goes up, -/
theorem toInt_succ {b : Int64} (h : b.toInt < 2 ^ 63 - 1) : (b + 1).toInt = b.toInt + 1 := by
  have hone : (1 : Int64).toInt = 1 := rfl
  have hge := b.le_toInt
  rw [Int64.toInt_add, hone, Int.bmod_eq_of_le (by omega) (by omega)]

/-- and down. -/
theorem toInt_pred {b : Int64} (h : 0 ≤ b.toInt) : (b - 1).toInt = b.toInt - 1 := by
  have hone : (1 : Int64).toInt = 1 := rfl
  have hlt := b.toInt_lt
  rw [Int64.toInt_sub, hone, Int.bmod_eq_of_le (by omega) (by omega)]

/-- **What the count says**: `-1` for one write guard that is alone, otherwise how many read guards there
are. -/
inductive Tracked (s : State Thread) : Prop
  | shared (hwriters : s.writers = ∅) (hcount : s.borrowCount.toInt = s.readers.card)
  | exclusive (place : Place) (hwriters : s.writers = {place}) (hreaders : s.readers = ∅)
      (hcount : s.borrowCount = -1)

/-- What every step keeps. -/
structure Inv (s : State Thread) : Prop where
  tracked : Tracked s
  /-- The assertion of `get` has been passed. -/
  loaded : ∀ t b, s.pc t = .loaded b → 0 ≤ b

/-- It holds of a new cell. -/
theorem inv_initial : Inv (initial : State Thread) := ⟨.shared rfl rfl, nofun⟩

section

variable {s : State Thread}

/-- The count is not negative where there is no write guard. -/
theorem Tracked.shared_of_nonneg (h : Tracked s) (hcount : 0 ≤ s.borrowCount) :
    s.writers = ∅ ∧ s.borrowCount.toInt = s.readers.card := by
  cases h with
  | shared hwriters hcount => exact ⟨hwriters, hcount⟩
  | exclusive place hwriters hreaders hneg =>
    rw [hneg] at hcount
    exact absurd hcount (by decide)

/-- A write guard is given out; there was no other guard. -/
theorem inv_getMut (hs : Inv s) (hcount : s.borrowCount = 0) (place : Place) :
    Inv { s with borrowCount := -1, writers := insert place s.writers } := by
  obtain ⟨hwriters, hcard⟩ := hs.tracked.shared_of_nonneg (by rw [hcount]; decide)
  rw [hcount] at hcard
  have hreaders : s.readers = ∅ := Finset.card_eq_zero.mp (Int.ofNat_eq_zero.mp hcard.symm)
  refine ⟨.exclusive place ?_ hreaders rfl, hs.loaded⟩
  rw [hwriters]
  rfl

/-- A read guard is dropped; while there is one, there is no write guard. -/
theorem inv_dropRead (hs : Inv s) {place : Place} (hplace : place ∈ s.readers) :
    Inv { s with borrowCount := s.borrowCount - 1, readers := s.readers.erase place } := by
  refine ⟨?_, hs.loaded⟩
  cases hs.tracked with
  | shared hwriters hcount =>
    refine .shared hwriters ?_
    have hcard := Finset.card_erase_add_one hplace
    dsimp only
    rw [toInt_pred (by omega), hcount]
    omega
  | exclusive other hwriters hreaders hcount =>
    rw [hreaders] at hplace
    exact absurd hplace (Finset.notMem_empty place)

/-- The write guard is dropped; it was the only one. -/
theorem inv_dropWrite (hs : Inv s) {place : Place} (hplace : place ∈ s.writers) :
    Inv { s with borrowCount := 0, writers := s.writers.erase place } := by
  refine ⟨?_, hs.loaded⟩
  cases hs.tracked with
  | shared hwriters hcount =>
    rw [hwriters] at hplace
    exact absurd hplace (Finset.notMem_empty place)
  | exclusive other hwriters hreaders hcount =>
    rw [hwriters] at hplace
    obtain rfl := Finset.mem_singleton.mp hplace
    refine .shared ?_ ?_
    · dsimp only
      rw [hwriters, Finset.erase_singleton]
    · dsimp only
      rw [hreaders]
      rfl

variable [DecidableEq Thread]

/-- A thread goes on to a place where the assertion is not needed. -/
theorem Inv.setPc (hs : Inv s) (t : Thread) {pc : Pc} (hpc : ∀ b, pc = .loaded b → 0 ≤ b) :
    Inv (s.setPc t pc) where
  tracked := by
    cases hs.tracked with
    | shared hwriters hcount => exact .shared hwriters hcount
    | exclusive place hwriters hreaders hcount => exact .exclusive place hwriters hreaders hcount
  loaded t' b h := by
    have h : Function.update s.pc t pc t' = .loaded b := h
    by_cases ht : t' = t
    · subst ht
      rw [Function.update_self] at h
      exact hpc b h
    · rw [Function.update_of_ne ht] at h
      exact hs.loaded t' b h

/-- A read guard is given out; there is no write guard. -/
theorem inv_exchange (hs : Inv s) {t : Thread} {place : Place} {b : Int64} (hpc : s.pc t = .loaded b)
    (hb : s.borrowCount = b) (hfree : s.IsFree place) :
    Inv { s.setPc t .idle with borrowCount := b + 1, readers := insert place s.readers } := by
  obtain ⟨hwriters, hcount⟩ := hs.tracked.shared_of_nonneg (hb ▸ hs.loaded t b hpc)
  have hidle : Inv (s.setPc t .idle) := hs.setPc t nofun
  refine ⟨.shared hwriters ?_, hidle.loaded⟩
  have hlt := card_lt s.readers
  rw [hb] at hcount
  dsimp only
  rw [toInt_succ (by omega), hcount, Finset.card_insert_of_notMem hfree.1, Int.natCast_add]
  rfl

/-- **Every atomic step keeps the count right.** -/
theorem Inv.step (overflowChecks : Bool) (hs : Inv s) {move : Move Thread} (h : enabled s move = true) :
    Inv (step overflowChecks s move) := by
  cases move with
  | get t => exact hs.setPc t nofun
  | load t =>
    refine hs.setPc t fun b hb => ?_
    split at hb
    · rename_i hcount
      obtain rfl := Pc.loaded.inj hb
      exact hcount
    · cases hb
  | exchange t place spurious =>
    have hfree : s.IsFree place := of_decide_eq_true (Bool.and_eq_true_iff.mp h).2
    cases hpc : s.pc t with
    | loaded b =>
      simp only [Borrow.step, hpc]
      split
      · exact hs.setPc t nofun
      · split
        · rename_i hexchange
          exact inv_exchange hs hpc hexchange.1 hfree
        · exact hs.setPc t nofun
    | idle | loading =>
      simp only [Borrow.step, hpc]
      exact hs
  | getMut t place =>
    simp only [Borrow.step]
    split
    · rename_i hcount
      exact inv_getMut hs hcount place
    · exact hs
  | dropRead place => exact inv_dropRead hs (of_decide_eq_true h)
  | dropWrite place => exact inv_dropWrite hs (of_decide_eq_true h)

end

/-! ## The result -/

variable [DecidableEq Thread]

/-- What the borrows promise. -/
structure Sound (overflowChecks : Bool) (s : State Thread) : Prop where
  /-- A write guard is the only guard. -/
  exclusive : ∀ place ∈ s.writers, s.writers = {place} ∧ s.readers = ∅
  readCount : s.writers = ∅ → s.borrowCount.toInt = s.readers.card
  writeCount : s.writers ≠ ∅ → s.borrowCount.toInt = -1
  /-- When all guards are dropped, `get_mut` gives a guard to whoever calls it. -/
  again : s.readers = ∅ → s.writers = ∅ → ∀ t place,
    (step overflowChecks s (.getMut t place)).writers = {place}

/-- The invariant is all that is needed. -/
theorem Inv.sound {s : State Thread} (hs : Inv s) (overflowChecks : Bool) : Sound overflowChecks s := by
  cases hs.tracked with
  | shared hwriters hcount =>
    refine ⟨fun place hplace => ?_, fun _ => hcount, fun h => absurd hwriters h,
      fun hreaders _ t place => ?_⟩
    · rw [hwriters] at hplace
      exact absurd hplace (Finset.notMem_empty place)
    · have hzero : s.borrowCount = 0 := by
        rw [hreaders] at hcount
        exact Int64.toInt_inj.mp hcount
      simp only [Borrow.step, if_pos hzero, hwriters]
      rfl
  | exclusive other hwriters hreaders hcount =>
    refine ⟨fun place hplace => ⟨?_, hreaders⟩, fun h => ?_, fun _ => by rw [hcount]; rfl, fun _ h => ?_⟩
    · rw [hwriters] at hplace ⊢
      rw [Finset.mem_singleton.mp hplace]
    · exact absurd (hwriters.symm.trans h) (Finset.singleton_ne_empty other)
    · exact absurd (hwriters.symm.trans h) (Finset.singleton_ne_empty other)

/-- **The borrows are tracked soundly** in every interleaving of the atomic steps of any number of threads:
a write guard is alone, the count is the number of read guards or -1, and the cell can be borrowed mutably
again when all guards are gone. -/
theorem borrows_sound (overflowChecks : Bool) {s : State Thread}
    (h : Relation.ReflTransGen (GuardedStep (step overflowChecks) enabled) initial s) :
    Sound overflowChecks s := by
  refine Inv.sound (steps_invariant (P := Inv) ?_ h inv_initial) overflowChecks
  rintro s s' ⟨move, henabled, rfl⟩ hs
  exact hs.step overflowChecks henabled

/-- Two readers, of which one has to start again; a writer that is turned down, and one that is not. -/
def twoReaders : List (Move Bool) :=
  [.get true, .get false, .load true, .load false, .exchange true 0 false, .exchange false 1 false,
    .load false, .exchange false 1 false, .getMut true 2, .dropRead 0, .dropRead 1, .getMut true 2]

/-- They keep it. -/
theorem borrows_sound_twoReaders : passes (step false) enabled initial twoReaders = true ∧
    Sound false (twoReaders.foldl (step false) initial) := by
  have hpasses : passes (step false) enabled initial twoReaders = true := by decide +kernel
  exact ⟨hpasses, borrows_sound false (steps_of_passes _ _ hpasses)⟩

end Virtmcu.Qom.Borrow
