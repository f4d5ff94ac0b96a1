import Mathlib.Data.Int.Notation
import Mathlib.Tactic.Common

/-! # `BqlGuarded`

A value that only the holder of the big lock accesses, with a count of the references to it that are
out: `-1` for a mutable one, otherwise the number of shared ones. `get` and `get_mut` assert that the new
reference is allowed; `none` is the failed assertion. -/

namespace Virtmcu.Qom

/-- `BqlGuarded`. -/
structure BqlGuarded (α : Type*) where
  inner : α
  borrowCount : ℤ
  deriving DecidableEq, Repr

namespace BqlGuarded

variable {α : Type*}

/-- `BqlGuarded::new`. -/
def new (value : α) : BqlGuarded α := ⟨value, 0⟩

/-- `BqlGuarded::get`. -/
def get (cell : BqlGuarded α) : Option (BqlGuarded α) :=
  if 0 ≤ cell.borrowCount then some { cell with borrowCount := cell.borrowCount + 1 } else none

/-- `BqlGuarded::get_mut`. -/
def getMut (cell : BqlGuarded α) : Option (BqlGuarded α) :=
  if cell.borrowCount = 0 then some { cell with borrowCount := -1 } else none

/-- A shared reference is dropped. -/
def dropRead (cell : BqlGuarded α) : BqlGuarded α := { cell with borrowCount := cell.borrowCount - 1 }

/-- A mutable reference is dropped. -/
def dropWrite (cell : BqlGuarded α) : BqlGuarded α := { cell with borrowCount := 0 }

/-- A write through the mutable reference. -/
def set (cell : BqlGuarded α) (value : α) : BqlGuarded α := { cell with inner := value }

theorem get_eq_some {cell : BqlGuarded α} (h : 0 ≤ cell.borrowCount) :
    cell.get = some ⟨cell.inner, cell.borrowCount + 1⟩ :=
  if_pos h

@[simp] theorem getMut_new (value : α) : (new value).getMut = some ⟨value, -1⟩ := if_pos rfl

/-- A reference that is taken and dropped leaves no trace. -/
@[simp] theorem dropRead_succ (value : α) (count : ℤ) : dropRead ⟨value, count + 1⟩ = ⟨value, count⟩ := by
  unfold dropRead
  rw [Int.add_sub_cancel]

end BqlGuarded

end Virtmcu.Qom
