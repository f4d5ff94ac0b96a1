import Mathlib.Tactic.Common

/-! # Flags in a register

A flag is asked for with a mask. Setting flags and clearing flags are seen through `hasBit`, so that a
proof about a register with several flags never looks at the number in it. -/

namespace Virtmcu

/-- `register & mask != 0`. -/
def hasBit (register mask : UInt32) : Bool := register &&& mask != 0

theorem hasBit_eq_false_iff {register mask : UInt32} :
    hasBit register mask = false ↔ register &&& mask = 0 := by
  rw [hasBit, bne_eq_false_iff_eq]

theorem or_and_distrib (a b mask : UInt32) : (a ||| b) &&& mask = (a &&& mask) ||| (b &&& mask) := by
  apply UInt32.toBitVec_inj.mp
  exact BitVec.and_or_distrib_right

/-- Flags that are set, and those that were. -/
@[simp] theorem hasBit_or (a b mask : UInt32) :
    hasBit (a ||| b) mask = (hasBit a mask || hasBit b mask) := by
  rw [Bool.eq_iff_iff, ← not_iff_not, Bool.not_eq_true, Bool.not_eq_true, Bool.or_eq_false_iff,
    hasBit_eq_false_iff, hasBit_eq_false_iff, hasBit_eq_false_iff, or_and_distrib, UInt32.or_eq_zero_iff]

/-- Clearing flags sets none. -/
theorem hasBit_of_hasBit_clear {register cleared mask : UInt32}
    (h : hasBit (register &&& ~~~cleared) mask = true) : hasBit register mask = true := by
  by_contra hnot
  rw [Bool.not_eq_true, hasBit_eq_false_iff] at hnot
  rw [← Bool.not_eq_false, hasBit_eq_false_iff] at h
  apply h
  rw [UInt32.and_assoc, UInt32.and_comm (~~~cleared), ← UInt32.and_assoc, hnot, UInt32.zero_and]

/-- Clearing flags leaves the other flags alone. -/
theorem hasBit_clear_of_disjoint {cleared mask : UInt32} (register : UInt32) (h : cleared &&& mask = 0) :
    hasBit (register &&& ~~~cleared) mask = hasBit register mask := by
  have hmask : ~~~cleared &&& mask = mask := by
    calc ~~~cleared &&& mask = (cleared &&& mask) ||| (~~~cleared &&& mask) := by rw [h, UInt32.zero_or]
      _ = (cleared ||| ~~~cleared) &&& mask := (or_and_distrib _ _ _).symm
      _ = mask := by simp
  rw [hasBit, hasBit, UInt32.and_assoc, hmask]

/-- A flag that is cleared is not there any more. -/
theorem hasBit_clear_of_covers {cleared mask : UInt32} (register : UInt32) (h : cleared &&& mask = mask) :
    hasBit (register &&& ~~~cleared) mask = false := by
  rw [hasBit_eq_false_iff, UInt32.and_assoc, ← h, ← UInt32.and_assoc (~~~cleared)]
  simp

/-- A mask of one bit is in a register as a whole, or not at all. -/
theorem and_eq_of_hasBit {register mask : UInt32} {i : ℕ} (hmask : mask.toBitVec = BitVec.twoPow 32 i)
    (h : hasBit register mask = true) : register &&& mask = mask := by
  have hne : register &&& mask ≠ 0 := bne_iff_ne.mp h
  apply UInt32.toBitVec_inj.mp
  rw [UInt32.toBitVec_and, hmask, BitVec.and_twoPow]
  split
  · rfl
  · rename_i hbit
    refine absurd (UInt32.toBitVec_inj.mp ?_) hne
    rw [UInt32.toBitVec_and, hmask, BitVec.and_twoPow, if_neg hbit]
    rfl

/-- A flag that is cleared by writing a one to it. -/
theorem hasBit_clear_written {w1c mask : UInt32} {i : ℕ} (hmask : mask.toBitVec = BitVec.twoPow 32 i)
    (hw1c : w1c &&& mask = mask) (register value : UInt32) :
    hasBit (register &&& ~~~(value &&& w1c)) mask = (hasBit register mask && !hasBit value mask) := by
  have hand : (value &&& w1c) &&& mask = value &&& mask := by rw [UInt32.and_assoc, hw1c]
  cases hvalue : hasBit value mask with
  | false =>
    rw [hasBit_clear_of_disjoint register (hand.trans (hasBit_eq_false_iff.mp hvalue))]
    exact (Bool.and_true _).symm
  | true =>
    rw [hasBit_clear_of_covers register (hand.trans (and_eq_of_hasBit hmask hvalue))]
    exact (Bool.and_false _).symm

end Virtmcu
