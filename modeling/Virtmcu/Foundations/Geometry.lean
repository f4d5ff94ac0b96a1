import Mathlib.Algebra.Order.Floor.Ring
import Mathlib.Tactic.Ring

/-! # Slabs and cells

Two devices of geometric programs over a linearly ordered field. A **slab** is the space between two
parallel faces; the times at which a moving point is inside form an interval whose ends do not depend on
the direction of the motion once they are sorted. A **cell** is the floor of a coordinate in units of a
width; neighbouring cells stand for distances between one width and two. -/

namespace Virtmcu

variable {K : Type*} [Field K] [LinearOrder K] [IsStrictOrderedRing K]

/-! ## Slabs -/

/-- The point that starts at `o` with velocity `d` is between `lo` and `hi` at time `s`. -/
def InSlab (lo hi d o s : K) : Prop := lo ≤ o + s * d ∧ o + s * d ≤ hi

omit [IsStrictOrderedRing K] in
/-- A point that does not move stays where it starts. -/
theorem inSlab_zero {lo hi o s : K} : InSlab lo hi 0 o s ↔ lo ≤ o ∧ o ≤ hi := by
  rw [InSlab, mul_zero, add_zero]

variable {lo hi d o s : K}

/-- A rising point enters at the lower face and leaves at the upper one. -/
theorem inSlab_iff_of_pos (hd : 0 < d) : InSlab lo hi d o s ↔ (lo - o) / d ≤ s ∧ s ≤ (hi - o) / d := by
  rw [InSlab, div_le_iff₀ hd, le_div_iff₀ hd, sub_le_iff_le_add', le_sub_iff_add_le']

/-- A falling point enters at the upper face and leaves at the lower one. -/
theorem inSlab_iff_of_neg (hd : d < 0) : InSlab lo hi d o s ↔ (hi - o) / d ≤ s ∧ s ≤ (lo - o) / d := by
  rw [InSlab, div_le_iff_of_neg hd, le_div_iff_of_neg hd, sub_le_iff_le_add', le_sub_iff_add_le', and_comm]

/-- **The times inside a slab** are those between the two crossings, whichever comes first. -/
theorem inSlab_iff_mem_Icc (hd : d ≠ 0) (hle : lo ≤ hi) : InSlab lo hi d o s ↔
      s ∈ Set.Icc (min ((lo - o) / d) ((hi - o) / d)) (max ((lo - o) / d) ((hi - o) / d)) := by
  have hsub : lo - o ≤ hi - o := sub_le_sub_right hle o
  rcases lt_or_gt_of_ne hd with hneg | hpos
  · have hcross : (hi - o) / d ≤ (lo - o) / d := div_le_div_of_nonpos_of_le hneg.le hsub
    rw [inSlab_iff_of_neg hneg, min_eq_right hcross, max_eq_left hcross, Set.mem_Icc]
  · have hcross : (lo - o) / d ≤ (hi - o) / d := div_le_div_of_nonneg_right hsub hpos.le
    rw [inSlab_iff_of_pos hpos, min_eq_left hcross, max_eq_right hcross, Set.mem_Icc]

/-! ## Cells -/

variable [FloorRing K] {w x y : K}

/-- Points at most a width apart are in the same cell or in neighbouring ones. -/
theorem abs_floor_sub_floor_le_one (hw : 0 < w) (h : |x - y| ≤ w) : |⌊x / w⌋ - ⌊y / w⌋| ≤ 1 := by
  obtain ⟨hlo, hhi⟩ := abs_le.mp h
  have hxy : x / w ≤ y / w + 1 := by
    rw [div_add_one hw.ne']
    exact div_le_div_of_nonneg_right (by linarith) hw.le
  have hyx : y / w ≤ x / w + 1 := by
    rw [div_add_one hw.ne']
    exact div_le_div_of_nonneg_right (by linarith) hw.le
  have hx := Int.floor_mono hxy
  have hy := Int.floor_mono hyx
  rw [Int.floor_add_one] at hx hy
  rw [abs_le]
  omega

/-- Points in the same cell or in neighbouring ones are less than two widths apart. -/
theorem abs_sub_lt_of_floor (hw : 0 < w) (h : |⌊x / w⌋ - ⌊y / w⌋| ≤ 1) : |x - y| < 2 * w := by
  obtain ⟨hlo, hhi⟩ := abs_le.mp h
  have hlo' : (⌊y / w⌋ : K) - 1 ≤ ⌊x / w⌋ := by exact_mod_cast (by omega : ⌊y / w⌋ - 1 ≤ ⌊x / w⌋)
  have hhi' : (⌊x / w⌋ : K) ≤ ⌊y / w⌋ + 1 := by exact_mod_cast (by omega : ⌊x / w⌋ ≤ ⌊y / w⌋ + 1)
  have hx := Int.floor_le (x / w)
  have hx' := Int.lt_floor_add_one (x / w)
  have hy := Int.floor_le (y / w)
  have hy' := Int.lt_floor_add_one (y / w)
  have hquot : |x / w - y / w| < 2 := by
    rw [abs_lt]
    constructor <;> linarith
  rwa [← sub_div, abs_div, abs_of_pos hw, div_lt_iff₀ hw] at hquot

end Virtmcu
