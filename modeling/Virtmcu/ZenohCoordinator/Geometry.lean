import Virtmcu.Foundations.Geometry
import Virtmcu.ZenohCoordinator.Survival
import Mathlib.Analysis.Convex.Segment
import Mathlib.Data.Rat.Floor

/-! # Sight lines and the spatial grid

The two geometric computations of the Zenoh coordinator, over exact rational numbers: the test whether an
obstacle stands between two nodes (`ray_intersects_aabb`) and the grid that finds the nodes around a
sender (`SpatialGrid`).

The loops are stated over any number system and any cell function. At IEEE numbers they are the functions
of `Ingest` (`clipRay_eq`, `gridCandidates_eq_candidates`); at rational numbers they are proved to say
what they are for: the sight line test is exact (`rayIntersectsAabb_rat_iff`), and the grid finds every
node within 500 on each axis once and no other node at a distance of 1000, as long as the cells do not
saturate (`candidates_rat_spec`). -/

namespace Virtmcu.ZenohCoordinator

open List

/-! ## The sight line over a number system -/

section Clip

variable {K : Type*} [Sub K] [Div K] [LT K] [LE K] [DecidableLT K] [DecidableLE K]

/-- The loop of `ray_intersects_aabb` in a number system with its absolute value, its minimum and
maximum and its machine epsilon. -/
def clipRayOver (abs : K → K) (min max : K → K → K) (epsilon : K) :
    List (K × K × K × K) → K → K → Bool
  | [], tMin, tMax => decide (tMin ≤ tMax)
  | (bMin, bMax, d, o) :: axes, tMin, tMax =>
      if abs d < epsilon then
        if o < bMin ∨ o > bMax then false else clipRayOver abs min max epsilon axes tMin tMax
      else
        let t1 := (bMin - o) / d
        let t2 := (bMax - o) / d
        let tMin := max tMin (min t1 t2)
        let tMax := min tMax (max t1 t2)
        if tMin > tMax then false else clipRayOver abs min max epsilon axes tMin tMax

end Clip

/-- At IEEE numbers this is the loop of the coordinator. -/
theorem clipRay_eq (axes : List (Float × Float × Float × Float)) (tMin tMax : Float) :
    clipRay axes tMin tMax = clipRayOver Float.abs f64Min f64Max 2.220446049250313e-16 axes tMin tMax := by
  induction axes generalizing tMin tMax with
  | nil => rfl
  | cons axis axes ih =>
    obtain ⟨bMin, bMax, d, o⟩ := axis
    simp only [clipRay, clipRayOver, ih]

/-! ## The sight line over the rationals -/

/-- A point, or a corner of a box. -/
abbrev RatPoint := ℚ × ℚ × ℚ

/-- `f64::EPSILON`. -/
def ratEpsilon : ℚ := 1 / 2 ^ 52

/-- `ray_intersects_aabb` over the rationals, with the box given by its two corners. -/
def rayIntersectsAabbRat (o t bMin bMax : RatPoint) : Bool :=
  clipRayOver abs min max ratEpsilon
    [(bMin.1, bMax.1, t.1 - o.1, o.1), (bMin.2.1, bMax.2.1, t.2.1 - o.2.1, o.2.1),
      (bMin.2.2, bMax.2.2, t.2.2 - o.2.2, o.2.2)] 0 1

/-- A coordinate difference the loop does not mistake for zero. -/
def IsResolved (d : ℚ) : Prop := d = 0 ∨ ratEpsilon ≤ |d|

/-- An axis of a proper box, along which the ray is resolved. -/
def IsProperAxis (axis : ℚ × ℚ × ℚ × ℚ) : Prop :=
  axis.1 ≤ axis.2.1 ∧ IsResolved axis.2.2.1

/-- A resolved difference passes the test for parallel rays only if it is zero. -/
theorem IsResolved.abs_lt_iff {d : ℚ} (h : IsResolved d) : |d| < ratEpsilon ↔ d = 0 := by
  constructor
  · intro hlt
    rcases h with h | h
    · exact h
    · exact absurd hlt (not_lt.mpr h)
  · rintro rfl
    rw [abs_zero, ratEpsilon]
    norm_num

/-- **The loop keeps the times at which the ray is inside all slabs.** -/
theorem clipRayOver_iff {axes : List (ℚ × ℚ × ℚ × ℚ)} (h : ∀ axis ∈ axes, IsProperAxis axis)
    (tMin tMax : ℚ) : clipRayOver abs min max ratEpsilon axes tMin tMax = true ↔
      ∃ s, s ∈ Set.Icc tMin tMax ∧ ∀ axis ∈ axes, InSlab axis.1 axis.2.1 axis.2.2.1 axis.2.2.2 s := by
  induction axes generalizing tMin tMax with
  | nil =>
    simp only [clipRayOver, decide_eq_true_eq, not_mem_nil, false_implies, implies_true, and_true]
    exact Set.nonempty_Icc.symm
  | cons axis axes ih =>
    obtain ⟨bMin, bMax, d, o⟩ := axis
    obtain ⟨⟨hle, hres⟩, hrest⟩ := forall_mem_cons.mp h
    simp only [forall_mem_cons]
    rw [clipRayOver]
    by_cases hd : d = 0
    · -- the ray is parallel to the faces: it stays inside, or outside
      subst hd
      rw [if_pos (hres.abs_lt_iff.mpr rfl)]
      simp only [inSlab_zero]
      by_cases ho : o < bMin ∨ o > bMax
      · have hout : ¬ (bMin ≤ o ∧ o ≤ bMax) := by
          rintro ⟨hlo, hhi⟩
          exact ho.elim (not_lt.mpr hlo) (not_lt.mpr hhi)
        rw [if_pos ho]
        simp [hout]
      · obtain ⟨hlo, hhi⟩ := not_or.mp ho
        rw [if_neg ho, ih hrest]
        simp [not_lt.mp hlo, not_lt.mp hhi]
    · -- the ray is inside between its two crossings
      rw [if_neg (fun hlt => hd (hres.abs_lt_iff.mp hlt))]
      simp only [inSlab_iff_mem_Icc hd hle]
      have hIcc : ∀ s lo hi : ℚ, s ∈ Set.Icc tMin tMax ∧ s ∈ Set.Icc lo hi ↔
          s ∈ Set.Icc (max tMin lo) (min tMax hi) := by
        intro s lo hi
        simp only [Set.mem_Icc, max_le_iff, le_min_iff]
        tauto
      simp only [← and_assoc, hIcc]
      split
      · next hempty => simp [Set.Icc_eq_empty (not_le.mpr hempty)]
      · exact ih hrest _ _

/-- The axes of a segment and a box. -/
theorem inSlab_iff_mem_box {o t bMin bMax : RatPoint} {s : ℚ} :
    (InSlab bMin.1 bMax.1 (t.1 - o.1) o.1 s ∧ InSlab bMin.2.1 bMax.2.1 (t.2.1 - o.2.1) o.2.1 s ∧
      InSlab bMin.2.2 bMax.2.2 (t.2.2 - o.2.2) o.2.2 s) ↔ o + s • (t - o) ∈ Set.Icc bMin bMax := by
  simp only [InSlab, Set.mem_Icc, Prod.le_def, Prod.fst_add, Prod.snd_add, Prod.smul_fst,
    Prod.smul_snd, Prod.fst_sub, Prod.snd_sub, smul_eq_mul]
  tauto

/-- **The sight line test is exact.** For a segment whose coordinate differences are resolved and a
proper box, it answers whether the closed segment meets the closed box. -/
theorem rayIntersectsAabb_rat_iff (o t bMin bMax : RatPoint) (hx : IsResolved (t.1 - o.1))
    (hy : IsResolved (t.2.1 - o.2.1)) (hz : IsResolved (t.2.2 - o.2.2)) (hbox : bMin ≤ bMax) :
    rayIntersectsAabbRat o t bMin bMax = true ↔ ∃ p ∈ segment ℚ o t, p ∈ Set.Icc bMin bMax := by
  have haxes : ∀ axis ∈ [(bMin.1, bMax.1, t.1 - o.1, o.1), (bMin.2.1, bMax.2.1, t.2.1 - o.2.1, o.2.1),
      (bMin.2.2, bMax.2.2, t.2.2 - o.2.2, o.2.2)], IsProperAxis axis := by
    simp only [List.forall_mem_cons]
    exact ⟨⟨hbox.1, hx⟩, ⟨hbox.2.1, hy⟩, ⟨hbox.2.2, hz⟩, nofun⟩
  rw [rayIntersectsAabbRat, clipRayOver_iff haxes]
  simp only [List.forall_mem_cons, List.not_mem_nil, false_implies, implies_true, and_true,
    inSlab_iff_mem_box]
  rw [segment_eq_image']
  simp only [Set.exists_mem_image]

/-- The segment from the origin to `(2, 0, 4)` goes through the unit box around `(1, 0, 2)`. -/
theorem rayIntersectsAabb_rat_through :
    rayIntersectsAabbRat (0, 0, 0) (2, 0, 4) (1 / 2, -1, 3 / 2) (3 / 2, 1, 5 / 2) = true ∧
    ∃ p ∈ segment ℚ ((0, 0, 0) : RatPoint) (2, 0, 4),
      p ∈ Set.Icc ((1 / 2, -1, 3 / 2) : RatPoint) (3 / 2, 1, 5 / 2) := by
  have htrue : rayIntersectsAabbRat (0, 0, 0) (2, 0, 4) (1 / 2, -1, 3 / 2) (3 / 2, 1, 5 / 2) = true := by
    decide +kernel
  refine ⟨htrue, (rayIntersectsAabb_rat_iff _ _ _ _ ?_ ?_ ?_ ?_).mp htrue⟩
  · exact Or.inr (by decide +kernel)
  · exact Or.inl (by decide +kernel)
  · exact Or.inr (by decide +kernel)
  · decide +kernel

/-! ## The grid over a cell function -/

/-- The key of a grid cell. -/
abbrev Cell := Int64 × Int64 × Int64

/-- `SpatialGrid`: the nodes in each cell. -/
structure SpatialGrid where
  cells : HashMap Cell (List String)

namespace SpatialGrid

/-- `cells.entry(c).or_insert_with(Vec::new).push(id)`. -/
def push (cells : HashMap Cell (List String)) (c : Cell) (id : String) : HashMap Cell (List String) :=
  cells.insert c ((cells.get c).getD [] ++ [id])

section

variable {P : Type} (cell : P → Cell)

/-- `SpatialGrid::build`: a loop over the positions, in the order of the table. -/
def build (positions : HashMap (String × String) P) (px : String) : SpatialGrid :=
  ⟨positions.toList.foldl (fun cells e => if e.1.1 = px then push cells (cell e.2) e.1.2 else cells)
    HashMap.empty⟩

/-- The offsets of the three nested loops. -/
def offsets : List Cell :=
  ([-1, 0, 1] : List Int64).flatMap fun dx => ([-1, 0, 1] : List Int64).flatMap fun dy =>
    ([-1, 0, 1] : List Int64).map fun dz => (dx, dy, dz)

/-- `SpatialGrid::candidates` for a position in the cell `c`. Sums wrap around; a build with overflow
checks panics instead (`Checked.gridCandidates`). -/
def candidates (grid : SpatialGrid) (c : Cell) (sid : String) : List String :=
  offsets.flatMap fun d =>
    match grid.cells.get (c.1 + d.1, c.2.1 + d.2.1, c.2.2 + d.2.2) with
    | some ids => ids.filter fun id => id ≠ sid
    | none => []

/-- The nodes of a topic part that are in a cell, in the order of the table. -/
def nodesIn (positions : HashMap (String × String) P) (px : String) (c : Cell) : List String :=
  (positions.toList.filter fun e => e.1.1 = px ∧ cell e.2 = c).map fun e => e.1.2

/-- What a cell holds after a push. -/
theorem getD_get_push (cells : HashMap Cell (List String)) (c c' : Cell) (id : String) :
    ((push cells c id).get c').getD [] = (cells.get c').getD [] ++ if c = c' then [id] else [] := by
  rw [push, HashMap.get_insert]
  by_cases h : c = c'
  · subst h
    rw [if_pos rfl, if_pos rfl, Option.getD_some]
  · rw [if_neg (Ne.symm h), if_neg h, append_nil]

/-- **The built grid holds in each cell the nodes that are in it.** -/
theorem getD_get_build (positions : HashMap (String × String) P) (px : String) (c : Cell) :
    ((build cell positions px).cells.get c).getD [] = nodesIn cell positions px c := by
  -- the loop appends to what it starts from
  have hloop : ∀ (es : List ((String × String) × P)) (cells : HashMap Cell (List String)),
      ((es.foldl (fun cells e => if e.1.1 = px then push cells (cell e.2) e.1.2 else cells)
        cells).get c).getD [] = (cells.get c).getD [] ++
        (es.filter fun e => e.1.1 = px ∧ cell e.2 = c).map fun e => e.1.2 := by
    intro es
    induction es with
    | nil =>
      intro cells
      exact (append_nil _).symm
    | cons e es ih =>
      intro cells
      rw [foldl_cons, ih]
      by_cases hpx : e.1.1 = px
      · rw [if_pos hpx, getD_get_push, append_assoc]
        by_cases hc : cell e.2 = c
        · simp [hpx, hc]
        · simp [hpx, hc]
      · simp [hpx]
  exact hloop positions.toList HashMap.empty

/-- The candidates in a built grid, cell by cell. -/
theorem candidates_build (positions : HashMap (String × String) P) (px : String) (c : Cell)
    (sid : String) : (build cell positions px).candidates c sid =
      offsets.flatMap fun d => (nodesIn cell positions px (c.1 + d.1, c.2.1 + d.2.1, c.2.2 + d.2.2)).filter
          fun id => id ≠ sid := by
  unfold candidates
  congr 1
  funext d
  rw [← getD_get_build]
  cases (build cell positions px).cells.get (c.1 + d.1, c.2.1 + d.2.1, c.2.2 + d.2.2) <;> rfl

end

end SpatialGrid

open SpatialGrid in
/-- At IEEE numbers the grid yields the candidates of `Ingest`. -/
theorem gridCandidates_eq_candidates (positions : NodePositions) (px : String) (at_ : Position)
    (sid : String) : gridCandidates positions px at_ sid =
      (build gridCell positions px).candidates (gridCell at_) sid := by
  rw [candidates_build]
  simp only [gridCandidates, offsets, flatMap_assoc, flatMap_map, nodesIn, filter_map, filter_filter]
  congr! 9 with dx dy dz e
  rw [Bool.eq_iff_iff]
  simp only [Function.comp_apply, Bool.and_eq_true, decide_eq_true_eq]
  tauto

/-! ## What the grid finds -/

namespace SpatialGrid

section

variable {P : Type} {cell : P → Cell} {positions : HashMap (String × String) P} {px sid id : String}
  {c : Cell}

/-- A node is in a cell when its entry is. -/
theorem mem_nodesIn : id ∈ nodesIn cell positions px c ↔
    ∃ p, positions.get (px, id) = some p ∧ cell p = c := by
  simp only [nodesIn, mem_map, mem_filter, decide_eq_true_eq, HashMap.get_eq_some_iff]
  constructor
  · rintro ⟨⟨⟨px', id'⟩, p⟩, ⟨hmem, rfl, hcell⟩, rfl⟩
    exact ⟨p, hmem, hcell⟩
  · rintro ⟨p, hmem, hcell⟩
    exact ⟨((px, id), p), ⟨hmem, rfl, hcell⟩, rfl⟩

/-- No node is twice in a cell: the table has one entry for it. -/
theorem nodup_nodesIn : (nodesIn cell positions px c).Nodup := by
  refine List.Nodup.map_on ?_ ((List.Nodup.of_map _ positions.nodup).filter _)
  rintro ⟨⟨px₁, id₁⟩, p₁⟩ h₁ ⟨⟨px₂, id₂⟩, p₂⟩ h₂ hid
  simp only [mem_filter, decide_eq_true_eq] at h₁ h₂ hid
  obtain ⟨hmem₁, rfl, -⟩ := h₁
  obtain ⟨hmem₂, rfl, -⟩ := h₂
  subst hid
  have hget := (positions.get_eq_some_iff).mpr hmem₁
  rw [(positions.get_eq_some_iff).mpr hmem₂] at hget
  rw [Option.some.inj hget]

/-- The candidates are the other nodes in the cells around. -/
theorem mem_candidates : id ∈ (build cell positions px).candidates c sid ↔
    id ≠ sid ∧ ∃ p, positions.get (px, id) = some p ∧
      ∃ d ∈ offsets, cell p = (c.1 + d.1, c.2.1 + d.2.1, c.2.2 + d.2.2) := by
  rw [candidates_build]
  simp only [mem_flatMap, mem_filter, mem_nodesIn, decide_eq_true_eq]
  constructor
  · rintro ⟨d, hd, ⟨p, hget, hcell⟩, hne⟩
    exact ⟨hne, p, hget, d, hd, hcell⟩
  · rintro ⟨hne, p, hget, d, hd, hcell⟩
    exact ⟨d, hd, ⟨p, hget, hcell⟩, hne⟩

/-- No node is a candidate twice: the 27 cells are different, also where the sums wrap around. -/
theorem nodup_candidates : ((build cell positions px).candidates c sid).Nodup := by
  rw [candidates_build, nodup_flatMap]
  refine ⟨fun d _ => nodup_nodesIn.filter _, ?_⟩
  have hoffsets : offsets.Nodup := by decide
  refine hoffsets.pairwise_of_forall_ne fun d _ d' _ hne id hid hid' => hne ?_
  obtain ⟨p, hget, hcell⟩ := mem_nodesIn.mp (mem_filter.mp hid).1
  obtain ⟨p', hget', hcell'⟩ := mem_nodesIn.mp (mem_filter.mp hid').1
  rw [hget, Option.some.injEq] at hget'
  rw [← hget', hcell, Prod.mk.injEq, Prod.mk.injEq] at hcell'
  obtain ⟨hx, hy, hz⟩ := hcell'
  exact Prod.ext ((Int64.add_right_inj _).mp hx)
    (Prod.ext ((Int64.add_right_inj _).mp hy) ((Int64.add_right_inj _).mp hz))

/-- An offset is built axis by axis. -/
theorem mem_offsets {d : Cell} : d ∈ offsets ↔
    d.1 ∈ ([-1, 0, 1] : List Int64) ∧ d.2.1 ∈ ([-1, 0, 1] : List Int64) ∧
      d.2.2 ∈ ([-1, 0, 1] : List Int64) := by
  obtain ⟨dx, dy, dz⟩ := d
  simp only [offsets, mem_flatMap, mem_map, Prod.mk.injEq]
  constructor
  · rintro ⟨x, hx, y, hy, z, hz, rfl, rfl, rfl⟩
    exact ⟨hx, hy, hz⟩
  · rintro ⟨hx, hy, hz⟩
    exact ⟨dx, hx, dy, hy, dz, hz, rfl, rfl, rfl⟩

end

end SpatialGrid

/-! ## The grid over the rationals -/

open SpatialGrid

/-- `(x / 500.0).floor() as i64`: the cast saturates. -/
def ratAxisCell (x : ℚ) : Int64 := Int64.ofIntClamp ⌊x / 500⌋

/-- The grid cell of a position. -/
def ratCell (p : RatPoint) : Cell := (ratAxisCell p.1, ratAxisCell p.2.1, ratAxisCell p.2.2)

/-- The number of the cell is an `i64`. -/
def IsRepresentable (x : ℚ) : Prop := -2 ^ 63 ≤ ⌊x / 500⌋ ∧ ⌊x / 500⌋ < 2 ^ 63

/-- The saturating cast as a number. -/
theorem toInt_ratAxisCell (x : ℚ) : (ratAxisCell x).toInt = max (-2 ^ 63) (min ⌊x / 500⌋ (2 ^ 63 - 1)) := by
  have hmin : Int64.minValue.toInt = -2 ^ 63 := by decide
  have hmax : Int64.maxValue.toInt = 2 ^ 63 - 1 := by decide
  unfold ratAxisCell
  by_cases hlo : Int64.minValue.toInt ≤ ⌊x / 500⌋
  · by_cases hhi : ⌊x / 500⌋ ≤ Int64.maxValue.toInt
    · rw [Int64.toInt_ofIntClamp hlo hhi]
      omega
    · rw [Int64.ofIntClamp, dif_pos hlo, dif_neg hhi]
      omega
  · rw [Int64.ofIntClamp, dif_neg hlo]
    omega

/-- Two `i64` numbers are an offset of the loops apart when they differ by at most one. -/
theorem exists_offset {a b : Int64} (h : |a.toInt - b.toInt| ≤ 1) :
    ∃ d ∈ ([-1, 0, 1] : List Int64), a = b + d := by
  have hlo := Int64.le_toInt a
  have hhi := Int64.toInt_lt a
  -- the sum does not wrap around, since its value is that of `a`
  have hsum : ∀ d : Int64, b.toInt + d.toInt = a.toInt → a = b + d := by
    intro d hd
    apply Int64.toInt_inj.mp
    rw [Int64.toInt_add, hd, Int.bmod_eq_of_le (by omega) (by omega)]
  have hcases : b.toInt + -1 = a.toInt ∨ b.toInt + 0 = a.toInt ∨ b.toInt + 1 = a.toInt := by
    rw [abs_le] at h
    omega
  rcases hcases with hd | hd | hd
  · exact ⟨-1, by decide, hsum _ hd⟩
  · exact ⟨0, by decide, hsum _ hd⟩
  · exact ⟨1, by decide, hsum _ hd⟩

/-- On one axis, a node within 500 is in a cell the loops visit, saturated or not. -/
theorem exists_offset_of_near {x y : ℚ} (h : |x - y| ≤ 500) :
    ∃ d ∈ ([-1, 0, 1] : List Int64), ratAxisCell x = ratAxisCell y + d := by
  apply exists_offset
  have hfloor := abs_floor_sub_floor_le_one (by norm_num : (0 : ℚ) < 500) h
  rw [abs_le] at hfloor ⊢
  rw [toInt_ratAxisCell, toInt_ratAxisCell]
  omega

/-- On one axis, a node in a cell the loops visit is less than 1000 away, unless a cell saturates. -/
theorem near_of_offset {x y : ℚ} {d : Int64} (hd : d ∈ ([-1, 0, 1] : List Int64))
    (hx : IsRepresentable x) (hy : Checked.IsInner (ratAxisCell y))
    (h : ratAxisCell x = ratAxisCell y + d) : |x - y| < 1000 := by
  obtain ⟨hlo, hhi⟩ := Checked.toInt_add_mem hy hd
  have hinner := hy.toInt_mem
  have hoffset := Checked.toInt_offset_mem hd
  have hsum : (ratAxisCell x).toInt = (ratAxisCell y).toInt + d.toInt := by
    rw [h, Int64.toInt_add, Int.bmod_eq_of_le (by omega) (by omega)]
  rw [toInt_ratAxisCell] at hsum hinner
  rw [toInt_ratAxisCell] at hsum
  obtain ⟨hxlo, hxhi⟩ := hx
  have hfloor : |⌊x / 500⌋ - ⌊y / 500⌋| ≤ 1 := by
    rw [abs_le]
    omega
  have hlt := abs_sub_lt_of_floor (by norm_num : (0 : ℚ) < 500) hfloor
  norm_num at hlt
  exact hlt

/-- All coordinates differ by at most 500. -/
def IsNear (p q : RatPoint) : Prop := |p.1 - q.1| ≤ 500 ∧ |p.2.1 - q.2.1| ≤ 500 ∧ |p.2.2 - q.2.2| ≤ 500

/-- Some coordinate differs by 1000 or more. -/
def IsFar (p q : RatPoint) : Prop := 1000 ≤ |p.1 - q.1| ∨ 1000 ≤ |p.2.1 - q.2.1| ∨ 1000 ≤ |p.2.2 - q.2.2|

/-- The cell numbers of all three axes are `i64` numbers. -/
def IsRepresentablePoint (p : RatPoint) : Prop :=
  IsRepresentable p.1 ∧ IsRepresentable p.2.1 ∧ IsRepresentable p.2.2

/-- The candidates of a sender over the rationals. -/
def candidatesRat (positions : HashMap (String × String) RatPoint) (px : String) (at_ : RatPoint)
    (sid : String) : List String :=
  (build ratCell positions px).candidates (ratCell at_) sid

/-- **What the grid finds.** For every table of positions, topic part, sender and sender position: every
other node of the topic part within 500 on each axis is a candidate once; a candidate is a node of the
topic part and not the sender; and it is not 1000 away on an axis if its own cell and the cells around
the sender have `i64` numbers. -/
theorem candidates_rat_spec (positions : HashMap (String × String) RatPoint) (px : String)
    (at_ : RatPoint) (sid : String) : (∀ id p, positions.get (px, id) = some p → id ≠ sid → IsNear p at_ →
      (candidatesRat positions px at_ sid).count id = 1) ∧
    ∀ id ∈ candidatesRat positions px at_ sid, id ≠ sid ∧ ∃ p, positions.get (px, id) = some p ∧
      (Checked.IsInnerCell (ratCell at_) → IsRepresentablePoint p → ¬ IsFar p at_) := by
  refine ⟨?_, ?_⟩
  · rintro id p hget hne ⟨hx, hy, hz⟩
    obtain ⟨dx, hdx, hcx⟩ := exists_offset_of_near hx
    obtain ⟨dy, hdy, hcy⟩ := exists_offset_of_near hy
    obtain ⟨dz, hdz, hcz⟩ := exists_offset_of_near hz
    have hmem : id ∈ candidatesRat positions px at_ sid :=
      mem_candidates.mpr ⟨hne, p, hget, (dx, dy, dz), mem_offsets.mpr ⟨hdx, hdy, hdz⟩,
        Prod.ext hcx (Prod.ext hcy hcz)⟩
    exact List.count_eq_one_of_mem nodup_candidates hmem
  · intro id hid
    obtain ⟨hne, p, hget, d, hd, hcell⟩ := mem_candidates.mp hid
    refine ⟨hne, p, hget, ?_⟩
    rintro ⟨hix, hiy, hiz⟩ ⟨hrx, hry, hrz⟩
    obtain ⟨hdx, hdy, hdz⟩ := mem_offsets.mp hd
    have hx := near_of_offset hdx hrx hix (congrArg Prod.fst hcell)
    have hy := near_of_offset hdy hry hiy (congrArg (fun c => c.2.1) hcell)
    have hz := near_of_offset hdz hrz hiz (congrArg (fun c => c.2.2) hcell)
    rintro (hfar | hfar | hfar)
    · exact absurd hx (not_lt.mpr hfar)
    · exact absurd hy (not_lt.mpr hfar)
    · exact absurd hz (not_lt.mpr hfar)

/-- A table with one node, far out on the first axis. -/
def farTable (x : ℚ) : HashMap (String × String) RatPoint := HashMap.empty.insert ("", "1") (x, 0, 0)

/-- A node in the cell next to the sender's. -/
theorem candidates_rat_spec_neighbour : (farTable 400).get ("", "1") = some (400, 0, 0) ∧
    (candidatesRat (farTable 400) "" (-50, 0, 0) "0").count "1" = 1 := by
  have hget : (farTable 400).get ("", "1") = some (400, 0, 0) := by decide +kernel
  refine ⟨hget, (candidates_rat_spec (farTable 400) "" (-50, 0, 0) "0").1 "1" (400, 0, 0) hget
    (by decide) ⟨?_, ?_, ?_⟩⟩
  · norm_num
  · norm_num
  · norm_num

/-- Far out both cells saturate: a node that is `500 * 2 ^ 64` away is a candidate. -/
theorem candidatesRat_saturated : (farTable (500 * 2 ^ 65)).get ("", "1") = some (500 * 2 ^ 65, 0, 0) ∧
    "1" ∈ candidatesRat (farTable (500 * 2 ^ 65)) "" (500 * 2 ^ 64, 0, 0) "0" ∧
    IsFar (500 * 2 ^ 65, 0, 0) (500 * 2 ^ 64, 0, 0) := by
  refine ⟨by decide +kernel, by decide +kernel, Or.inl ?_⟩
  norm_num

end Virtmcu.ZenohCoordinator
