import Mathlib.Algebra.Order.Field.Basic
import Mathlib.Tactic.Linarith
import Virtmcu.CyberBridge.ResdParser

/-! # The reading of a sensor at a time

`ResdSensor::get_reading` looks for the place of a time among the samples: it goes on as long as the next
sample is not later. From there it interpolates, or it takes a sample as it is.

The function is stated over any number system, with a division that may be undefined. At IEEE numbers it is
the code; over the rationals it is what an interpolation should be (`ratReading_spec`): the division is never
by zero, whatever the order of the samples, no component leaves the range of two neighbours, and if the
samples are in order, the neighbours are the right ones. -/

namespace Virtmcu.CyberBridge

open List UInt64

/-! ## The function -/

/-- The loop of `get_reading`, at most `fuel` times. -/
def advance (samples : List Sample) (vtimeNs : UInt64) : (fuel idx : ℕ) → ℕ
  | 0, idx => idx
  | fuel + 1, idx =>
      match samples[idx + 1]? with
      | none => idx
      | some next => if next.timestampNs ≤ vtimeNs then advance samples vtimeNs fuel (idx + 1) else idx

section Numbers

variable {K : Type*} [Add K] [Sub K] [Mul K] (ofU64 : UInt64 → K) (ofI32 : Int32 → K)
  (divide : K → K → Option K)

/-- The linear interpolation between two samples. -/
def interpolateOver (s0 s1 : Sample) (vtimeNs : UInt64) : Option (List K) :=
  let t0 := ofU64 s0.timestampNs
  let t1 := ofU64 s1.timestampNs
  let t := ofU64 vtimeNs
  (divide (t - t0) (t1 - t0)).map fun factor =>
    List.zipWith (fun v0 v1 => ofI32 v0 + factor * (ofI32 v1 - ofI32 v0)) s0.data s1.data

/-- `ResdSensor::get_reading`. Every round of the loop goes to a later sample, so there are not more of
them than samples. -/
def Sensor.readingOver (sensor : Sensor) (vtimeNs : UInt64) : Option (List K) :=
  if sensor.samples = [] then some [ofI32 0]
  else
    let idx := advance sensor.samples vtimeNs sensor.samples.length 0
    match sensor.samples[idx]?, sensor.samples[idx + 1]? with
    | none, _ => none
    | some s0, none => some (s0.data.map ofI32)
    | some s0, some s1 =>
        -- zero-order hold before the first sample
        if vtimeNs < s0.timestampNs then some (s0.data.map ofI32)
        else interpolateOver ofU64 ofI32 divide s0 s1 vtimeNs

end Numbers

/-- The function at IEEE numbers, where every quotient is a number or not a number. -/
def Sensor.getReading (sensor : Sensor) (vtimeNs : UInt64) : Option (List Float) :=
  sensor.readingOver UInt64.toFloat Int32.toFloat (fun a b => some (a / b)) vtimeNs

/-- A quotient of rationals; by zero there is none. -/
def ratDivide (a b : ℚ) : Option ℚ := if b = 0 then none else some (a / b)

/-- The numbers of a sample. -/
def Sample.values (sample : Sample) : List ℚ := sample.data.map fun value => (value.toInt : ℚ)

/-- The function at rational numbers. -/
def Sensor.ratReading (sensor : Sensor) (vtimeNs : UInt64) : Option (List ℚ) :=
  sensor.readingOver (fun time => (time.toNat : ℚ)) (fun value => (value.toInt : ℚ)) ratDivide vtimeNs

/-! ## The loop -/

/-- Where the loop stops. -/
structure Scanned (samples : List Sample) (vtimeNs : UInt64) (start idx : ℕ) : Prop where
  lt_length : idx < samples.length
  /-- The samples that were passed are not later. -/
  passed : ∀ i, start < i → i ≤ idx → ∀ s, samples[i]? = some s → s.timestampNs ≤ vtimeNs
  /-- The next one is. -/
  stopped : ∀ s, samples[idx + 1]? = some s → vtimeNs < s.timestampNs

variable {samples : List Sample}

theorem scanned_advance {vtimeNs : UInt64} {fuel idx : ℕ}
    (hidx : idx < samples.length) (hfuel : samples.length ≤ idx + 1 + fuel) :
    Scanned samples vtimeNs idx (advance samples vtimeNs fuel idx) := by
  induction fuel generalizing idx with
  | zero =>
    refine ⟨hidx, fun i hi hle => absurd hle (Nat.not_le.mpr hi), fun s hs => ?_⟩
    have hlt : idx + 1 < samples.length := (List.getElem?_eq_some_iff.mp hs).1
    omega
  | succ fuel ih =>
    unfold advance
    cases hnext : samples[idx + 1]? with
    | none =>
      refine ⟨hidx, fun i hi hle => absurd hle (Nat.not_le.mpr hi), fun s hs => ?_⟩
      rw [hnext] at hs
      cases hs
    | some next =>
      have hlt : idx + 1 < samples.length := (List.getElem?_eq_some_iff.mp hnext).1
      dsimp only
      by_cases hle : next.timestampNs ≤ vtimeNs
      · rw [if_pos hle]
        have hrest := ih hlt (by omega)
        refine ⟨hrest.lt_length, fun i hi hle' s hs => ?_, hrest.stopped⟩
        by_cases heq : i = idx + 1
        · subst heq
          obtain rfl := Option.some.inj (hnext.symm.trans hs)
          exact hle
        · exact hrest.passed i (by omega) hle' s hs
      · rw [if_neg hle]
        refine ⟨hidx, fun i hi hle => absurd hle (Nat.not_le.mpr hi), fun s hs => ?_⟩
        obtain rfl := Option.some.inj (hnext.symm.trans hs)
        exact UInt64.not_le.mp hle

/-! ## Interpolation -/

section Lerp

variable {K : Type*} [Field K] [LinearOrder K] [IsStrictOrderedRing K]

/-- A weighted mean lies between its two values. -/
theorem lerp_mem {a b factor : K} (h0 : 0 ≤ factor) (h1 : factor ≤ 1) :
    min a b ≤ a + factor * (b - a) ∧ a + factor * (b - a) ≤ max a b := by
  rcases le_total a b with hab | hab
  · rw [min_eq_left hab, max_eq_right hab]
    have hlow : 0 ≤ factor * (b - a) := mul_nonneg h0 (sub_nonneg.mpr hab)
    have hhigh : factor * (b - a) ≤ 1 * (b - a) := mul_le_mul_of_nonneg_right h1 (sub_nonneg.mpr hab)
    constructor <;> linarith
  · rw [min_eq_right hab, max_eq_left hab]
    have hlow : 0 ≤ factor * (a - b) := mul_nonneg h0 (sub_nonneg.mpr hab)
    have hhigh : factor * (a - b) ≤ 1 * (a - b) := mul_le_mul_of_nonneg_right h1 (sub_nonneg.mpr hab)
    have hneg : factor * (b - a) = -(factor * (a - b)) := by rw [← mul_neg, neg_sub]
    constructor <;> linarith

/-- How far a time is on its way from one time to another. -/
theorem progress_mem {t0 t t1 : K} (h0 : t0 ≤ t) (h1 : t < t1) :
    0 ≤ (t - t0) / (t1 - t0) ∧ (t - t0) / (t1 - t0) ≤ 1 := by
  have hpos : 0 < t1 - t0 := sub_pos.mpr (h0.trans_lt h1)
  refine ⟨div_nonneg (sub_nonneg.mpr h0) hpos.le, (div_le_one hpos).mpr ?_⟩
  linarith

end Lerp

/-- The line through two samples, at a time. -/
def line (s0 s1 : Sample) (vtimeNs : UInt64) : List ℚ :=
  List.zipWith (fun v0 v1 => v0 + ((vtimeNs.toNat : ℚ) - s0.timestampNs.toNat) /
    ((s1.timestampNs.toNat : ℚ) - s0.timestampNs.toNat) * (v1 - v0)) s0.values s1.values

/-- Two samples at different times: there is a line. -/
theorem interpolateOver_rat {s0 s1 : Sample} (h : s0.timestampNs < s1.timestampNs) (vtimeNs : UInt64) :
    interpolateOver (fun time => (time.toNat : ℚ)) (fun value => (value.toInt : ℚ)) ratDivide s0 s1
      vtimeNs = some (line s0 s1 vtimeNs) := by
  have hlt : (s0.timestampNs.toNat : ℚ) < s1.timestampNs.toNat :=
    Nat.cast_lt.mpr (lt_iff_toNat_lt.mp h)
  unfold interpolateOver ratDivide
  dsimp only
  rw [if_neg (sub_ne_zero.mpr hlt.ne'), Option.map_some, line, Sample.values, Sample.values, zipWith_map]

/-- What the function does, in terms of the place of the time among the samples. -/
theorem ratReading_cases {sensor : Sensor} (vtimeNs : UInt64) (hne : sensor.samples ≠ []) :
    ∃ idx, Scanned sensor.samples vtimeNs 0 idx ∧ ∃ s0, sensor.samples[idx]? = some s0 ∧
      ((sensor.samples[idx + 1]? = none ∨ vtimeNs < s0.timestampNs) ∧
          sensor.ratReading vtimeNs = some s0.values ∨
        ∃ s1, sensor.samples[idx + 1]? = some s1 ∧ s0.timestampNs ≤ vtimeNs ∧
          vtimeNs < s1.timestampNs ∧ sensor.ratReading vtimeNs = some (line s0 s1 vtimeNs)) := by
  have hscanned : Scanned sensor.samples vtimeNs 0
      (advance sensor.samples vtimeNs sensor.samples.length 0) :=
    scanned_advance (length_pos_iff.mpr hne) (by omega)
  refine ⟨_, hscanned, _, getElem?_eq_getElem hscanned.lt_length, ?_⟩
  unfold Sensor.ratReading Sensor.readingOver
  rw [if_neg hne]
  dsimp only
  rw [getElem?_eq_getElem hscanned.lt_length]
  cases hnext : sensor.samples[advance sensor.samples vtimeNs sensor.samples.length 0 + 1]? with
  | none => exact .inl ⟨.inl rfl, rfl⟩
  | some s1 =>
    have hlater := hscanned.stopped s1 hnext
    dsimp only
    split
    · rename_i hbefore
      exact .inl ⟨.inr hbefore, rfl⟩
    · rename_i hbefore
      have hle := UInt64.not_lt.mp hbefore
      exact .inr ⟨s1, rfl, hle, hlater, interpolateOver_rat (UInt64.lt_of_le_of_lt hle hlater) vtimeNs⟩

/-! ## The specification -/

/-- A component is one of a sample, or lies between those of two neighbours. -/
def Supported (samples : List Sample) (k : ℕ) (value : ℚ) : Prop :=
  (∃ s ∈ samples, s.values[k]? = some value) ∨
  ∃ i s0 s1 v0 v1, samples[i]? = some s0 ∧ samples[i + 1]? = some s1 ∧
    s0.values[k]? = some v0 ∧ s1.values[k]? = some v1 ∧ min v0 v1 ≤ value ∧ value ≤ max v0 v1

/-- The reading at a time, for samples in their order. -/
structure Interpolates (samples : List Sample) (vtimeNs : UInt64) (reading : List ℚ) : Prop where
  before : ∀ first, samples.head? = some first → vtimeNs < first.timestampNs → reading = first.values
  behind : ∀ last, samples.getLast? = some last → last.timestampNs ≤ vtimeNs → reading = last.values
  /-- On the line from the last sample that is not later to the one behind it. -/
  between : ∀ first last, samples.head? = some first → samples.getLast? = some last →
    first.timestampNs ≤ vtimeNs → vtimeNs < last.timestampNs →
      ∃ i s0 s1, samples[i]? = some s0 ∧ samples[i + 1]? = some s1 ∧ s0.timestampNs ≤ vtimeNs ∧
        (∀ j s, i < j → samples[j]? = some s → vtimeNs < s.timestampNs) ∧
        reading = line s0 s1 vtimeNs

theorem supported_line {vtimeNs : UInt64} {i : ℕ} {s0 s1 : Sample}
    (h0 : samples[i]? = some s0) (h1 : samples[i + 1]? = some s1) (hle : s0.timestampNs ≤ vtimeNs)
    (hlt : vtimeNs < s1.timestampNs) {k : ℕ} {value : ℚ} (hk : (line s0 s1 vtimeNs)[k]? = some value) :
    Supported samples k value := by
  obtain ⟨v0, v1, hv0, hv1, rfl⟩ := getElem?_zipWith_eq_some.mp hk
  have hle' : (s0.timestampNs.toNat : ℚ) ≤ vtimeNs.toNat :=
    Nat.cast_le.mpr (le_iff_toNat_le.mp hle)
  have hlt' : (vtimeNs.toNat : ℚ) < s1.timestampNs.toNat :=
    Nat.cast_lt.mpr (lt_iff_toNat_lt.mp hlt)
  obtain ⟨hlow, hhigh⟩ := progress_mem hle' hlt'
  obtain ⟨hmin, hmax⟩ := lerp_mem (a := v0) (b := v1) hlow hhigh
  exact .inr ⟨i, s0, s1, v0, v1, h0, h1, hv0, hv1, hmin, hmax⟩

/-- Of two samples in order, the one behind is not earlier. -/
theorem timestampNs_le
    (hsorted : samples.Pairwise fun a b => a.timestampNs ≤ b.timestampNs) {i j : ℕ} {a b : Sample}
    (ha : samples[i]? = some a) (hb : samples[j]? = some b) (hij : i ≤ j) :
    a.timestampNs ≤ b.timestampNs := by
  obtain ⟨hi, rfl⟩ := List.getElem?_eq_some_iff.mp ha
  obtain ⟨hj, rfl⟩ := List.getElem?_eq_some_iff.mp hb
  rcases Nat.lt_or_eq_of_le hij with hlt | rfl
  · exact List.pairwise_iff_getElem.mp hsorted i j hi hj hlt
  · exact UInt64.le_refl _

section Ordered

variable {samples : List Sample} {vtimeNs : UInt64} {idx : ℕ} {s0 s1 : Sample}
  (hsorted : samples.Pairwise fun a b => a.timestampNs ≤ b.timestampNs)
include hsorted

/-- Before the first sample the first one is held. -/
theorem interpolates_before (h0 : samples[idx]? = some s0) (hscanned : Scanned samples vtimeNs 0 idx)
    (hbefore : vtimeNs < s0.timestampNs) : Interpolates samples vtimeNs s0.values := by
  have hzero : idx = 0 := by
    by_contra hne
    have hpassed := hscanned.passed idx (Nat.pos_of_ne_zero hne) le_rfl s0 h0
    exact absurd hbefore (UInt64.not_lt.mpr hpassed)
  subst hzero
  refine ⟨fun first hfirst _ => ?_, fun last hlast hle => ?_, fun first last hfirst hlast hle _ => ?_⟩
  · rw [List.head?_eq_getElem?] at hfirst
    rw [Option.some.inj (h0.symm.trans hfirst)]
  · rw [getLast?_eq_getElem?] at hlast
    have hmono := timestampNs_le hsorted h0 hlast (Nat.zero_le _)
    exact absurd hbefore (UInt64.not_lt.mpr (UInt64.le_trans hmono hle))
  · rw [List.head?_eq_getElem?] at hfirst
    obtain rfl := Option.some.inj (h0.symm.trans hfirst)
    exact absurd hbefore (UInt64.not_lt.mpr hle)

/-- The loop has come to the last sample. -/
theorem interpolates_behind (h0 : samples[idx]? = some s0) (hscanned : Scanned samples vtimeNs 0 idx)
    (hend : samples[idx + 1]? = none) (hle : s0.timestampNs ≤ vtimeNs) :
    Interpolates samples vtimeNs s0.values := by
  have hlast : samples.getLast? = some s0 := by
    have hlength := getElem?_eq_none_iff.mp hend
    have hlt := hscanned.lt_length
    rw [getLast?_eq_getElem?, show samples.length - 1 = idx by omega, h0]
  refine ⟨fun first hfirst hlt => ?_, fun last hlast' _ => ?_, fun first last _ hlast' _ hlt => ?_⟩
  · rw [List.head?_eq_getElem?] at hfirst
    have hmono := timestampNs_le hsorted hfirst h0 (Nat.zero_le _)
    exact absurd hlt (UInt64.not_lt.mpr (UInt64.le_trans hmono hle))
  · rw [Option.some.inj (hlast.symm.trans hlast')]
  · obtain rfl := Option.some.inj (hlast.symm.trans hlast')
    exact absurd hlt (UInt64.not_lt.mpr hle)

/-- The time is between two samples. -/
theorem interpolates_between (h0 : samples[idx]? = some s0) (h1 : samples[idx + 1]? = some s1)
    (hle : s0.timestampNs ≤ vtimeNs) (hlt : vtimeNs < s1.timestampNs) :
    Interpolates samples vtimeNs (line s0 s1 vtimeNs) := by
  refine ⟨fun first hfirst hbefore => ?_, fun last hlast hbehind => ?_, fun _ _ _ _ _ _ => ?_⟩
  · rw [List.head?_eq_getElem?] at hfirst
    have hmono := timestampNs_le hsorted hfirst h0 (Nat.zero_le _)
    exact absurd hbefore (UInt64.not_lt.mpr (UInt64.le_trans hmono hle))
  · rw [List.getLast?_eq_getElem?] at hlast
    have hidx : idx + 1 < samples.length := (List.getElem?_eq_some_iff.mp h1).1
    have hmono := timestampNs_le hsorted h1 hlast (by omega)
    exact absurd hlt (UInt64.not_lt.mpr (UInt64.le_trans hmono hbehind))
  · refine ⟨idx, s0, s1, h0, h1, hle, fun j s hj hs => ?_, rfl⟩
    exact UInt64.lt_of_lt_of_le hlt (timestampNs_le hsorted h1 hs hj)

end Ordered

/-- **The reading of a sensor**: there is one, with the width of the samples; every component is supported
by one sample or by two neighbours; and for samples in their order it is the interpolation. -/
theorem ratReading_spec (sensor : Sensor) (vtimeNs : UInt64) (hne : sensor.samples ≠ []) (width : ℕ)
    (hwidth : ∀ s ∈ sensor.samples, s.data.length = width) :
    ∃ reading, sensor.ratReading vtimeNs = some reading ∧ reading.length = width ∧
      (∀ k value, reading[k]? = some value → Supported sensor.samples k value) ∧
      (sensor.samples.Pairwise (fun a b => a.timestampNs ≤ b.timestampNs) →
        Interpolates sensor.samples vtimeNs reading) := by
  obtain ⟨idx, hscanned, s0, h0, ⟨hhold, hreading⟩ | ⟨s1, h1, hle, hlt, hreading⟩⟩ :=
    ratReading_cases vtimeNs hne
  · have hmem : s0 ∈ sensor.samples := List.mem_of_getElem? h0
    refine ⟨s0.values, hreading, ?_, fun k value hk => Or.inl ⟨s0, hmem, hk⟩, fun hsorted => ?_⟩
    · rw [Sample.values, List.length_map, hwidth s0 hmem]
    · by_cases hbefore : vtimeNs < s0.timestampNs
      · exact interpolates_before hsorted h0 hscanned hbefore
      · exact interpolates_behind hsorted h0 hscanned (hhold.resolve_right hbefore)
          (UInt64.not_lt.mp hbefore)
  · refine ⟨line s0 s1 vtimeNs, hreading, ?_, fun k value hk => supported_line h0 h1 hle hlt hk,
      fun hsorted => interpolates_between hsorted h0 h1 hle hlt⟩
    rw [line, List.length_zipWith, Sample.values, Sample.values, List.length_map, List.length_map,
      hwidth s0 (List.mem_of_getElem? h0), hwidth s1 (List.mem_of_getElem? h1), min_self]

/-- Two accelerations, a microsecond apart. -/
def accelerations : Sensor :=
  ⟨"test", .acceleration, [⟨1000, [100, 200, 300]⟩, ⟨2000, [200, 400, 600]⟩]⟩

theorem ratReading_spec_accelerations :
    ∃ reading, accelerations.ratReading 1500 = some reading ∧ reading = [150, 300, 450] ∧
      Interpolates accelerations.samples 1500 reading := by
  obtain ⟨reading, hreading, -, -, hinterpolates⟩ :=
    ratReading_spec accelerations 1500 (by decide) 3 (by decide)
  have hvalue : accelerations.ratReading 1500 = some [150, 300, 450] := by decide +kernel
  exact ⟨reading, hreading, Option.some.inj (hreading.symm.trans hvalue), hinterpolates (by decide)⟩

end Virtmcu.CyberBridge
