import Mathlib.Algebra.BigOperators.Group.List.Basic
import Mathlib.Algebra.GroupWithZero.Nat
import Mathlib.Algebra.Order.Group.Nat
import Virtmcu.Foundations.LittleEndian

/-! # Reading a file

A file is read at a position that can be moved. Numbers are little-endian. A read that reaches behind the
end of the file fails; a seek may go behind the end, but not in front of the start, and not beyond what an
`i64` can say.

The cursor also remembers how far the reads have reached, so that it can be said of a reader that it stays
within some part of the file. -/

namespace Virtmcu

/-- The contents of a file. -/
structure File where
  bytes : List UInt8
  /-- Sizes of files are `i64`. -/
  length_lt : bytes.length < 2 ^ 63

structure Cursor where
  pos : ℕ
  /-- The end of the furthest byte that a read has asked for. Nothing depends on it. -/
  high : ℕ
  deriving DecidableEq, Repr

variable {file : File} {c : Cursor}

/-! ## Numbers -/

/-- A number of `width` bytes. Behind a read that fails nothing is read any more. -/
def readInt (file : File) (width : ℕ) (c : Cursor) : Option ℕ × Cursor :=
  (if c.pos + width ≤ file.bytes.length then some (leNat ((file.bytes.drop c.pos).take width)) else none,
    ⟨c.pos + width, max c.high (c.pos + width)⟩)

/-- Numbers of these widths, one after the other. -/
def readInts (file : File) : List ℕ → Cursor → Option (List ℕ) × Cursor
  | [], c => (some [], c)
  | width :: widths, c =>
      match readInt file width c with
      | (none, c) => (none, c)
      | (some value, c) => ((readInts file widths c).1.map (value :: ·), (readInts file widths c).2)

/-- The numbers that stand there. -/
def intsAt (bytes : List UInt8) : List ℕ → (pos : ℕ) → List ℕ
  | [], _ => []
  | width :: widths, pos => leNat ((bytes.drop pos).take width) :: intsAt bytes widths (pos + width)

theorem readInts_cons_of_le {width : ℕ} (widths : List ℕ) (h : c.pos + width ≤ file.bytes.length) :
    readInts file (width :: widths) c =
      ((readInts file widths ⟨c.pos + width, max c.high (c.pos + width)⟩).1.map
          (leNat ((file.bytes.drop c.pos).take width) :: ·),
        (readInts file widths ⟨c.pos + width, max c.high (c.pos + width)⟩).2) := by
  rw [readInts, readInt, if_pos h]

theorem readInts_cons_of_gt {width : ℕ} (widths : List ℕ) (h : file.bytes.length < c.pos + width) :
    readInts file (width :: widths) c = (none, ⟨c.pos + width, max c.high (c.pos + width)⟩) := by
  rw [readInts, readInt, if_neg (Nat.not_le.mpr h)]

/-- Enough bytes are left. -/
theorem readInts_of_le (file : File) (widths : List ℕ) (c : Cursor)
    (h : c.pos + widths.sum ≤ file.bytes.length) :
    (readInts file widths c).1 = some (intsAt file.bytes widths c.pos) ∧
      (readInts file widths c).2.pos = c.pos + widths.sum := by
  induction widths generalizing c with
  | nil => exact ⟨rfl, rfl⟩
  | cons width widths ih =>
    rw [List.sum_cons] at h
    have hrest := ih ⟨c.pos + width, max c.high (c.pos + width)⟩ (by dsimp only; omega)
    rw [readInts_cons_of_le widths (by omega), hrest.1]
    refine ⟨rfl, hrest.2.trans ?_⟩
    rw [List.sum_cons, Nat.add_assoc]

/-- Too few are left. -/
theorem readInts_of_gt {widths : List ℕ} (hne : widths ≠ [])
    (h : file.bytes.length < c.pos + widths.sum) : (readInts file widths c).1 = none := by
  induction widths generalizing c with
  | nil => exact absurd rfl hne
  | cons width widths ih =>
    by_cases hfirst : c.pos + width ≤ file.bytes.length
    · rw [readInts_cons_of_le widths hfirst]
      rw [List.sum_cons] at h
      have hmore : widths ≠ [] := by
        rintro rfl
        rw [List.sum_nil] at h
        omega
      rw [ih hmore (by dsimp only; omega), Option.map_none]
    · rw [readInts_cons_of_gt widths (Nat.not_le.mp hfirst)]

/-- The reads reach as far as these numbers. -/
theorem high_readInts_le (file : File) (widths : List ℕ) (c : Cursor) :
    (readInts file widths c).2.high ≤ max c.high (c.pos + widths.sum) := by
  induction widths generalizing c with
  | nil => exact le_max_left _ _
  | cons width widths ih =>
    rw [List.sum_cons]
    by_cases hfirst : c.pos + width ≤ file.bytes.length
    · rw [readInts_cons_of_le widths hfirst]
      refine (ih _).trans ?_
      dsimp only
      omega
    · rw [readInts_cons_of_gt widths (Nat.not_le.mp hfirst)]
      dsimp only
      omega

/-- They reach that far, or behind the end of the file. -/
theorem le_high_readInts (file : File) {widths : List ℕ} (hne : widths ≠ []) (c : Cursor) :
    min (c.pos + widths.sum) (file.bytes.length + 1) ≤ (readInts file widths c).2.high := by
  induction widths generalizing c with
  | nil => exact absurd rfl hne
  | cons width widths ih =>
    rw [List.sum_cons]
    by_cases hfirst : c.pos + width ≤ file.bytes.length
    · rw [readInts_cons_of_le widths hfirst]
      rcases eq_or_ne widths [] with rfl | hmore
      · simp only [readInts, List.sum_nil]
        omega
      · have hrest := ih hmore ⟨c.pos + width, max c.high (c.pos + width)⟩
        dsimp only at hrest ⊢
        omega
    · rw [readInts_cons_of_gt widths (Nat.not_le.mp hfirst)]
      dsimp only
      omega

/-- What was read: where it stood, and where the cursor is now. -/
theorem readInts_eq_some {widths values : List ℕ} {c' : Cursor} (hne : widths ≠ [])
    (h : readInts file widths c = (some values, c')) :
    c.pos + widths.sum ≤ file.bytes.length ∧ values = intsAt file.bytes widths c.pos ∧
      c'.pos = c.pos + widths.sum := by
  have hle : c.pos + widths.sum ≤ file.bytes.length := by
    by_contra hgt
    have hnone := readInts_of_gt hne (Nat.not_le.mp hgt)
    rw [h] at hnone
    cases hnone
  obtain ⟨hvalues, hpos⟩ := readInts_of_le file widths c hle
  rw [h] at hvalues hpos
  exact ⟨hle, Option.some.inj hvalues, hpos⟩

/-! ## Where something stands -/

/-- These bytes stand at a position of a file. -/
def StandsAt (bytes : List UInt8) (pos : ℕ) (part : List UInt8) : Prop :=
  ∃ before after, bytes = before ++ part ++ after ∧ before.length = pos

section StandsAt

variable {bytes part xs ys : List UInt8} {pos : ℕ}

theorem StandsAt.length_le (h : StandsAt bytes pos part) : pos + part.length ≤ bytes.length := by
  obtain ⟨before, after, rfl, rfl⟩ := h
  simp only [List.length_append]
  omega

theorem StandsAt.left (h : StandsAt bytes pos (xs ++ ys)) : StandsAt bytes pos xs := by
  obtain ⟨before, after, rfl, rfl⟩ := h
  exact ⟨before, ys ++ after, by simp only [List.append_assoc], rfl⟩

theorem StandsAt.right (h : StandsAt bytes pos (xs ++ ys)) : StandsAt bytes (pos + xs.length) ys := by
  obtain ⟨before, after, rfl, rfl⟩ := h
  exact ⟨before ++ xs, after, by simp only [List.append_assoc], List.length_append⟩

theorem StandsAt.take_drop (h : StandsAt bytes pos part) : (bytes.drop pos).take part.length = part := by
  obtain ⟨before, after, rfl, rfl⟩ := h
  rw [List.append_assoc, List.drop_left, List.take_left]

end StandsAt

/-- Numbers, each with its width. -/
def encodeInts (fields : List (ℕ × ℕ)) : List UInt8 := fields.flatMap fun field => leBytes field.1 field.2

theorem encodeInts_cons (field : ℕ × ℕ) (fields : List (ℕ × ℕ)) :
    encodeInts (field :: fields) = leBytes field.1 field.2 ++ encodeInts fields := rfl

@[simp] theorem length_encodeInts (fields : List (ℕ × ℕ)) :
    (encodeInts fields).length = (fields.map Prod.fst).sum := by
  induction fields with
  | nil => rfl
  | cons field fields ih =>
    rw [encodeInts_cons, List.length_append, length_leBytes, ih, List.map_cons, List.sum_cons]

/-- **What was written is read**, if the numbers fit their widths. -/
theorem intsAt_of_standsAt {bytes : List UInt8} {pos : ℕ} {fields : List (ℕ × ℕ)}
    (h : StandsAt bytes pos (encodeInts fields)) (hfit : ∀ field ∈ fields, field.2 < 256 ^ field.1) :
    intsAt bytes (fields.map Prod.fst) pos = fields.map Prod.snd := by
  induction fields generalizing pos with
  | nil => rfl
  | cons field fields ih =>
    rw [encodeInts_cons] at h
    have hfirst := h.left.take_drop
    have hrest := h.right
    rw [length_leBytes] at hfirst hrest
    rw [List.map_cons, List.map_cons, intsAt, hfirst,
      leNat_leBytes_of_lt (hfit field (List.mem_cons_self ..)),
      ih hrest fun other hother => hfit other (List.mem_cons_of_mem _ hother)]

/-! ## Seeking -/

/-- `SeekFrom::Current(offset as i64)`. -/
def Cursor.seekCurrent (offset : UInt64) (c : Cursor) : Option Cursor :=
  let target : ℤ := c.pos + offset.toInt64.toInt
  if 0 ≤ target ∧ target < 2 ^ 63 then some { c with pos := target.toNat } else none

/-- Where a seek leads. -/
def seekFrom (pos : ℕ) (offset : UInt64) : Option ℕ :=
  let target : ℤ := pos + offset.toInt64.toInt
  if 0 ≤ target ∧ target < 2 ^ 63 then some target.toNat else none

theorem seekCurrent_eq (offset : UInt64) (c : Cursor) :
    c.seekCurrent offset = (seekFrom c.pos offset).map fun pos => { c with pos := pos } := by
  unfold Cursor.seekCurrent seekFrom
  dsimp only
  split <;> rfl

/-- A number below `2^63` is not negative as an `i64`. -/
theorem toInt_toInt64 (offset : UInt64) : offset.toInt64.toInt =
      if offset.toNat < 2 ^ 63 then (offset.toNat : ℤ) else (offset.toNat : ℤ) - 2 ^ 64 := by
  have hnat : offset.toBitVec.toNat = offset.toNat := rfl
  rw [← Int64.toInt_toBitVec, UInt64.toBitVec_toInt64, BitVec.toInt_eq_toNat_cond, hnat]
  split <;> split <;> omega

theorem seekFrom_eq_some {pos target : ℕ} {offset : UInt64} (h : seekFrom pos offset = some target) :
    (target : ℤ) = pos + offset.toInt64.toInt ∧ target < 2 ^ 63 := by
  unfold seekFrom at h
  dsimp only at h
  split at h
  · rename_i hrange
    obtain rfl := Option.some.inj h
    omega
  · cases h

theorem seekFrom_eq_none {pos : ℕ} {offset : UInt64} (h : seekFrom pos offset = none) :
    ¬ (0 ≤ pos + offset.toInt64.toInt ∧ pos + offset.toInt64.toInt < 2 ^ 63) := by
  intro hrange
  unfold seekFrom at h
  rw [if_pos hrange] at h
  cases h

/-- A seek forward. -/
theorem seekCurrent_of_lt {offset : UInt64} (h : c.pos + offset.toNat < 2 ^ 63) :
    c.seekCurrent offset = some { c with pos := c.pos + offset.toNat } := by
  have hoffset : offset.toInt64.toInt = offset.toNat := by
    rw [toInt_toInt64, if_pos (by omega)]
  unfold Cursor.seekCurrent
  dsimp only
  rw [hoffset, if_pos (by omega)]
  rfl

end Virtmcu
