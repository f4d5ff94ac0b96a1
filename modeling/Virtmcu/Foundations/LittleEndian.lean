import Mathlib.Algebra.Group.Nat.Defs

/-! # Little-endian numbers in byte lists

`leBytes w v` writes the low `w` bytes of `v`, least significant first, and `leNat` reads a byte list
back. A reader that finds too few bytes is the caller's concern: both functions are total. The
big-endian order is the same bytes from behind. -/

namespace Virtmcu

open List

/-- The `width` low bytes of `value`, least significant first. -/
def leBytes : (width value : ℕ) → List UInt8
  | 0, _ => []
  | width + 1, value => value.toUInt8 :: leBytes width (value / 256)

/-- The number a byte list spells, least significant byte first. -/
def leNat : List UInt8 → ℕ
  | [] => 0
  | byte :: bytes => byte.toNat + 256 * leNat bytes

@[simp] theorem length_leBytes (width value : ℕ) : (leBytes width value).length = width := by
  induction width generalizing value with
  | zero => rfl
  | succ width ih => simp [leBytes, ih]

theorem take_leBytes_append (width value : ℕ) (rest : List UInt8) :
    (leBytes width value ++ rest).take width = leBytes width value :=
  take_left' (length_leBytes width value)

theorem drop_leBytes_append (width value : ℕ) (rest : List UInt8) :
    (leBytes width value ++ rest).drop width = rest :=
  drop_left' (length_leBytes width value)

/-- Skipping a field and more. -/
theorem drop_leBytes_append_of_le {width n : ℕ} (h : width ≤ n) (value : ℕ) (rest : List UInt8) :
    (leBytes width value ++ rest).drop n = rest.drop (n - width) := by
  rw [← Nat.add_sub_of_le h, ← drop_drop, drop_leBytes_append, Nat.add_sub_cancel_left]

/-- Reading back what was written keeps the value modulo the width. -/
theorem leNat_leBytes (width value : ℕ) : leNat (leBytes width value) = value % 256 ^ width := by
  induction width generalizing value with
  | zero => simp [leBytes, leNat, Nat.mod_one]
  | succ width ih =>
    have hbyte : value.toUInt8.toNat = value % 256 := rfl
    rw [leBytes, leNat, ih, hbyte, Nat.pow_succ', Nat.mod_mul]

/-- A value that fits its width survives. -/
theorem leNat_leBytes_of_lt {width value : ℕ} (h : value < 256 ^ width) :
    leNat (leBytes width value) = value := by
  rw [leNat_leBytes, Nat.mod_eq_of_lt h]

/-- The low bytes of a number. -/
theorem take_leBytes {size width : ℕ} (h : size ≤ width) (value : ℕ) :
    (leBytes width value).take size = leBytes size value := by
  induction size generalizing width value with
  | zero => rfl
  | succ size ih =>
    obtain ⟨width, rfl⟩ := Nat.exists_eq_succ_of_ne_zero (Nat.ne_of_gt (Nat.zero_lt_of_lt h))
    rw [leBytes, leBytes, take_succ_cons, ih (Nat.le_of_succ_le_succ h)]

/-- Zeros behind a number do not change it. -/
theorem leNat_append_zeros (bytes : List UInt8) (n : ℕ) :
    leNat (bytes ++ List.replicate n 0) = leNat bytes := by
  induction bytes with
  | nil =>
    induction n with
    | zero => rfl
    | succ n ih =>
      rw [nil_append] at ih ⊢
      have hzero : leNat (List.replicate (n + 1) 0) = 0 + 256 * leNat (List.replicate n 0) := rfl
      rw [hzero, ih]
      rfl
  | cons byte bytes ih => rw [cons_append, leNat, ih, leNat]

theorem leBytes_injective {width a b : ℕ} (ha : a < 256 ^ width) (hb : b < 256 ^ width)
    (h : leBytes width a = leBytes width b) : a = b := by
  rw [← leNat_leBytes_of_lt ha, ← leNat_leBytes_of_lt hb, h]

/-- The number of a byte list fits its length. -/
theorem leNat_lt (bytes : List UInt8) : leNat bytes < 256 ^ bytes.length := by
  induction bytes with
  | nil => simp [leNat]
  | cons byte bytes ih =>
    have hbyte : byte.toNat < 256 := byte.toNat_lt
    rw [leNat, length_cons, Nat.pow_succ']
    omega

/-- Every byte list is the encoding of its number. -/
theorem leBytes_leNat (bytes : List UInt8) : leBytes bytes.length (leNat bytes) = bytes := by
  induction bytes with
  | nil => rfl
  | cons byte bytes ih =>
    have hlow : (byte.toNat + 256 * leNat bytes).toUInt8 = byte := by
      apply UInt8.toNat_inj.mp
      show (byte.toNat + 256 * leNat bytes) % 256 = byte.toNat
      have hbyte : byte.toNat < 256 := byte.toNat_lt
      omega
    have hhigh : (byte.toNat + 256 * leNat bytes) / 256 = leNat bytes := by
      have hbyte : byte.toNat < 256 := byte.toNat_lt
      omega
    rw [length_cons, leNat, leBytes, hlow, hhigh, ih]

/-- Only the low bytes of a number are written. -/
theorem leBytes_mod (width value : ℕ) : leBytes width (value % 256 ^ width) = leBytes width value := by
  have hbytes := leBytes_leNat (leBytes width value)
  rwa [length_leBytes, leNat_leBytes] at hbytes

/-- Enough bytes for a number are the encoding of one and what follows. -/
theorem exists_leBytes_append {width : ℕ} {bytes : List UInt8} (h : width ≤ bytes.length) :
    ∃ value < 256 ^ width, bytes = leBytes width value ++ bytes.drop width := by
  have hlen : (bytes.take width).length = width := length_take_of_le h
  have hlt := leNat_lt (bytes.take width)
  have hbytes := leBytes_leNat (bytes.take width)
  rw [hlen] at hlt hbytes
  refine ⟨leNat (bytes.take width), hlt, ?_⟩
  rw [hbytes, take_append_drop]

/-- A `u32` in its four bytes. -/
theorem toUInt32_leNat_leBytes (value : UInt32) : (leNat (leBytes 4 value.toNat)).toUInt32 = value := by
  rw [leNat_leBytes_of_lt value.toNat_lt]
  exact UInt32.ofNat_toNat

/-- A `u64` in its eight bytes. -/
theorem toUInt64_leNat_leBytes (value : UInt64) : (leNat (leBytes 8 value.toNat)).toUInt64 = value := by
  rw [leNat_leBytes_of_lt value.toNat_lt]
  exact UInt64.ofNat_toNat

/-! ## Big-endian -/

/-- The `width` low bytes of `value`, most significant first. -/
def beBytes (width value : ℕ) : List UInt8 := (leBytes width value).reverse

/-- The number a byte list spells, most significant byte first. -/
def beNat (bytes : List UInt8) : ℕ := leNat bytes.reverse

end Virtmcu
