import Mathlib.Data.List.Basic

/-! # Byte memory

A memory as a function from addresses to bytes. Several bytes are written and read at consecutive
addresses. A write is seen through a read: inside the bytes that were written (`read_write_inside`) or
outside of them (`read_write_of_le`, `read_write_of_ge`), and consecutive writes are one
(`write_append`). `splice` is the write to a list. -/

namespace Virtmcu

open List

abbrev ByteMemory := ℕ → UInt8

namespace ByteMemory

/-- The bytes are written from `base` on. -/
def write (base : ℕ) (bytes : List UInt8) (m : ByteMemory) : ByteMemory := fun a =>
  if base ≤ a then (bytes[a - base]?).getD (m a) else m a

/-- The `len` bytes from `base` on. -/
def read (base len : ℕ) (m : ByteMemory) : List UInt8 := (List.range len).map fun i => m (base + i)

variable {base : ℕ} {bytes : List UInt8} {m : ByteMemory} {a : ℕ}

theorem write_of_lt (h : a < base) : write base bytes m a = m a := if_neg (Nat.not_le.mpr h)

theorem write_of_ge (h : base + bytes.length ≤ a) : write base bytes m a = m a := by
  unfold write
  split
  · rw [getElem?_eq_none (by omega), Option.getD_none]
  · rfl

theorem write_add {k : ℕ} (h : k < bytes.length) : write base bytes m (base + k) = bytes.get ⟨k, h⟩ := by
  unfold write
  rw [if_pos (Nat.le_add_right base k), Nat.add_sub_cancel_left, getElem?_eq_getElem h, Option.getD_some]
  rfl

@[simp] theorem write_nil : write base [] m = m := by
  funext a
  unfold write
  split <;> rfl

/-- Two writes one behind the other. -/
theorem write_append (base : ℕ) (xs ys : List UInt8) (m : ByteMemory) :
    write (base + xs.length) ys (write base xs m) = write base (xs ++ ys) m := by
  funext a
  by_cases hlow : a < base
  · rw [write_of_lt (by omega), write_of_lt hlow, write_of_lt hlow]
  · obtain ⟨k, rfl⟩ := Nat.exists_eq_add_of_le (Nat.not_lt.mp hlow)
    by_cases hxs : k < xs.length
    · rw [write_of_lt (by omega), write_add hxs, write_add (by rw [length_append]; omega)]
      exact (getElem_append_left hxs).symm
    · unfold write
      rw [if_pos (by omega), if_pos (by omega), if_pos (by omega), Nat.add_sub_add_left,
        Nat.add_sub_cancel_left, getElem?_append_right (Nat.not_lt.mp hxs),
        getElem?_eq_none (Nat.not_lt.mp hxs), Option.getD_none]

@[simp] theorem length_read (base len : ℕ) (m : ByteMemory) : (read base len m).length = len := by
  simp [read]

/-- Memories that agree there. -/
theorem read_congr {len : ℕ} {m' : ByteMemory} (h : ∀ a, base ≤ a → a < base + len → m a = m' a) :
    read base len m = read base len m' := by
  unfold read
  refine map_congr_left fun i hi => ?_
  exact h _ (Nat.le_add_right base i) (Nat.add_lt_add_left (mem_range.mp hi) base)

theorem read_add (base len len' : ℕ) (m : ByteMemory) :
    read base (len + len') m = read base len m ++ read (base + len) len' m := by
  unfold read
  rw [range_add, map_append, map_map]
  simp only [Function.comp_def, Nat.add_assoc]

/-- Reads one behind the other. -/
theorem flatMap_read (base width count : ℕ) (m : ByteMemory) :
    (List.range count).flatMap (fun i => read (base + i * width) width m) = read base (count * width) m := by
  induction count with
  | zero => simp [read]
  | succ count ih =>
    rw [range_succ, flatMap_append, ih, flatMap_singleton, Nat.succ_mul, read_add]

/-- What was written there is read. -/
theorem read_write_inside {k len : ℕ} (h : k + len ≤ bytes.length) :
    read (base + k) len (write base bytes m) = (bytes.drop k).take len := by
  refine ext_getElem ?_ fun i hi hi' => ?_
  · rw [length_read, length_take, length_drop]
    omega
  · rw [length_read] at hi
    simp only [read, getElem_map, getElem_range, getElem_take, getElem_drop]
    rw [Nat.add_assoc, write_add (by omega)]
    rfl

/-- A read in front of what was written. -/
theorem read_write_of_le {start len : ℕ} (h : start + len ≤ base) :
    read start len (write base bytes m) = read start len m :=
  read_congr fun _ _ ha => write_of_lt (Nat.lt_of_lt_of_le ha h)

/-- A read behind it. -/
theorem read_write_of_ge {start len : ℕ} (h : base + bytes.length ≤ start) :
    read start len (write base bytes m) = read start len m :=
  read_congr fun _ ha _ => write_of_ge (Nat.le_trans h ha)

end ByteMemory

/-! ## A list of bytes -/

/-- Bytes in the middle of others are replaced. -/
def splice (offset : ℕ) (new old : List UInt8) : List UInt8 :=
  old.take offset ++ (new ++ old.drop (offset + new.length))

section Splice

variable {offset i : ℕ} {new old : List UInt8}

theorem length_splice (h : offset + new.length ≤ old.length) :
    (splice offset new old).length = old.length := by
  simp only [splice, length_append, length_take, length_drop]
  omega

theorem getElem?_splice_inside (h : offset ≤ old.length) (hi : i < new.length) :
    (splice offset new old)[offset + i]? = new[i]? := by
  have hlength : (old.take offset).length = offset := length_take_of_le h
  rw [splice, getElem?_append_right (by omega), hlength, Nat.add_sub_cancel_left, getElem?_append_left hi]

theorem getElem?_splice_outside (h : offset + new.length ≤ old.length)
    (hi : i < offset ∨ offset + new.length ≤ i) : (splice offset new old)[i]? = old[i]? := by
  have hlength : (old.take offset).length = offset := length_take_of_le (by omega)
  rcases hi with hi | hi
  · rw [splice, getElem?_append_left (by omega), getElem?_take_of_lt hi]
  · rw [splice, getElem?_append_right (by omega), hlength, getElem?_append_right (by omega), getElem?_drop]
    congr 1
    omega

end Splice

end Virtmcu
