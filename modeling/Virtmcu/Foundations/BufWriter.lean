import Mathlib.Tactic.Common

/-! # Buffered writers

A writer that holds back what is written until its buffer is full or flushed. What was written is
`content`; a reader of the file sees `file` only, which is the content exactly if the buffer is empty. -/

namespace Virtmcu

/-- A file, and what waits to be written to it. -/
structure BufWriter (α : Type*) where
  file : List α := []
  buf : List α := []

namespace BufWriter

variable {α : Type*}

/-- Everything that was written. -/
def content (w : BufWriter α) : List α := w.file ++ w.buf

def flush (w : BufWriter α) : BufWriter α := ⟨w.file ++ w.buf, []⟩

/-- `write_all`: what does not fit has the buffer flushed, and what is as large as the buffer goes past
it. -/
def writeAll (capacity : ℕ) (w : BufWriter α) (bytes : List α) : BufWriter α :=
  if bytes.length < capacity - w.buf.length then { w with buf := w.buf ++ bytes }
  else
    let w := if capacity - w.buf.length < bytes.length then w.flush else w
    if capacity ≤ bytes.length then { w with file := w.file ++ bytes } else { w with buf := w.buf ++ bytes }

variable {capacity : ℕ} {w : BufWriter α} {bytes : List α}

theorem content_writeAll : (w.writeAll capacity bytes).content = w.content ++ bytes := by
  unfold writeAll
  split
  · exact (List.append_assoc ..).symm
  · rename_i hfull
    split
    · split <;> simp [content, flush]
    · rename_i hfit
      split
      · -- it fills a whole buffer and just fits, so there is nothing in it
        rename_i hlarge
        have hnil : w.buf = [] ∨ bytes = [] := by
          simp only [← List.length_eq_zero_iff]
          omega
        rcases hnil with h | h <;> simp [content, h]
      · exact (List.append_assoc ..).symm

theorem content_foldl_writeAll (pieces : List (List α)) (w : BufWriter α) :
    (pieces.foldl (writeAll capacity) w).content = w.content ++ pieces.flatten := by
  induction pieces generalizing w with
  | nil => simp
  | cons piece pieces ih => simp [ih, content_writeAll]

/-- When nothing is held back after a write. -/
theorem writeAll_buf_eq_nil_iff (hcapacity : 0 < capacity) :
    (w.writeAll capacity bytes).buf = [] ↔ capacity ≤ bytes.length ∨ bytes = [] ∧ w.buf = [] := by
  rw [writeAll, ← List.length_eq_zero_iff, ← List.length_eq_zero_iff, ← List.length_eq_zero_iff]
  split
  · rw [List.length_append]
    omega
  · split <;> split <;> simp only [flush, List.length_append, List.length_nil, true_iff] <;> omega

end BufWriter

end Virtmcu
