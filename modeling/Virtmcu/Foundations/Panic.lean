import Mathlib.Algebra.Group.Int.Defs
import Mathlib.Algebra.Group.Nat.Defs
import Mathlib.Data.List.Basic

/-! # Operations that may panic

A slice, a copy, an assignment or an insertion outside its list, a sum or a difference outside its
integer type and a loop with such operations in its body, as `Option` computations in which `none` is the
panic. Each comes with the condition under which it is the plain operation, so that a reader of the
panicking version ends at the plain one. -/

namespace Virtmcu

variable {α β : Type*}

/-! ## Slices -/

/-- `xs[a..b]`. -/
def slice (xs : List α) (a b : ℕ) : Option (List α) :=
  if a ≤ b ∧ b ≤ xs.length then some ((xs.drop a).take (b - a)) else none

/-- A slice in range. -/
theorem slice_eq_some {xs : List α} {a b : ℕ} (hab : a ≤ b) (hb : b ≤ xs.length) :
    slice xs a b = some ((xs.drop a).take (b - a)) :=
  if_pos ⟨hab, hb⟩

/-- A slice from the start on. -/
theorem slice_zero {xs : List α} {b : ℕ} (hb : b ≤ xs.length) : slice xs 0 b = some (xs.take b) := by
  rw [slice_eq_some (Nat.zero_le b) hb, List.drop_zero, Nat.sub_zero]

/-- `xs.drain(..b)`: what is left of the list. -/
def drainFront (xs : List α) (b : ℕ) : Option (List α) :=
  if b ≤ xs.length then some (xs.drop b) else none

theorem drainFront_eq_some {xs : List α} {b : ℕ} (hb : b ≤ xs.length) :
    drainFront xs b = some (xs.drop b) :=
  if_pos hb

/-- `dst[..b].copy_from_slice(src)`, which asks for a source of the same length. -/
def copyFront (dst : List α) (b : ℕ) (src : List α) : Option (List α) :=
  if b ≤ dst.length ∧ src.length = b then some (src ++ dst.drop b) else none

theorem copyFront_eq_some {dst src : List α} {b : ℕ} (hb : b ≤ dst.length) (hsrc : src.length = b) :
    copyFront dst b src = some (src ++ dst.drop b) :=
  if_pos ⟨hb, hsrc⟩

/-- `xs[i] = a`. -/
def setAt (xs : List α) (i : ℕ) (a : α) : Option (List α) :=
  if i < xs.length then some (xs.set i a) else none

theorem setAt_eq_some {xs : List α} {i : ℕ} (a : α) (h : i < xs.length) :
    setAt xs i a = some (xs.set i a) :=
  if_pos h

/-- `xs.insert(i, a)`. -/
def insertAt (xs : List α) (i : ℕ) (a : α) : Option (List α) :=
  if i ≤ xs.length then some (xs.take i ++ a :: xs.drop i) else none

theorem insertAt_eq_some {xs : List α} {i : ℕ} (a : α) (h : i ≤ xs.length) :
    insertAt xs i a = some (xs.take i ++ a :: xs.drop i) :=
  if_pos h

/-- `a - b` of unsigned numbers. -/
def checkedSub (a b : ℕ) : Option ℕ := if b ≤ a then some (a - b) else none

theorem checkedSub_eq_some {a b : ℕ} (h : b ≤ a) : checkedSub a b = some (a - b) := if_pos h

/-! ## Loops -/

/-- A loop that appends what each round yields, and stops at the first round that panics. -/
def tryFlatMap (f : α → Option (List β)) : List α → Option (List β)
  | [] => some []
  | a :: l =>
      match f a with
      | none => none
      | some bs => (tryFlatMap f l).map (bs ++ ·)

/-- A loop whose rounds all succeed. -/
theorem tryFlatMap_eq_some {f : α → Option (List β)} {g : α → List β} {l : List α}
    (h : ∀ a ∈ l, f a = some (g a)) : tryFlatMap f l = some (l.flatMap g) := by
  induction l with
  | nil => rfl
  | cons a l ih =>
    have hrest := ih fun x hx => h x (List.mem_cons_of_mem a hx)
    rw [tryFlatMap, h a List.mem_cons_self, hrest]
    rfl

/-- A loop with a round that panics. -/
theorem tryFlatMap_eq_none {f : α → Option (List β)} {l : List α} {a : α} (ha : a ∈ l)
    (h : f a = none) : tryFlatMap f l = none := by
  induction l with
  | nil => cases ha
  | cons b l ih =>
    rw [tryFlatMap]
    rcases List.mem_cons.mp ha with rfl | ha
    · rw [h]
    · rw [ih ha]
      cases f b <;> rfl

/-! ## Sums and differences -/

/-- The sum of two `i64` in a build with or without overflow checks: without them it wraps around. -/
def addI64 (overflowChecks : Bool) (a b : Int64) : Option Int64 :=
  if overflowChecks ∧ ¬ (-2 ^ 63 ≤ a.toInt + b.toInt ∧ a.toInt + b.toInt < 2 ^ 63) then none
  else some (a + b)

/-- Without overflow checks a sum does not panic. -/
theorem addI64_unchecked (a b : Int64) : addI64 false a b = some (a + b) :=
  if_neg fun h => absurd h.1 Bool.false_ne_true

/-- A sum in range does not panic. -/
theorem addI64_of_mem {overflowChecks : Bool} {a b : Int64}
    (h : -2 ^ 63 ≤ a.toInt + b.toInt ∧ a.toInt + b.toInt < 2 ^ 63) :
    addI64 overflowChecks a b = some (a + b) :=
  if_neg fun hn => hn.2 h

/-- A checked sum out of range panics. -/
theorem addI64_of_not_mem {a b : Int64}
    (h : ¬ (-2 ^ 63 ≤ a.toInt + b.toInt ∧ a.toInt + b.toInt < 2 ^ 63)) : addI64 true a b = none :=
  if_pos ⟨rfl, h⟩

/-- The sum of two `u64` in such a build. -/
def addU64 (overflowChecks : Bool) (a b : UInt64) : Option UInt64 :=
  if overflowChecks ∧ ¬ a.toNat + b.toNat < 2 ^ 64 then none else some (a + b)

theorem addU64_eq_some {overflowChecks : Bool} {a b sum : UInt64}
    (h : addU64 overflowChecks a b = some sum) :
    sum = a + b ∧ (overflowChecks = true → a.toNat + b.toNat < 2 ^ 64) := by
  unfold addU64 at h
  split at h
  · cases h
  · rename_i hrange
    exact ⟨(Option.some.inj h).symm, fun hchecks => by_contra fun hn => hrange ⟨hchecks, hn⟩⟩

theorem addU64_eq_none {overflowChecks : Bool} {a b : UInt64} (h : addU64 overflowChecks a b = none) :
    overflowChecks = true ∧ 2 ^ 64 ≤ a.toNat + b.toNat := by
  unfold addU64 at h
  split at h
  · rename_i hrange
    exact ⟨hrange.1, Nat.not_lt.mp hrange.2⟩
  · cases h

/-- The difference of two `u64` in such a build. -/
def subU64 (overflowChecks : Bool) (a b : UInt64) : Option UInt64 :=
  if overflowChecks ∧ ¬ b.toNat ≤ a.toNat then none else some (a - b)

theorem subU64_of_le {overflowChecks : Bool} {a b : UInt64} (h : b.toNat ≤ a.toNat) :
    subU64 overflowChecks a b = some (a - b) :=
  if_neg fun hn => hn.2 h

theorem subU64_eq_some {overflowChecks : Bool} {a b difference : UInt64}
    (h : subU64 overflowChecks a b = some difference) :
    difference = a - b ∧ (overflowChecks = true → b.toNat ≤ a.toNat) := by
  unfold subU64 at h
  split at h
  · cases h
  · rename_i hrange
    exact ⟨(Option.some.inj h).symm, fun hchecks => by_contra fun hn => hrange ⟨hchecks, hn⟩⟩

theorem subU64_eq_none {overflowChecks : Bool} {a b : UInt64} (h : subU64 overflowChecks a b = none) :
    overflowChecks = true ∧ a.toNat < b.toNat := by
  unfold subU64 at h
  split at h
  · rename_i hrange
    exact ⟨hrange.1, Nat.not_le.mp hrange.2⟩
  · cases h

end Virtmcu
