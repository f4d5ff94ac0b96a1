import Mathlib.Algebra.Group.Nat.Defs
import Mathlib.Data.List.Infix

/-! # Text: splitting, searching, unsigned decimals

The fragment of string processing that topic handling needs, with the behaviour of the Rust standard
library: `split` never drops an empty piece, `parseUnsigned` takes an optional `+` and refuses
everything that is not a decimal below the bound. Printing a number and parsing it back is the
identity (`parseUnsigned_toString`). -/

namespace Virtmcu

open List

/-! ## Splitting -/

/-- Split at every occurrence of `c`: `k` separators give `k + 1` pieces, some possibly empty. -/
def splitList (c : Char) : List Char → List (List Char)
  | [] => [[]]
  | x :: xs =>
      if x = c then [] :: splitList c xs
      else match splitList c xs with
        | [] => [[x]]
        | piece :: pieces => (x :: piece) :: pieces

/-- `s.split(c)`. -/
def split (c : Char) (s : String) : List String := (splitList c s.toList).map String.ofList

variable {c : Char}

/-- Text without the separator is one piece. -/
theorem splitList_of_not_mem {l : List Char} (h : c ∉ l) : splitList c l = [l] := by
  induction l with
  | nil => rfl
  | cons x xs ih =>
    rw [mem_cons, not_or] at h
    simp [splitList, Ne.symm h.1, ih h.2]

/-- The piece before the first separator comes first. -/
theorem splitList_append_cons {l : List Char} (h : c ∉ l) (r : List Char) :
    splitList c (l ++ c :: r) = l :: splitList c r := by
  induction l with
  | nil => simp [splitList]
  | cons x xs ih =>
    rw [mem_cons, not_or] at h
    simp [splitList, Ne.symm h.1, ih h.2]

theorem splitList_ne_nil (c : Char) (l : List Char) : splitList c l ≠ [] := by
  cases l with
  | nil => exact cons_ne_nil _ _
  | cons x xs =>
    rw [splitList]
    split
    · exact cons_ne_nil _ _
    · split <;> exact cons_ne_nil _ _

/-- The pieces on both sides of a separator. -/
theorem splitList_append (c : Char) (l r : List Char) :
    splitList c (l ++ c :: r) = splitList c l ++ splitList c r := by
  induction l with
  | nil => simp [splitList]
  | cons x xs ih =>
    by_cases hx : x = c
    · simp [splitList, hx, ih]
    · have hne := splitList_ne_nil c xs
      simp only [cons_append, splitList, hx, if_false, ih]
      cases h : splitList c xs with
      | nil => exact absurd h hne
      | cons piece pieces => rfl

/-- Joining the pieces gives the text back. -/
theorem intercalate_splitList (c : Char) (l : List Char) : intercalate [c] (splitList c l) = l := by
  induction l with
  | nil => rfl
  | cons x xs ih =>
    have hne := splitList_ne_nil c xs
    cases h : splitList c xs with
    | nil => exact absurd h hne
    | cons piece pieces =>
      rw [h] at ih
      by_cases hx : x = c
      · simp only [splitList, hx, if_true, h, intercalate_cons_cons, ih, nil_append, singleton_append]
      · simp only [splitList, hx, if_false, h]
        cases pieces with
        | nil => simpa using ih
        | cons piece' pieces =>
          rw [intercalate_cons_cons] at ih ⊢
          rw [← ih]
          rfl

theorem split_append (c : Char) (s t : String) (sep : String) (hsep : sep.toList = [c]) :
    split c (s ++ sep ++ t) = split c s ++ split c t := by
  unfold split
  rw [String.toList_append, String.toList_append, hsep, append_assoc, singleton_append,
    splitList_append, map_append]

theorem split_ne_nil (c : Char) (s : String) : split c s ≠ [] := by
  unfold split
  rw [Ne, map_eq_nil_iff]
  exact splitList_ne_nil c s.toList

/-- Joining what was split. -/
theorem intercalate_split (c : Char) (s : String) (sep : String) (hsep : sep.toList = [c]) :
    String.intercalate sep (split c s) = s := by
  apply String.toList_injective
  rw [String.toList_intercalate, split, map_map, hsep]
  have hid : String.toList ∘ String.ofList = id := by
    funext l
    exact String.toList_ofList
  rw [hid, map_id, intercalate_splitList]

/-! ## Searching -/

/-- `s.contains(pat)`. -/
def containsStr (s pat : String) : Bool := decide (pat.toList <:+: s.toList)

/-- `s.starts_with(pat)`. -/
def startsWithStr (s pat : String) : Bool := decide (pat.toList <+: s.toList)

/-- A text that starts with another goes on behind it. -/
theorem startsWithStr_iff {s pat : String} : startsWithStr s pat = true ↔ ∃ more, s = pat ++ more := by
  unfold startsWithStr
  rw [decide_eq_true_iff]
  constructor
  · rintro ⟨more, hmore⟩
    refine ⟨String.ofList more, String.toList_injective ?_⟩
    rw [String.toList_append, String.toList_ofList, hmore]
  · rintro ⟨more, rfl⟩
    rw [String.toList_append]
    exact prefix_append _ _

/-- Text without the separator that occurs around a separator occurs on one of its sides. -/
theorem infix_append_cons_iff {pat l r : List Char} (hc : c ∉ pat) (hne : pat ≠ []) :
    pat <:+: l ++ c :: r ↔ pat <:+: l ∨ pat <:+: r := by
  constructor
  · intro h
    rcases infix_append_iff.mp h with h | h | ⟨p₁, p₂, rfl, hleft, hright⟩
    · exact .inl h
    · -- inside `c :: r`, and not at its head
      rcases infix_cons_iff.mp h with hhead | h
      · cases pat with
        | nil => exact absurd rfl hne
        | cons x pat =>
          rw [cons_prefix_cons] at hhead
          exact absurd (hhead.1 ▸ mem_cons_self) hc
      · exact .inr h
    · -- across the separator: then nothing of it reaches the right side
      cases p₂ with
      | nil =>
        rw [append_nil]
        exact .inl hleft.isInfix
      | cons x p₂ =>
        rw [cons_prefix_cons] at hright
        exact absurd (mem_append_right _ (hright.1 ▸ mem_cons_self)) hc
  · rintro (h | h)
    · exact h.trans (prefix_append l _).isInfix
    · exact h.trans ((suffix_cons c r).trans (suffix_append l _)).isInfix

/-- Text whose last character does not occur in `r` occurs in `l ++ r` only inside `l`. -/
theorem infix_of_infix_append {a : Char} {pat l r : List Char} (ha : a ∉ r)
    (h : pat ++ [a] <:+: l ++ r) : pat ++ [a] <:+: l := by
  rcases infix_append_iff.mp h with h | h | ⟨p₁, p₂, heq, hleft, hright⟩
  · exact h
  · exact absurd (h.subset (mem_append_right _ (mem_singleton_self a))) ha
  · rcases eq_nil_or_concat p₂ with rfl | ⟨q, b, rfl⟩
    · rw [heq, append_nil]
      exact hleft.isInfix
    · rw [concat_eq_append] at heq hright
      rw [← append_assoc] at heq
      have hlast := (append_inj' heq rfl).2
      rw [singleton_inj.mp hlast] at ha
      exact absurd (hright.subset (mem_append_right _ (mem_singleton_self b))) ha

/-- Two words that stand at a place of one text and at a place of another, with nothing else to tell
the texts apart, stand at the same place. -/
theorem append_cons_inj_of_ne {α : Type*} {a b : α} {l₁ l₂ r₁ r₂ : List α} (hab : a ≠ b)
    (ha : l₁ ++ a :: r₁ = l₂ ++ a :: r₂) (hb : l₁ ++ b :: r₁ = l₂ ++ b :: r₂) : r₁ = r₂ := by
  have hlen : l₁.length = l₂.length := by
    by_contra hne
    have ha' : (l₂ ++ a :: r₂)[l₁.length]? = some a := by simp [← ha]
    have hb' : (l₂ ++ b :: r₂)[l₁.length]? = some b := by simp [← hb]
    -- away from the end of `l₂` the two right sides have the same element
    have hsame : (l₂ ++ a :: r₂)[l₁.length]? = (l₂ ++ b :: r₂)[l₁.length]? := by
      rcases Nat.lt_or_gt_of_ne hne with hlt | hgt
      · rw [getElem?_append_left hlt, getElem?_append_left hlt]
      · obtain ⟨k, hk⟩ := Nat.exists_eq_add_of_lt hgt
        rw [getElem?_append_right hgt.le, getElem?_append_right hgt.le,
          show l₁.length - l₂.length = k + 1 by omega, getElem?_cons_succ,
          getElem?_cons_succ]
    rw [ha', hb'] at hsame
    exact hab (Option.some.inj hsame)
  exact (List.cons.inj (append_inj ha hlen).2).2

/-! ## Unsigned decimals -/

/-- The characters after an optional leading `+`. -/
def stripPlus : List Char → List Char
  | '+' :: rest => rest
  | cs => cs

/-- `s.parse()` for an unsigned type with the given number of values. -/
def parseUnsigned (bound : Nat) (s : String) : Option Nat :=
  let digits := stripPlus s.toList
  let value := Nat.ofDigitChars 10 digits 0
  if digits ≠ [] ∧ digits.all Char.isDigit ∧ value < bound then some value else none

/-- `s.parse::<u32>().ok()`. -/
def parseU32 (s : String) : Option UInt32 := (parseUnsigned (2 ^ 32) s).map UInt32.ofNat

/-- `s.parse::<u64>().ok()`. -/
def parseU64 (s : String) : Option UInt64 := (parseUnsigned (2 ^ 64) s).map UInt64.ofNat

theorem toList_toString_nat (n : Nat) : (toString n).toList = Nat.toDigits 10 n := by
  rw [Nat.toString_eq_repr, Nat.toList_repr]

/-- The characters of a printed number are digits. -/
theorem isDigit_of_mem_toString {n : Nat} (h : c ∈ (toString n).toList) : c.isDigit = true := by
  rw [toList_toString_nat] at h
  exact Nat.isDigit_of_mem_toDigits (by decide) (by decide) h

theorem toString_nat_toList_ne_nil (n : Nat) : (toString n).toList ≠ [] := by
  rw [toList_toString_nat]
  exact Nat.toDigits_ne_nil

/-- A character that is not a digit does not occur in a printed number. -/
theorem not_mem_toString {n : Nat} (hc : c.isDigit = false) : c ∉ (toString n).toList := by
  intro h
  rw [isDigit_of_mem_toString h] at hc
  exact absurd hc (by decide)

/-- Different numbers print differently. -/
theorem toString_nat_injective {m n : Nat} (h : toString m = toString n) : m = n := by
  have hdigits : Nat.toDigits 10 m = Nat.toDigits 10 n := by
    rw [← toList_toString_nat, ← toList_toString_nat, h]
  have hvalue := congrArg (fun ds => Nat.ofDigitChars 10 ds 0) hdigits
  simpa using hvalue

/-- **Round trip**: a printed number below the bound parses back to itself. -/
theorem parseUnsigned_toString {bound n : Nat} (h : n < bound) :
    parseUnsigned bound (toString n) = some n := by
  -- a printed number has no sign to strip
  have hstrip : stripPlus (toString n).toList = Nat.toDigits 10 n := by
    rw [← toList_toString_nat]
    unfold stripPlus
    split
    · rename_i rest heq
      have hplus : '+' ∈ (toString n).toList := by
        rw [heq]
        exact mem_cons_self
      exact absurd hplus (not_mem_toString (by decide))
    · rfl
  have hall : (Nat.toDigits 10 n).all Char.isDigit = true := by
    rw [all_eq_true]
    intro c hc
    exact Nat.isDigit_of_mem_toDigits (by decide) (by decide) hc
  simp only [parseUnsigned, hstrip, Nat.ofDigitChars_ten_toDigits]
  rw [if_pos ⟨Nat.toDigits_ne_nil, hall, h⟩]

end Virtmcu
