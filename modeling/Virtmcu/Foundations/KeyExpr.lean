import Virtmcu.Foundations.Text

/-! # Key expressions

Patterns over paths of chunks: a chunk of a pattern is a verbatim chunk, `*` for exactly one chunk, or
`**` for any number of chunks. `keyApart` compares two patterns from the left and finds a place where
they ask for different verbatim chunks; patterns that are apart match no path in common. -/

namespace Virtmcu

/-- A chunk of a pattern. -/
inductive KeyChunk (α : Type*)
  | verbatim (chunk : α)
  | star
  | doubleStar
  deriving DecidableEq

variable {α : Type*} [DecidableEq α]

/-- The pattern matches the path. -/
def keyMatches : List (KeyChunk α) → List α → Bool
  | [], path => path.isEmpty
  | .verbatim chunk :: pat, x :: path => chunk = x && keyMatches pat path
  | .star :: pat, _ :: path => keyMatches pat path
  | .doubleStar :: pat, path => path.tails.any (keyMatches pat)
  | _ :: _, [] => false

/-- The patterns differ in a verbatim chunk before the first `**` of either. -/
def keyApart : List (KeyChunk α) → List (KeyChunk α) → Bool
  | .verbatim a :: pat, .verbatim b :: pat' => a ≠ b || keyApart pat pat'
  | .verbatim _ :: pat, .star :: pat' => keyApart pat pat'
  | .star :: pat, .verbatim _ :: pat' => keyApart pat pat'
  | .star :: pat, .star :: pat' => keyApart pat pat'
  | _, _ => false

/-- Patterns that are apart have no path in common. -/
theorem not_keyMatches_of_keyApart {pat pat' : List (KeyChunk α)} (h : keyApart pat pat' = true)
    (path : List α) : ¬ (keyMatches pat path = true ∧ keyMatches pat' path = true) := by
  induction pat generalizing pat' path with
  | nil => simp [keyApart] at h
  | cons p pat ih =>
    cases pat' with
    | nil => cases p <;> simp [keyApart] at h
    | cons p' pat' =>
      -- only a step over one chunk on both sides leaves anything to compare
      cases path with
      | nil => cases p <;> cases p' <;> simp_all [keyApart, keyMatches]
      | cons x path =>
        cases p with
        | verbatim a =>
          cases p' with
          | verbatim b =>
            simp only [keyApart, Bool.or_eq_true, decide_eq_true_eq] at h
            simp only [keyMatches, Bool.and_eq_true, decide_eq_true_eq]
            rintro ⟨⟨rfl, hpat⟩, rfl, hpat'⟩
            exact ih (h.resolve_left fun hne => hne rfl) path ⟨hpat, hpat'⟩
          | star =>
            simp only [keyMatches, Bool.and_eq_true]
            rintro ⟨⟨-, hpat⟩, hpat'⟩
            exact ih h path ⟨hpat, hpat'⟩
          | doubleStar => simp [keyApart] at h
        | star =>
          cases p' with
          | verbatim b =>
            simp only [keyMatches, Bool.and_eq_true]
            rintro ⟨hpat, -, hpat'⟩
            exact ih h path ⟨hpat, hpat'⟩
          | star =>
            simp only [keyMatches]
            exact ih h path
          | doubleStar => simp [keyApart] at h
        | doubleStar => simp [keyApart] at h

/-- Of patterns that are pairwise apart at most one matches. -/
theorem length_filter_keyMatches_le_one {β : Type*} {pattern : β → List (KeyChunk α)} {l : List β}
    (h : l.Pairwise fun b b' => keyApart (pattern b) (pattern b') = true) (path : List α) :
    (l.filter fun b => keyMatches (pattern b) path).length ≤ 1 := by
  induction l with
  | nil => simp
  | cons b l ih =>
    rw [List.pairwise_cons] at h
    by_cases hb : keyMatches (pattern b) path = true
    · -- the first one matches, so none of the others does
      have hnone : l.filter (fun b' => keyMatches (pattern b') path) = [] := by
        rw [List.filter_eq_nil_iff]
        intro b' hb' hmatch
        exact not_keyMatches_of_keyApart (h.1 b' hb') path ⟨hb, hmatch⟩
      simp [hb, hnone]
    · simpa [hb] using ih h.2

/-- A key expression as a pattern. -/
def keyExpr (s : String) : List (KeyChunk String) :=
  (split '/' s).map fun chunk =>
    if chunk = "*" then .star else if chunk = "**" then .doubleStar else .verbatim chunk

/-- `s` is a topic the key expression matches. -/
def keyExprMatches (expr topic : String) : Bool := keyMatches (keyExpr expr) (split '/' topic)

end Virtmcu
