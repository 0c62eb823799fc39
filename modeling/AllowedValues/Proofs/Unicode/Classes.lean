import AllowedValues.Argument.Lexeme
import AllowedValues.Identifier
import AllowedValues.Unicode.WhiteSpace
import Mathlib.Data.List.Basic

/-!
Classes of characters that both readings of a text rely on. Word characters, which are those of
identifiers and the dot, are neither white space nor any mark that begins a literal, a comment, a
bracket or a list element.
-/

namespace AllowedValues

namespace Unicode

theorem exists_range_of_inRanges {ranges : List (Nat × Nat)} {n : Nat}
    (h : inRanges ranges n = true) : ∃ r ∈ ranges, r.1 ≤ n ∧ n ≤ r.2 := by
  induction ranges with
  | nil => simp [inRanges] at h
  | cons r ranges ih =>
      simp only [inRanges, Bool.and_eq_true, Bool.or_eq_true, decide_eq_true_eq] at h
      rcases h with ⟨hlow, hhigh | hrest⟩
      · exact ⟨r, by simp, hlow, hhigh⟩
      · obtain ⟨r', hr', hbounds⟩ := ih hrest
        exact ⟨r', by simp [hr'], hbounds⟩

/-- The ranges of one table miss those of another if every code point of the first does. -/
theorem not_inRanges_of_inRanges {ranges : List (Nat × Nat)} (others : List (Nat × Nat))
    {n : Nat} (hmiss : ∀ r ∈ ranges, ∀ k ≤ r.2 - r.1, inRanges others (r.1 + k) = false)
    (h : inRanges ranges n = true) : inRanges others n = false := by
  obtain ⟨r, hr, hlow, hhigh⟩ := exists_range_of_inRanges h
  have hn : r.1 + (n - r.1) = n := by omega
  rw [← hn]
  exact hmiss r hr _ (by omega)

set_option maxRecDepth 20000 in
theorem whiteSpace_miss_alphabetic :
    ∀ r ∈ whiteSpaceRanges, ∀ k ≤ r.2 - r.1, inRanges alphabeticRanges (r.1 + k) = false := by
  decide +kernel

set_option maxRecDepth 20000 in
theorem whiteSpace_miss_numeric :
    ∀ r ∈ whiteSpaceRanges, ∀ k ≤ r.2 - r.1, inRanges numericRanges (r.1 + k) = false := by
  decide +kernel

theorem toNat_of_isAlpha {c : Char} (h : c.isAlpha = true) :
    inRanges [(65, 90), (97, 122)] c.toNat = true := by
  change (decide (c.val ≥ 'A'.val ∧ c.val ≤ 'Z'.val) ||
    decide (c.val ≥ 'a'.val) && decide (c.val ≤ 'z'.val)) = true at h
  simp only [Bool.or_eq_true, Bool.and_eq_true, decide_eq_true_eq, ge_iff_le,
    UInt32.le_iff_toNat_le] at h
  simp only [inRanges, Bool.or_false, Bool.and_eq_true, Bool.or_eq_true, decide_eq_true_eq]
  change (65 ≤ c.toNat ∧ c.toNat ≤ 90) ∨ (97 ≤ c.toNat ∧ c.toNat ≤ 122) at h
  omega

theorem toNat_of_isDigit {c : Char} (h : c.isDigit = true) :
    inRanges [(48, 57)] c.toNat = true := by
  simp only [Char.isDigit, Bool.and_eq_true, decide_eq_true_eq, ge_iff_le,
    UInt32.le_iff_toNat_le] at h
  simp only [inRanges, Bool.or_false, Bool.and_eq_true, decide_eq_true_eq]
  exact h

theorem isAlphabetic_of_isWhiteSpace {c : Char} (h : isWhiteSpace c = true) :
    isAlphabetic c = false := by
  rw [isAlphabetic, Bool.or_eq_false_iff]
  refine ⟨?_, not_inRanges_of_inRanges _ whiteSpace_miss_alphabetic h⟩
  rw [Bool.eq_false_iff]
  intro halpha
  have hmiss := not_inRanges_of_inRanges [(65, 90), (97, 122)] (by decide) h
  rw [toNat_of_isAlpha halpha] at hmiss
  exact absurd hmiss (by decide)

theorem isNumeric_of_isWhiteSpace {c : Char} (h : isWhiteSpace c = true) :
    isNumeric c = false := by
  rw [isNumeric, Bool.or_eq_false_iff]
  refine ⟨?_, not_inRanges_of_inRanges _ whiteSpace_miss_numeric h⟩
  rw [Bool.eq_false_iff]
  intro hdigit
  have hmiss := not_inRanges_of_inRanges [(48, 57)] (by decide) h
  rw [toNat_of_isDigit hdigit] at hmiss
  exact absurd hmiss (by decide)

theorem isAlphabetic_of_isDigit {c : Char} (h : c.isDigit = true) : isAlphabetic c = false := by
  have hdigit := toNat_of_isDigit h
  rw [isAlphabetic, Bool.or_eq_false_iff]
  refine ⟨?_, not_inRanges_of_inRanges _ (by decide) hdigit⟩
  rw [Bool.eq_false_iff]
  intro halpha
  have hmiss := not_inRanges_of_inRanges [(65, 90), (97, 122)] (by decide) hdigit
  rw [toNat_of_isAlpha halpha] at hmiss
  exact absurd hmiss (by decide)

end Unicode

open Argument.Lexeme (isBlank isNameStart isNamePart)

theorem isIdentifierPart_of_isIdentifierStart {c : Char} (h : isIdentifierStart c = true) :
    isIdentifierPart c = true := by
  rw [isIdentifierStart] at h
  rw [isIdentifierPart, h, Bool.true_or]

theorem isIdentifierPart_of_isDigit {c : Char} (h : c.isDigit = true) :
    isIdentifierPart c = true := by
  simp [isIdentifierPart, Unicode.isNumeric, h]

theorem isIdentifierStart_of_isDigit {c : Char} (h : c.isDigit = true) :
    isIdentifierStart c = false := by
  have hline : c ≠ '_' := by
    rintro rfl
    exact absurd h (by decide)
  rw [isIdentifierStart, Unicode.isAlphabetic_of_isDigit h, Bool.or_false, decide_eq_false hline]

/-- A character of identifiers, or a dot. -/
def isWordPart (c : Char) : Bool := isIdentifierPart c || c = '.'

theorem isWordPart_of_isIdentifierPart {c : Char} (h : isIdentifierPart c = true) :
    isWordPart c = true := by
  rw [isWordPart, h, Bool.true_or]

theorem isWordPart_of_isNamePart {c : Char} (h : isNamePart c = true) : isWordPart c = true := by
  simp only [isNamePart, Char.isAlphanum, Bool.or_eq_true, decide_eq_true_eq] at h
  simp only [isWordPart, isIdentifierPart, Unicode.isAlphabetic, Unicode.isNumeric,
    Bool.or_eq_true, decide_eq_true_eq]
  tauto

theorem isNamePart_of_isNameStart {c : Char} (h : isNameStart c = true) : isNamePart c = true := by
  simp only [isNameStart, Bool.or_eq_true, decide_eq_true_eq] at h
  simp only [isNamePart, Char.isAlphanum, Bool.or_eq_true, decide_eq_true_eq]
  tauto

theorem isNameStart_of_isDigit {c : Char} (h : c.isDigit = true) : isNameStart c = false := by
  have hstart := isIdentifierStart_of_isDigit h
  simp only [isIdentifierStart, Unicode.isAlphabetic, Bool.or_eq_false_iff] at hstart
  rw [isNameStart, hstart.1, hstart.2.1, Bool.or_false]

theorem isWhiteSpace_of_isBlank {c : Char} (h : isBlank c = true) :
    Unicode.isWhiteSpace c = true := by
  simp only [isBlank, Bool.or_eq_true, decide_eq_true_eq] at h
  obtain (((rfl | rfl) | rfl) | rfl) | rfl := h <;> decide

theorem isWhiteSpace_of_isWordPart {c : Char} (h : isWordPart c = true) :
    Unicode.isWhiteSpace c = false := by
  rw [Bool.eq_false_iff]
  intro hspace
  simp only [isWordPart, isIdentifierPart, Unicode.isAlphabetic_of_isWhiteSpace hspace,
    Unicode.isNumeric_of_isWhiteSpace hspace, Bool.or_false, Bool.or_eq_true,
    decide_eq_true_eq] at h
  rcases h with rfl | rfl <;> exact absurd hspace (by decide)

theorem ne_of_isWordPart {c d : Char} (hc : isWordPart c = true) (hd : isWordPart d = false) :
    c ≠ d := by
  rintro rfl
  rw [hc] at hd
  exact absurd hd (by decide)

end AllowedValues
