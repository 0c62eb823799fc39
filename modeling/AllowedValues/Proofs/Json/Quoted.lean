import AllowedValues.Json.Quoted
import AllowedValues.Json.Token
import Mathlib.Tactic.SplitIfs

/-!
Quoted text and the marks of a document as tokens. A quoted text is a string token that holds the
text again: every escape is read as the character that it is written for, and the code points of
characters are no surrogates.
-/

namespace AllowedValues.Json

/-- A text that is read as these tokens, whatever comes after it. -/
def Lexes (s : Text) (ts : List Token) : Prop := ∀ rest, tokens (s ++ rest) = ts ++ tokens rest

theorem Lexes.append {s s' : Text} {ts ts' : List Token} (h : Lexes s ts) (h' : Lexes s' ts') :
    Lexes (s ++ s') (ts ++ ts') := by
  intro rest
  rw [List.append_assoc, h, h', List.append_assoc]

theorem Lexes.cons {c : Char} {s : Text} {t : Token} {ts : List Token} (h : Lexes [c] [t])
    (h' : Lexes s ts) : Lexes (c :: s) (t :: ts) := h.append h'

namespace Token

theorem not_isSurrogate (c : Char) : isLead c.toNat = false ∧ isTrail c.toNat = false := by
  have hvalid : c.toNat < 0xD800 ∨ 0xDFFF < c.toNat ∧ c.toNat < 0x110000 := c.valid
  simp only [isLead, isTrail, Bool.and_eq_false_iff, decide_eq_false_iff_not]
  omega

theorem textOfUnits?_map_toNat (s : Text) : textOfUnits? (s.map Char.toNat) = some s := by
  induction s with
  | nil => rfl
  | cons c s ih =>
      obtain ⟨hlead, htrail⟩ := not_isSurrogate c
      cases s with
      | nil => simp [textOfUnits?, hlead, htrail]
      | cons d s =>
          rw [List.map_cons] at ih
          rw [List.map_cons, List.map_cons, textOfUnits?, if_neg (by simp [hlead]),
            if_neg (by simp [htrail]), ih, Option.map_some, Char.ofNat_toNat]

/-- How a character is written in a string: by a letter after a backslash, by its four digits, or
as it is. -/
theorem quotedChar_cases (c : Char) :
    (∃ d, letterEscape? d = some c ∧ quotedChar c = ['\\', d]) ∨
      (c.toNat < 32 ∧ quotedChar c = '\\' :: 'u' :: Text.zeroPadded 4 (Text.hexadecimal c.toNat)) ∨
      (c ≠ '"' ∧ c ≠ '\\' ∧ 32 ≤ c.toNat ∧ quotedChar c = [c]) := by
  rw [quotedChar]
  split_ifs with hmark hback hfeed hnewline hreturn htab hcontrol
  · rcases hmark with rfl | rfl
    · exact .inl ⟨'"', rfl, rfl⟩
    · exact .inl ⟨'\\', rfl, rfl⟩
  · exact .inl ⟨'b', congrArg some hback.symm, rfl⟩
  · exact .inl ⟨'f', congrArg some hfeed.symm, rfl⟩
  · exact .inl ⟨'n', congrArg some hnewline.symm, rfl⟩
  · exact .inl ⟨'r', congrArg some hreturn.symm, rfl⟩
  · exact .inl ⟨'t', congrArg some htab.symm, rfl⟩
  · exact .inr (.inl ⟨hcontrol, rfl⟩)
  · rw [not_or] at hmark
    exact .inr (.inr ⟨hmark.1, hmark.2, Nat.le_of_not_lt hcontrol, rfl⟩)

/-- The four digits of a control character spell its code point. -/
theorem exists_fourDigits {n : Nat} (h : n < 32) : ∃ a b c d,
    Text.zeroPadded 4 (Text.hexadecimal n) = [a, b, c, d] ∧
      ∀ rest, fourDigits? (a :: b :: c :: d :: rest) = some n := by
  have hwritten : ∀ k < 32, Text.zeroPadded 4 (Text.hexadecimal k) =
      ['0', '0', Nat.digitChar (k / 16), Nat.digitChar (k % 16)] := by decide
  have hdigit : ∀ k < 16, digitValue? 16 (Nat.digitChar k) = some k := by decide
  refine ⟨_, _, _, _, hwritten n h, fun rest => ?_⟩
  rw [fourDigits?, show digitValue? 16 '0' = some 0 from rfl, hdigit (n / 16) (by omega),
    hdigit (n % 16) (by omega)]
  simp only [Option.bind_eq_bind, Option.bind_some, Option.some.injEq]
  omega

section Units

variable {c d e : Char} {n : Nat}

theorem stringUnits?_quote (s : Text) : stringUnits? ('"' :: s) = some ([], 1) := by
  rw [stringUnits?.eq_def]
  rfl

theorem stringUnits?_plain (hquote : c ≠ '"') (hcontrol : 32 ≤ c.toNat) (hslash : c ≠ '\\')
    (s : Text) : stringUnits? (c :: s) =
      (stringUnits? s).map fun (units, n) => (c.toNat :: units, n + 1) := by
  rw [stringUnits?.eq_def]
  simp [hquote, Nat.not_lt.2 hcontrol, hslash]

theorem stringUnits?_letter (h : letterEscape? d = some e) (s : Text) :
    stringUnits? ('\\' :: d :: s) =
      (stringUnits? s).map fun (units, n) => (e.toNat :: units, n + 2) := by
  have hd : d ≠ 'u' := by
    rintro rfl
    cases h
  rw [stringUnits?.eq_def]
  simp [hd, h]

theorem stringUnits?_digits {s : Text} (h : fourDigits? s = some n) :
    stringUnits? ('\\' :: 'u' :: s) =
      (stringUnits? (s.drop 4)).map fun (units, m) => (n :: units, m + 6) := by
  rw [stringUnits?.eq_def]
  simp [h]

theorem stringUnits?_quotedChar (c : Char) (rest : Text) :
    stringUnits? (quotedChar c ++ rest) = (stringUnits? rest).map fun (units, n) =>
      (c.toNat :: units, n + (quotedChar c).length) := by
  rcases quotedChar_cases c with ⟨d, hd, hc⟩ | ⟨hcontrol, hc⟩ | ⟨hquote, hslash, hprintable, hc⟩
  · rw [hc]
    exact stringUnits?_letter hd rest
  · obtain ⟨a, b, a', b', hdigits, hread⟩ := exists_fourDigits hcontrol
    rw [hc, hdigits]
    exact stringUnits?_digits (hread rest)
  · rw [hc]
    exact stringUnits?_plain hquote hprintable hslash rest

theorem stringUnits?_flatMap_quotedChar (s rest : Text) :
    stringUnits? (s.flatMap quotedChar ++ '"' :: rest) =
      some (s.map Char.toNat, (s.flatMap quotedChar).length + 1) := by
  induction s with
  | nil => exact stringUnits?_quote rest
  | cons c s ih =>
      rw [List.flatMap_cons, List.append_assoc, stringUnits?_quotedChar, ih, Option.map_some,
        List.length_append, List.map_cons]
      simp only [Option.some.injEq, Prod.mk.injEq, true_and]
      omega

end Units

end Token

theorem lexes_quoted (s : Text) : Lexes (quoted s) [.string (some s)] := by
  intro rest
  rw [quoted, List.cons_append, List.cons_append, List.append_assoc, List.singleton_append, tokens,
    if_neg (by decide), Token.reach?]
  have hquote : Token.ofChar? '"' = none := rfl
  simp only [hquote, if_true, Token.stringUnits?_flatMap_quotedChar, Option.map_some,
    Token.textOfUnits?_map_toNat, List.drop_length_add_append]
  rfl

theorem lexes_null : Lexes "null".toList [.null] := by
  intro rest
  have hreach : Token.reach? 'n' ('u' :: 'l' :: 'l' :: rest) = some (.null, 3) := by
    simp [Token.reach?, Token.ofChar?, Token.names]
  change tokens ('n' :: 'u' :: 'l' :: 'l' :: rest) = _
  rw [tokens, if_neg (by decide), hreach]
  rfl

theorem lexes_mark {c : Char} {t : Token} (h : Token.ofChar? c = some t) : Lexes [c] [t] := by
  intro rest
  have hblank : ¬ Token.isBlank c = true := by
    unfold Token.ofChar? at h
    split at h <;> first | decide | cases h
  rw [List.singleton_append, tokens, if_neg hblank, Token.reach?, h]
  rfl

theorem tokens_of_blanks {s : Text} (h : ∀ c ∈ s, Token.isBlank c = true) : tokens s = [] := by
  induction s with
  | nil => rw [tokens]
  | cons c s ih =>
      rw [tokens, if_pos (h c List.mem_cons_self)]
      exact ih fun d hd => h d (List.mem_cons_of_mem c hd)

end AllowedValues.Json
