import AllowedValues.Argument.List
import AllowedValues.Proofs.Argument.Coverage
import AllowedValues.Proofs.Literal.Fault

/-!
What decoding makes of the literals of an argument list. A lexeme ends where its last complete unit
does, so that a literal has both of its quotes, and its escapes are cut off by its end at most
while they are read digit by digit.
-/

namespace AllowedValues.Argument

open Literal (Body Unfinished Units)

/-- The classes of lexemes that may have a value. -/
def Lexeme.Class.isString : Lexeme.Class → Bool
  | .interpretedString | .rawString => true
  | _ => false

theorem Lexeme.Class.isString_ofChar (c : Char) : (Class.ofChar c).isString = false := by
  rw [Class.ofChar]
  split_ifs
  · rfl
  · rfl
  · rfl
  · split <;> rfl

theorem exists_body_of_isString {source : Text} {l : Lexeme} (h : l ∈ lexemes source)
    (hcls : l.cls.isString = true) : ∃ body,
      l.cls = .interpretedString ∧ l.text = '"' :: (body ++ ['"']) ∧ Units '"' body ∨
        l.cls = .rawString ∧ l.text = '`' :: (body ++ ['`']) ∧ '`' ∉ body := by
  obtain ⟨-, after, -, -, hread⟩ := (inTurn_lexFrom 0 source).covers.placed l h
  obtain ⟨cls, start, text⟩ := l
  cases hread with
  | unclassified _ => cases hcls
  | classified hread =>
      cases hread with
      | @quoted quote _ body _ hquote hbody =>
          simp only [quotes, List.mem_cons, List.not_mem_nil, or_false, Prod.mk.injEq] at hquote
          rcases hquote with ⟨rfl, rfl⟩ | ⟨rfl, rfl⟩
          · exact ⟨body, .inl ⟨rfl, rfl, hbody⟩⟩
          · cases hcls
      | @raw body _ hbody => exact ⟨body, .inr ⟨rfl, rfl, hbody⟩⟩
      | ident _ _ _ => cases hcls
      | number _ _ _ => cases hcls
      | @mark c _ _ _ =>
          exact absurd ((Lexeme.Class.isString_ofChar c).symm.trans hcls) (by decide)

/-- What decoding makes of the string literals of an argument list, well formed or not. A raw one
has its body for a value. An interpreted one has both quotes around complete units, so it fails at
an escape or at bytes that are no text; its end cuts an escape off exactly where the body ends while
digits are missing, and a lone backslash does not end it. -/
theorem value_of_mem_lexemes {source : Text} {l : Lexeme} (h : l ∈ lexemes source) :
    (l.cls = .rawString → ∃ body, l.text = '`' :: (body ++ ['`']) ∧
      Literal.value l.text = .ok (body.filter (· ≠ '\r'))) ∧
    (l.cls = .interpretedString → ∃ body, l.text = '"' :: (body ++ ['"']) ∧
      Literal.value l.text ≠ .error .missingQuotes ∧
      Literal.value l.text ≠ .error .rawNewline ∧
      Literal.value l.text ≠ .error .unescapedQuote ∧
      (Literal.value l.text = .error .truncatedEscape ↔ ∃ front bytes escape radix,
        body = front ++ escape ∧ Body front bytes ∧ Unfinished escape radix) ∧
      ∀ front bytes, Body front bytes → body ≠ front ++ ['\\']) := by
  refine ⟨fun hcls => ?_, fun hcls => ?_⟩
  · obtain ⟨body, ⟨hcls', -, -⟩ | ⟨-, htext, hbody⟩⟩ :=
      exists_body_of_isString h (by rw [hcls]; rfl)
    · cases hcls.symm.trans hcls'
    · exact ⟨body, htext, by rw [htext, (Literal.Spells.raw hbody).value_eq]⟩
  · obtain ⟨body, ⟨-, htext, hbody⟩ | ⟨hcls', -, -⟩⟩ :=
      exists_body_of_isString h (by rw [hcls]; rfl)
    · rw [htext]
      exact ⟨body, rfl, Literal.value_ne_error hbody (by simp),
        Literal.value_ne_error hbody (by simp), Literal.value_ne_error hbody (by simp),
        Literal.value_eq_truncatedEscape_iff hbody,
        fun front bytes hfront => Literal.ne_append_backslash hbody hfront⟩
    · cases hcls.symm.trans hcls'

/-- An escape that is cut off and a raw literal over two lines, in a text that ends within a third
literal. -/
theorem value_of_mem_lexemes_cutOff :
    let source : Text := ['"', 'a', '\\', 'x', '4', '"', '`', 'b', '\r', '\n', '`', '\'', 'c']
    let interpreted : Lexeme := ⟨.interpretedString, 0, ['"', 'a', '\\', 'x', '4', '"']⟩
    let raw : Lexeme := ⟨.rawString, 6, ['`', 'b', '\r', '\n', '`']⟩
    interpreted ∈ lexemes source ∧ raw ∈ lexemes source ∧
      Literal.value interpreted.text = .error .truncatedEscape ∧
      Literal.value raw.text = .ok ['b', '\n'] := by
  intro source interpreted raw
  have hinterpreted : interpreted ∈ lexemes source := by decide +kernel
  have hraw : raw ∈ lexemes source := by decide +kernel
  refine ⟨hinterpreted, hraw, ?_, ?_⟩
  · obtain ⟨body, htext, -, -, -, hcut, -⟩ := (value_of_mem_lexemes hinterpreted).2 rfl
    obtain rfl : ['a', '\\', 'x', '4'] = body := by
      simpa [interpreted] using congrArg (fun s => s.tail.dropLast) htext
    refine hcut.2 ⟨['a'], _, ['\\', 'x', '4'], 16, rfl,
      .cons (.plain (by decide) (by decide) (by decide)) .nil, ?_⟩
    exact @Unfinished.intro ['x'] ['4'] 16 2 4 (by decide) (by decide) (by decide) rfl
  · obtain ⟨body, htext, hvalue⟩ := (value_of_mem_lexemes hraw).1 rfl
    obtain rfl : ['b', '\r', '\n'] = body := by
      simpa [raw] using congrArg (fun s => s.tail.dropLast) htext
    rw [hvalue]
    decide

end AllowedValues.Argument
