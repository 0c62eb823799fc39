import AllowedValues.Proofs.Argument.Rereading
import AllowedValues.Proofs.Source.Tokens

/-!
The structure of a text in its two readings. Where a text has tokens, its brackets, commas and
literals are the same as tokens and as lexemes, and stand at the same places.
-/

namespace AllowedValues.Argument

open Source (Kind Piece Token locate tokens?)
open Source.Piece (cut? reaches_of_reach?)

/-- The lexeme that a token must be, unless it is plain. -/
def tokenLexeme? (t : Token) : Option Lexeme :=
  (Lexeme.Class.ofUnit? t.kind t.text).map fun cls => ⟨cls, t.start, t.text⟩

theorem isPlain_of_ofUnit? {kind : Kind} {text : Text} {cls : Lexeme.Class}
    (h : Lexeme.Class.ofUnit? kind text = some cls) : cls.isPlain = false := by
  unfold Lexeme.Class.ofUnit? at h
  split at h <;> cases h <;> rfl

theorem ofUnit?_of_isPlain {kind : Kind} (h : kind.isPlain = true) (text : Text) :
    Lexeme.Class.ofUnit? kind text = none := by
  cases kind with
  | ident => rfl
  | number => rfl
  | dot => rfl
  | punct => rfl
  | comma => cases h
  | opening b => cases h
  | closing b => cases h
  | literal => cases h

theorem filterMap_tokenLexeme?_of_plain {word : List Piece}
    (h : ∀ p ∈ word, ∃ kind, p.kind? = some kind ∧ kind.isPlain = true) (start : Nat) :
    (locate start word).filterMap tokenLexeme? = [] := by
  rw [List.filterMap_eq_nil_iff]
  intro t ht
  obtain ⟨kind, hkind, hplain⟩ := h t.piece (Source.bounds_of_mem_locate ht).1
  obtain rfl : t.kind = kind := Option.some.inj hkind
  rw [tokenLexeme?, ofUnit?_of_isPlain hplain, Option.map_none]

/-- The lexemes that are not plain are those that the code units must be. -/
theorem Rereads.filter_eq {start : Nat} {ps : List Piece} {ls : List Lexeme}
    (h : Rereads start ps ls) : ls.filter (fun l => !l.cls.isPlain) =
      (locate start ps).filterMap tokenLexeme? := by
  induction h with
  | nil => rfl
  | layout hkind _ _ ih => rw [Source.locate_cons_of_kind?_eq_none hkind, ih]
  | stray hstray hcls _ ih =>
      rw [Source.locate_cons_of_kind?_eq_none (kind?_of_isStray hstray),
        List.filter_cons_of_neg (by simp [hcls]), ih]
  | unit hkind hunit _ ih =>
      rw [Source.locate_cons_of_code (Source.Piece.role_eq_of_kind? hkind),
        List.filter_cons_of_pos (by simp [isPlain_of_ofUnit? hunit]), ih,
        List.filterMap_cons_some (by rw [tokenLexeme?, hunit, Option.map_some])]
  | plain _ hword _ hword' _ ih =>
      rw [Source.locate_append, List.filterMap_append, filterMap_tokenLexeme?_of_plain hword,
        List.filter_append, List.filter_eq_nil_iff.2 (fun l hl => by simp [hword' l hl]), ih]

theorem ofChar_ne_literal (c : Char) : Kind.ofChar c ≠ .literal := by
  rw [Kind.ofChar]
  split_ifs
  · simp
  · simp
  · split <;> simp

theorem exists_quote_of_literal {source : Text} {pieces : List Piece} {p : Piece}
    (hcut : cut? source = some pieces) (hp : p ∈ pieces) (hrole : p.role = .code .literal) :
    ∃ quote ∈ ['"', '`', '\''], p.text.head? = some quote := by
  obtain ⟨c, s, n, hreach, htext⟩ := Source.Piece.exists_reach?_of_mem_cut? hcut hp
  rw [htext, List.head?_cons]
  refine ⟨c, ?_, rfl⟩
  have hreaches := reaches_of_reach? hreach
  rw [hrole] at hreaches
  generalize hliteral : Source.Piece.Role.code Kind.literal = role at hreaches
  cases hreaches with
  | quoted hquote _ => rcases hquote with rfl | rfl <;> decide
  | raw hraw _ =>
      rw [hraw]
      decide
  | single => exact absurd (Source.Piece.Role.code.inj hliteral).symm (ofChar_ne_literal c)
  | _ => cases hliteral

/-- Where a text has tokens, the brackets, commas and literals among them are those among its
lexemes, each at the same place, and the first character of a literal says which of the three
classes it has. -/
theorem filter_lexemes_eq {source : Text} {ts : List Token} (h : tokens? source = some ts) :
    (lexemes source).filter (fun l => !l.cls.isPlain) = ts.filterMap tokenLexeme? ∧
      ∀ t ∈ ts, t.kind = .literal → ∃ quote ∈ ['"', '`', '\''], t.text.head? = some quote := by
  obtain ⟨pieces, hcut, -, htokens, -⟩ := Source.tokens?_eq_some_iff.1 h
  constructor
  · rw [lexemes, (rereads_of_cut? hcut 0).filter_eq, ← htokens, List.filterMap_map]
    rfl
  · intro t ht hkind
    have hmem := Source.mem_locate_of_unmatched htokens ht
    exact exists_quote_of_literal hcut (Source.bounds_of_mem_locate hmem).1
      (congrArg Source.Piece.Role.code hkind)

/-- A letter that only one reading knows, a number that takes in a dot, a division and white space
that is no blank, around brackets, commas and the three kinds of literal. -/
theorem filter_lexemes_eq_mixed :
    let source : Text := ['é', '(', '1', '.', '5', '/', '2', ',', Char.ofNat 160, '"', '(', '"',
      ',', '`', ',', '`', ',', '\'', ')', '\'', ')', '/', '/', '"']
    let marks : List Lexeme := [⟨.opening .paren, 2, ['(']⟩, ⟨.comma, 8, [',']⟩,
      ⟨.interpretedString, 11, ['"', '(', '"']⟩, ⟨.comma, 14, [',']⟩,
      ⟨.rawString, 15, ['`', ',', '`']⟩, ⟨.comma, 18, [',']⟩, ⟨.rune, 19, ['\'', ')', '\'']⟩,
      ⟨.closing .paren, 22, [')']⟩]
    ∃ ts, tokens? source = some ts ∧ ts.filterMap tokenLexeme? = marks ∧
      (lexemes source).filter (fun l => !l.cls.isPlain) = marks := by
  intro source marks
  obtain ⟨ts, hts⟩ : ∃ ts, tokens? source = some ts :=
    Option.isSome_iff_exists.1 (by decide +kernel)
  have hlexemes : (lexemes source).filter (fun l => !l.cls.isPlain) = marks := by decide +kernel
  exact ⟨ts, hts, (filter_lexemes_eq hts).1.symm.trans hlexemes, hlexemes⟩

end AllowedValues.Argument
