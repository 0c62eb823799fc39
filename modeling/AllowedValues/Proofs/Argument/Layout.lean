import AllowedValues.Proofs.Argument.Elements
import AllowedValues.Proofs.Literal.Spelling

/-!
Argument lists in any layout. Literals are parted by commas, with gaps of blanks and comments
between them and possibly a comma after the last. However the list is laid out, its values are
those that its literals spell.
-/

namespace AllowedValues.Argument

open Source (Kind Piece)
open Source.Piece (CutsBefore Reaches Stay argumentValue? elements elementsFrom elementValue? isCode
  kinds soleValue?)
open Lexeme (isBlank)

/-- Blanks, block comments, and line comments with the newline after them. -/
inductive IsGap : Text → Prop
  | nil : IsGap []
  | blank {c : Char} {gap : Text} : isBlank c = true → IsGap gap → IsGap (c :: gap)
  | block {body gap : Text} : Literal.IsCommentBody body → IsGap gap →
      IsGap ('/' :: '*' :: (body ++ '*' :: '/' :: gap))
  | line {body gap : Text} : '\n' ∉ body → IsGap gap → IsGap ('/' :: '/' :: (body ++ '\n' :: gap))

/-- An argument list that spells values. -/
inductive SpellsArguments : List Text → Text → Prop
  | nil {gap : Text} : IsGap gap → SpellsArguments [] gap
  | last {value before literal after : Text} : IsGap before → Literal.Spells literal value →
      IsGap after → SpellsArguments [value] (before ++ (literal ++ after))
  | cons {value before literal after rest : Text} {values : List Text} : IsGap before →
      Literal.Spells literal value → IsGap after → SpellsArguments values rest →
      SpellsArguments (value :: values) (before ++ (literal ++ (after ++ ',' :: rest)))

theorem exists_spellsArguments (values : List Text) : ∃ text, SpellsArguments values text := by
  induction values with
  | nil => exact ⟨[], .nil .nil⟩
  | cons value values ih =>
      obtain ⟨rest, hrest⟩ := ih
      obtain ⟨literal, hliteral⟩ := Literal.exists_spells value
      exact ⟨_, .cons .nil hliteral .nil hrest⟩

/-- Pieces that no reading of an argument list sees. -/
def Unseen (ps : List Piece) : Prop := ∀ p ∈ ps, p.kind? = none ∧ p.isStray = false

/-- The pieces of an argument list that spells values. -/
inductive Arranged : List Text → List Piece → Prop
  | nil {gap : List Piece} : Unseen gap → Arranged [] gap
  | last {value literal : Text} {before after : List Piece} : Unseen before →
      Literal.Spells literal value → Unseen after →
      Arranged [value] (before ++ ⟨.code .literal, literal⟩ :: after)
  | cons {value literal : Text} {values : List Text} {before after rest : List Piece} :
      Unseen before → Literal.Spells literal value → Unseen after → Arranged values rest →
      Arranged (value :: values)
        (before ++ ⟨.code .literal, literal⟩ :: (after ++ ⟨.code .comma, [',']⟩ :: rest))

theorem Unseen.append {ps qs : List Piece} (hps : Unseen ps) (hqs : Unseen qs) :
    Unseen (ps ++ qs) := by
  intro p hp
  rcases List.mem_append.1 hp with hp | hp
  · exact hps p hp
  · exact hqs p hp

theorem cutsBefore_space {c : Char} (h : Unicode.isWhiteSpace c = true) (rest : Text) :
    CutsBefore [c] [⟨.space, [c]⟩] rest := by
  have hreach : Reaches c ([] ++ rest) .space (List.length ([] : Text)) := .space h
  exact .piece hreach

theorem cutsBefore_block {body : Text} (h : Literal.IsCommentBody body) (rest : Text) :
    CutsBefore ('/' :: '*' :: (body ++ ['*', '/']))
      [⟨.comment, '/' :: '*' :: (body ++ ['*', '/'])⟩] rest := by
  have hlength : ('*' :: (body ++ ['*', '/'])).length = body.length + 2 + 1 := by simp
  have hclosed : Literal.blockCommentLength? (('*' :: (body ++ ['*', '/']) ++ rest).drop 1) =
      some (body.length + 2) := by
    rw [List.cons_append, List.drop_one, List.tail_cons, List.append_assoc]
    exact h.blockCommentLength?_append rest
  apply CutsBefore.piece
  rw [hlength]
  exact .block rfl rfl hclosed

theorem cutsBefore_line {body : Text} (h : '\n' ∉ body) (rest : Text) :
    CutsBefore ('/' :: '/' :: body) [⟨.comment, '/' :: '/' :: body⟩] ('\n' :: rest) := by
  have hline : Literal.lineLength ('/' :: body ++ '\n' :: rest) = ('/' :: body).length :=
    Literal.lineLength_append (by simp [h]) (.inr rfl)
  apply CutsBefore.piece
  rw [← hline]
  exact .line rfl rfl

theorem cutsBefore_body {quote : Char} {body : Text} (hquote : quote ∈ ['"', '`', '\''])
    (h : Literal.IsBody quote body) (rest : Text) : CutsBefore (quote :: (body ++ [quote]))
      [⟨.code .literal, quote :: (body ++ [quote])⟩] rest := by
  apply CutsBefore.piece
  rw [Literal.IsBody] at h
  split_ifs at h with hraw
  · refine .raw hraw (Literal.rawLength?_eq_some_iff.2 ⟨body, rest, ?_, h, by simp⟩)
    simp [hraw]
  · have hother : quote = '"' ∨ quote = '\'' := by simpa [hraw] using hquote
    refine .quoted hother ?_
    rw [Literal.closedLength?_eq_some_iff (Source.Piece.quote_ne_backslash hother)]
    exact ⟨body, rest, by simp, h, by simp⟩

theorem cutsBefore_literal {literal value : Text} (h : Literal.Spells literal value)
    (rest : Text) : CutsBefore literal [⟨.code .literal, literal⟩] rest := by
  cases h with
  | @interpreted body _ hbody =>
      have hlegal : Literal.IsBody '"' body := by
        rw [Literal.IsBody, if_neg (by decide)]
        exact hbody.units
      exact cutsBefore_body (by simp) hlegal rest
  | @raw body hbody =>
      have hlegal : Literal.IsBody '`' body := by
        rw [Literal.IsBody, if_pos rfl]
        exact hbody
      exact cutsBefore_body (by simp) hlegal rest

theorem cutsBefore_mark {c : Char} (h : c ∈ ['.', ',', '(', ')']) (rest : Text) :
    CutsBefore [c] [⟨.code (Kind.ofChar c), [c]⟩] rest := by
  have hreach : Reaches c ([] ++ rest) (.code (Kind.ofChar c)) (List.length ([] : Text)) := by
    simp only [List.mem_cons, List.not_mem_nil, or_false] at h
    rcases h with rfl | rfl | rfl | rfl
    all_goals
      exact .single (by decide) (by decide) (by decide) (by simp) (by simp) (by decide) (by decide)
  exact .piece hreach

theorem cutsBefore_name {name rest : Text} (h : name.isIdentifier = true)
    (hrest : ∀ d, rest.head? = some d → isIdentifierPart d = false) :
    CutsBefore name [⟨.code .ident, name⟩] rest := by
  cases name with
  | nil => simp [Text.isIdentifier] at h
  | cons c s =>
      rw [Text.isIdentifier, Bool.and_eq_true, List.all_eq_true] at h
      apply CutsBefore.piece
      rw [← congrArg List.length (Text.takeWhile_append_eq h.2 hrest)]
      exact .ident h.1

/-- A gap does not go on with the name before it. -/
theorem IsGap.head?_append {gap : Text} (h : IsGap gap) {c : Char}
    (hc : isIdentifierPart c = false) (rest : Text) :
    ∀ d, (gap ++ c :: rest).head? = some d → isIdentifierPart d = false := by
  intro d hd
  cases h with
  | nil =>
      obtain rfl := Option.some.inj hd
      exact hc
  | blank hblank _ =>
      obtain rfl := Option.some.inj hd
      rw [Bool.eq_false_iff]
      intro hpart
      have hspace := isWhiteSpace_of_isWordPart (isWordPart_of_isIdentifierPart hpart)
      rw [isWhiteSpace_of_isBlank hblank] at hspace
      exact absurd hspace (by decide)
  | block _ _ =>
      obtain rfl := Option.some.inj hd
      decide
  | line _ _ =>
      obtain rfl := Option.some.inj hd
      decide

theorem IsGap.cutsBefore {gap : Text} (h : IsGap gap) :
    ∃ ps, Unseen ps ∧ ∀ rest, CutsBefore gap ps rest := by
  induction h with
  | nil => exact ⟨[], by simp [Unseen], .nil⟩
  | @blank c gap hblank _ ih =>
      obtain ⟨ps, hps, hcuts⟩ := ih
      refine ⟨⟨.space, [c]⟩ :: ps, ?_, fun rest => ?_⟩
      · refine @Unseen.append [_] ps ?_ hps
        simp [Unseen, Piece.kind?, Piece.isStray, hblank]
      · exact .append (cutsBefore_space (isWhiteSpace_of_isBlank hblank) _) (hcuts rest)
  | @block body gap hbody _ ih =>
      obtain ⟨ps, hps, hcuts⟩ := ih
      refine ⟨⟨.comment, '/' :: '*' :: (body ++ ['*', '/'])⟩ :: ps, ?_, fun rest => ?_⟩
      · refine @Unseen.append [_] ps ?_ hps
        simp [Unseen, Piece.kind?, Piece.isStray]
      · have hcut := (cutsBefore_block hbody (gap ++ rest)).append (hcuts rest)
        simpa using hcut
  | @line body gap hbody _ ih =>
      -- The comment ends before its newline, which is a piece by itself.
      obtain ⟨ps, hps, hcuts⟩ := ih
      refine ⟨⟨.comment, '/' :: '/' :: body⟩ :: ⟨.space, ['\n']⟩ :: ps, ?_, fun rest => ?_⟩
      · refine @Unseen.append [_, _] ps ?_ hps
        simp [Unseen, Piece.kind?, Piece.isStray, isBlank]
      · have hspace : Unicode.isWhiteSpace '\n' = true := by decide
        have hnewline := (cutsBefore_space hspace (gap ++ rest)).append (hcuts rest)
        have hcut := (cutsBefore_line hbody (gap ++ rest)).append hnewline
        simpa using hcut

theorem SpellsArguments.cutsBefore {values : List Text} {text : Text}
    (h : SpellsArguments values text) :
    ∃ ps, Arranged values ps ∧ ∀ rest, CutsBefore text ps rest := by
  induction h with
  | nil hgap =>
      obtain ⟨ps, hps, hcuts⟩ := hgap.cutsBefore
      exact ⟨ps, .nil hps, hcuts⟩
  | last hbefore hliteral hafter =>
      obtain ⟨ps, hps, hcutsBefore⟩ := hbefore.cutsBefore
      obtain ⟨qs, hqs, hcutsAfter⟩ := hafter.cutsBefore
      refine ⟨_, .last hps hliteral hqs, fun rest => ?_⟩
      exact (hcutsBefore _).append ((cutsBefore_literal hliteral _).append (hcutsAfter rest))
  | @cons value before literal after tail values hbefore hliteral hafter _ ih =>
      obtain ⟨ps, hps, hcutsBefore⟩ := hbefore.cutsBefore
      obtain ⟨qs, hqs, hcutsAfter⟩ := hafter.cutsBefore
      obtain ⟨rs, hrs, hcuts⟩ := ih
      refine ⟨_, .cons hps hliteral hqs hrs, fun rest => ?_⟩
      have htail := (cutsBefore_mark (c := ',') (by decide) (tail ++ rest)).append (hcuts rest)
      exact (hcutsBefore _).append
        ((cutsBefore_literal hliteral _).append ((hcutsAfter _).append htail))

theorem Unseen.kinds_eq {ps : List Piece} (h : Unseen ps) : kinds ps = [] := by
  rw [kinds, List.filterMap_eq_nil_iff]
  exact fun p hp => (h p hp).1

/-- The code of an arrangement has neither brackets nor names. -/
theorem Arranged.flat {values : List Text} {ps : List Piece} (h : Arranged values ps) :
    ∀ k ∈ kinds ps, k.isBracket = false ∧ k ≠ .ident := by
  induction h with
  | nil hgap => simp [hgap.kinds_eq]
  | last hbefore _ hafter => simp [hbefore.kinds_eq, hafter.kinds_eq, Kind.isBracket]
  | cons hbefore _ hafter _ ih =>
      simpa [hbefore.kinds_eq, hafter.kinds_eq, Kind.isBracket] using ih

theorem Arranged.commasSettled {values : List Text} {ps : List Piece} (h : Arranged values ps)
    (k : Kind) : Source.commasSettled (k :: (kinds ps ++ [.closing .paren])) = true := by
  induction h generalizing k with
  | nil hgap => simp [hgap.kinds_eq, Source.commasSettled]
  | last hbefore _ hafter =>
      simp [hbefore.kinds_eq, hafter.kinds_eq, Source.commasSettled]
  | cons hbefore _ hafter _ ih =>
      have hrest := ih .comma
      simp [hbefore.kinds_eq, hafter.kinds_eq, Source.commasSettled, Kind.awaitsElement, hrest]

theorem Unseen.filter_isCode {ps : List Piece} (h : Unseen ps) : ps.filter isCode = [] := by
  rw [List.filter_eq_nil_iff]
  intro p hp
  simp [isCode, (h p hp).1]

theorem Unseen.any_isStray {ps : List Piece} (h : Unseen ps) : ps.any Piece.isStray = false := by
  rw [List.any_eq_false]
  intro p hp
  simp [(h p hp).2]

theorem Unseen.argumentValue?_eq {gap : List Piece} (h : Unseen gap) :
    argumentValue? gap = none := by
  rw [argumentValue?, elementValue?, h.filter_isCode]
  exact ite_self _

theorem argumentValue?_literal {value literal : Text} {before after : List Piece}
    (hbefore : Unseen before) (h : Literal.Spells literal value) (hafter : Unseen after) :
    argumentValue? (before ++ ⟨.code .literal, literal⟩ :: after) = some value := by
  have hstray : (before ++ ⟨.code .literal, literal⟩ :: after).any Piece.isStray = false := by
    rw [List.any_append, List.any_cons, hbefore.any_isStray, hafter.any_isStray]
    rfl
  have hcode : (before ++ ⟨.code .literal, literal⟩ :: after).filter isCode =
      [⟨.code .literal, literal⟩] := by
    rw [List.filter_append, List.filter_cons_of_pos rfl, hbefore.filter_isCode,
      hafter.filter_isCode, List.nil_append]
  have hhead : literal.head? = some '"' ∨ literal.head? = some '`' := by
    cases h with
    | interpreted _ => exact Or.inl rfl
    | raw _ => exact Or.inr rfl
  rw [argumentValue?, hstray, if_neg (by decide), elementValue?, hcode, soleValue?,
    if_pos ⟨rfl, hhead⟩, h.value_eq]
  rfl

theorem Unseen.stay {ps : List Piece} (h : Unseen ps) : Stay ps := by
  intro p hp
  rw [Piece.depthChange, (h p hp).1]
  simp

theorem stay_literal {literal : Text} {before after : List Piece} (hbefore : Unseen before)
    (hafter : Unseen after) : Stay (before ++ ⟨.code .literal, literal⟩ :: after) := by
  intro p hp
  rcases List.mem_append.1 hp with hp | hp
  · exact hbefore.stay p hp
  rcases List.mem_cons.1 hp with rfl | hp
  · exact ⟨by simp [Piece.kind?], rfl⟩
  · exact hafter.stay p hp

theorem elements_append_comma {word : List Piece} (h : Stay word) (ps : List Piece) :
    elements (word ++ ⟨.code .comma, [',']⟩ :: ps) = word :: elements ps := by
  have hcomma : elementsFrom 0 (⟨.code .comma, [',']⟩ :: ps) = ([], elements ps) := by
    rw [elementsFrom, if_pos ⟨rfl, rfl⟩]
    rfl
  rw [elements, elementsFrom_append h, hcomma, List.append_nil]

theorem elements_of_stay {word : List Piece} (h : Stay word) : elements word = [word] := by
  have happend := elementsFrom_append h 0 []
  rw [List.append_nil] at happend
  rw [elements, happend]
  simp [elementsFrom]

/-- The elements of an arrangement have its values as arguments. -/
theorem Arranged.values_eq {values : List Text} {ps : List Piece} (h : Arranged values ps) :
    (elements ps).filterMap argumentValue? = values := by
  induction h with
  | nil hgap =>
      rw [elements_of_stay hgap.stay, List.filterMap_cons_none hgap.argumentValue?_eq]
      rfl
  | last hbefore hliteral hafter =>
      rw [elements_of_stay (stay_literal hbefore hafter),
        List.filterMap_cons_some (argumentValue?_literal hbefore hliteral hafter)]
      rfl
  | cons hbefore hliteral hafter _ ih =>
      rw [← List.cons_append, ← List.append_assoc,
        elements_append_comma (stay_literal hbefore hafter),
        List.filterMap_cons_some (argumentValue?_literal hbefore hliteral hafter), ih]

theorem SpellsArguments.values_eq {spelled : List Text} {text : Text}
    (h : SpellsArguments spelled text) : values text = spelled := by
  obtain ⟨ps, hps, hcuts⟩ := h.cutsBefore
  have hbalanced := Source.balanced_of_units fun k hk => (hps.flat k hk).1
  rw [values_of_cut? (hcuts []).cut?_eq hbalanced.grounded, hps.values_eq]

end AllowedValues.Argument
