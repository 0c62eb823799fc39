import AllowedValues.Proofs.Source.Tokens
import Mathlib.Data.List.TakeWhile

/-!
The grammar of source texts. A text is cut from left to right into units, and always into the
longest unit that is possible, except that a slash before a slash or a star is nothing but the
beginning of a comment. It is well formed if its brackets are balanced and every comma comes after
something. Nothing of a well-formed text is lost: what is in no token is white space or comment.
-/

namespace AllowedValues.Source

namespace Piece

/-- A character that is a unit by itself, unless it begins a comment. -/
def IsMark (c : Char) : Prop :=
  Unicode.isWhiteSpace c = false ∧ c ∉ ['"', '\'', '`'] ∧ isIdentifierStart c = false ∧
    c.isDigit = false

/-- The texts of pieces. -/
inductive IsUnit : Role → Text → Prop
  | space {c : Char} : Unicode.isWhiteSpace c = true → IsUnit .space [c]
  | line {body : Text} : '\n' ∉ body → IsUnit .comment ('/' :: '/' :: body)
  | block {body : Text} : Literal.IsCommentBody body →
      IsUnit .comment ('/' :: '*' :: (body ++ ['*', '/']))
  | ident {name : Text} : name.isIdentifier = true → IsUnit (.code .ident) name
  | number {c : Char} {s : Text} : c.isDigit = true → (∀ d ∈ s, isWordPart d = true) →
      IsUnit (.code .number) (c :: s)
  | quoted {quote : Char} {body : Text} : quote = '"' ∨ quote = '\'' → Literal.Units quote body →
      IsUnit (.code .literal) (quote :: (body ++ [quote]))
  | raw {body : Text} : '`' ∉ body → IsUnit (.code .literal) ('`' :: (body ++ ['`']))
  | mark {c : Char} : IsMark c → IsUnit (.code (Kind.ofChar c)) [c]

/-- The text begins with the mark that opens a line comment or a block comment. -/
def OpensComment (s : Text) : Prop := ['/', '/'] <+: s ∨ ['/', '*'] <+: s

/-- A unit that a text is to begin with, where `rest` is what comes after it. -/
structure Leads (role : Role) (text rest : Text) : Prop where
  isUnit : IsUnit role text
  /-- No other unit that the text begins with is longer. -/
  longest : ∀ {role' text' rest'}, IsUnit role' text' → text' ++ rest' = text ++ rest →
    text'.length ≤ text.length
  /-- Where a comment is opened, it is one. -/
  comment : OpensComment (text ++ rest) → role = .comment

/-- The text can be cut into these pieces. -/
inductive Cuts : Text → List Piece → Prop
  | nil : Cuts [] []
  | cons {role : Role} {text rest : Text} {ps : List Piece} : Leads role text rest →
      Cuts rest ps → Cuts (text ++ rest) (⟨role, text⟩ :: ps)

theorem isIdentifier_cons_iff {c : Char} {s : Text} : Text.isIdentifier (c :: s) = true ↔
    isIdentifierStart c = true ∧ ∀ d ∈ s, isIdentifierPart d = true := by
  rw [Text.isIdentifier, Bool.and_eq_true, List.all_eq_true]

theorem exists_cons_of_isIdentifier {name : Text} (h : name.isIdentifier = true) :
    ∃ c s, name = c :: s := by
  cases name with
  | nil => exact absurd h (by decide)
  | cons c s => exact ⟨c, s, rfl⟩

theorem Reaches.isUnit {c : Char} {s : Text} {role : Role} {n : Nat} (h : Reaches c s role n) :
    IsUnit role (c :: s.take n) := by
  cases h with
  | space hspace => exact .space hspace
  | quoted hquote hn =>
      obtain ⟨body, rest, rfl, hbody, rfl⟩ :=
        (Literal.closedLength?_eq_some_iff (quote_ne_backslash hquote)).1 hn
      rw [List.take_length_add_append]
      exact .quoted hquote hbody
  | raw hraw hn =>
      obtain ⟨body, rest, rfl, hbody, rfl⟩ := Literal.rawLength?_eq_some_iff.1 hn
      rw [hraw, List.take_length_add_append]
      exact .raw hbody
  | line hslash hhead =>
      obtain ⟨s, rfl⟩ := List.head?_eq_some_iff.1 hhead
      have hrun : Literal.lineLength ('/' :: s) = (s.takeWhile (· ≠ '\n')).length + 1 := by
        rw [Literal.lineLength, List.takeWhile_cons_of_pos (by decide), List.length_cons]
      rw [hrun, hslash, List.take_succ_cons,
        ← List.prefix_iff_eq_take.1 (List.takeWhile_prefix _)]
      refine .line fun hmem => ?_
      simpa using List.mem_takeWhile_imp hmem
  | block hslash hhead hn =>
      obtain ⟨s, rfl⟩ := List.head?_eq_some_iff.1 hhead
      obtain ⟨body, rest, hs, hbody, rfl⟩ := Literal.blockCommentLength?_eq_some_iff.1 hn
      have hs : s = body ++ '*' :: '/' :: rest := hs
      rw [hslash, List.take_succ_cons, hs, List.take_length_add_append]
      exact .block hbody
  | ident hident =>
      rw [← List.prefix_iff_eq_take.1 (List.takeWhile_prefix _)]
      exact .ident (isIdentifier_cons_iff.2 ⟨hident, fun _ hd => List.mem_takeWhile_imp hd⟩)
  | number _ hdigit =>
      rw [← List.prefix_iff_eq_take.1 (List.takeWhile_prefix _)]
      exact .number hdigit fun _ hd => List.mem_takeWhile_imp hd
  | single hspace hquote hraw _ _ hident hdigit =>
      refine .mark ⟨hspace, ?_, hident, hdigit⟩
      simp only [not_or] at hquote
      simp [hquote.1, hquote.2, hraw]

/-- Where a unit begins, a piece reaches over all of it. A slash that opens a comment is none. -/
theorem IsUnit.exists_reaches {role : Role} {text rest : Text} (h : IsUnit role text)
    (hcomment : OpensComment (text ++ rest) → role = .comment) :
    ∃ c t n, text = c :: t ∧ Reaches c (t ++ rest) role n ∧ t.length ≤ n := by
  cases h with
  | @space c hspace => exact ⟨c, [], _, rfl, .space hspace, Nat.le_refl _⟩
  | @line body hbody =>
      refine ⟨'/', '/' :: body, _, rfl, .line rfl rfl, ?_⟩
      refine Text.length_le_takeWhile_append fun d hd => ?_
      rcases List.mem_cons.1 hd with rfl | hd
      · decide
      · exact decide_eq_true (ne_of_mem_of_not_mem hd hbody)
  | @block body hbody =>
      refine ⟨'/', '*' :: (body ++ ['*', '/']), body.length + 3, rfl, .block rfl rfl ?_, by simp⟩
      have hlength := hbody.blockCommentLength?_append rest
      rwa [List.cons_append, List.append_assoc, List.drop_succ_cons, List.drop_zero]
  | ident hname =>
      obtain ⟨c, s, rfl⟩ := exists_cons_of_isIdentifier hname
      obtain ⟨hstart, hparts⟩ := isIdentifier_cons_iff.1 hname
      exact ⟨c, s, _, rfl, .ident hstart, Text.length_le_takeWhile_append hparts⟩
  | @number c s hdigit hparts =>
      exact ⟨c, s, _, rfl, .number (isIdentifierStart_of_isDigit hdigit) hdigit,
        Text.length_le_takeWhile_append hparts⟩
  | @quoted quote body hquote hbody =>
      refine ⟨quote, body ++ [quote], body.length + 1, rfl, .quoted hquote ?_, by simp⟩
      rw [List.append_assoc]
      exact (Literal.closedLength?_eq_some_iff (quote_ne_backslash hquote)).2
        ⟨body, rest, rfl, hbody, rfl⟩
  | @raw body hbody =>
      refine ⟨'`', body ++ ['`'], body.length + 1, rfl, .raw rfl ?_, by simp⟩
      rw [List.append_assoc]
      exact Literal.rawLength?_eq_some_iff.2 ⟨body, rest, rfl, hbody, rfl⟩
  | @mark c hmark =>
      obtain ⟨hspace, hquote, hident, hdigit⟩ := hmark
      simp only [List.mem_cons, List.not_mem_nil, or_false, not_or] at hquote
      have hopens : ¬ OpensComment (c :: rest) := fun hopens => by cases hcomment hopens
      refine ⟨c, [], 0, rfl, .single hspace (by simp [hquote]) hquote.2.2 ?_ ?_ hident hdigit,
        Nat.le_refl _⟩
      · rintro ⟨rfl, hhead⟩
        obtain ⟨s, rfl⟩ := List.head?_eq_some_iff.1 hhead
        exact hopens (.inl (List.prefix_append ['/', '/'] s))
      · rintro ⟨rfl, hhead⟩
        obtain ⟨s, rfl⟩ := List.head?_eq_some_iff.1 hhead
        exact hopens (.inr (List.prefix_append ['/', '*'] s))

/-- A unit that is no comment holds no more of a mark that opens one than the slash. -/
theorem IsUnit.length_le_one {role : Role} {text rest : Text} (h : IsUnit role text)
    (hopens : OpensComment (text ++ rest)) (hrole : role ≠ .comment) : text.length ≤ 1 := by
  have hhead : (text ++ rest).head? = some '/' := by
    rcases hopens with ⟨s, hs⟩ | ⟨s, hs⟩ <;> rw [← hs] <;> rfl
  cases h with
  | space _ => exact Nat.le_refl _
  | line _ => exact absurd rfl hrole
  | block _ => exact absurd rfl hrole
  | ident hname =>
      obtain ⟨c, s, rfl⟩ := exists_cons_of_isIdentifier hname
      obtain rfl := Option.some.inj hhead
      exact absurd (isIdentifier_cons_iff.1 hname).1 (by decide)
  | number hdigit _ =>
      obtain rfl := Option.some.inj hhead
      exact absurd hdigit (by decide)
  | quoted hquote _ =>
      obtain rfl := Option.some.inj hhead
      exact absurd hquote (by decide)
  | raw _ => exact absurd (Option.some.inj hhead) (by decide)
  | mark _ => exact Nat.le_refl _

/-- A piece reaches as far as any unit that begins where it does. -/
theorem Reaches.longest {c : Char} {s : Text} {role role' : Role} {n : Nat} {text rest : Text}
    (h : Reaches c s role n) (hunit : IsUnit role' text) (htext : text ++ rest = c :: s) :
    text.length ≤ n + 1 := by
  by_cases hcomment : OpensComment (text ++ rest) → role' = .comment
  · obtain ⟨d, t, m, rfl, hreaches, hm⟩ := hunit.exists_reaches hcomment
    obtain ⟨rfl, rfl⟩ := List.cons.inj htext
    have hsame := hreaches.reach?_eq.symm.trans h.reach?_eq
    simp only [Option.some.injEq, Prod.mk.injEq] at hsame
    rw [List.length_cons, ← hsame.2]
    exact Nat.succ_le_succ hm
  · rw [Classical.not_imp] at hcomment
    exact (hunit.length_le_one hcomment.1 hcomment.2).trans (Nat.le_add_left 1 n)

theorem Reaches.role_eq_of_opensComment {c : Char} {s : Text} {role : Role} {n : Nat}
    (h : Reaches c s role n) (hopens : OpensComment (c :: s)) : role = .comment := by
  obtain ⟨rfl, hhead⟩ : c = '/' ∧ (s.head? = some '/' ∨ s.head? = some '*') := by
    rcases hopens with ⟨t, ht⟩ | ⟨t, ht⟩
    · obtain ⟨rfl, rfl⟩ := List.cons.inj ht
      exact ⟨rfl, .inl rfl⟩
    · obtain ⟨rfl, rfl⟩ := List.cons.inj ht
      exact ⟨rfl, .inr rfl⟩
  cases h with
  | space hspace => exact absurd hspace (by decide)
  | quoted hquote _ => exact absurd hquote (by decide)
  | raw hraw _ => exact absurd hraw (by decide)
  | line _ _ => rfl
  | block _ _ _ => rfl
  | ident hident => exact absurd hident (by decide)
  | number _ hdigit => exact absurd hdigit (by decide)
  | single _ _ _ hline hblock _ _ =>
      rcases hhead with hhead | hhead
      · exact absurd ⟨rfl, hhead⟩ hline
      · exact absurd ⟨rfl, hhead⟩ hblock

theorem Reaches.leads {c : Char} {s : Text} {role : Role} {n : Nat} (h : Reaches c s role n) :
    Leads role (c :: s.take n) (s.drop n) := by
  have hsame : c :: s.take n ++ s.drop n = c :: s := by
    rw [List.cons_append, List.take_append_drop]
  refine ⟨h.isUnit, fun hunit htext => ?_, fun hopens => ?_⟩
  · rw [List.length_cons, List.length_take_of_le h.le_length]
    exact h.longest hunit (htext.trans hsame)
  · rw [hsame] at hopens
    exact h.role_eq_of_opensComment hopens

theorem Leads.exists_reaches {role : Role} {text rest : Text} (h : Leads role text rest) :
    ∃ c t, text = c :: t ∧ Reaches c (t ++ rest) role t.length := by
  obtain ⟨c, t, n, rfl, hreaches, hn⟩ := h.isUnit.exists_reaches h.comment
  have htext : c :: (t ++ rest).take n ++ (t ++ rest).drop n = c :: t ++ rest := by
    rw [List.cons_append, List.take_append_drop, List.cons_append]
  have hlength := h.longest hreaches.isUnit htext
  rw [List.length_cons, List.length_cons, List.length_take_of_le hreaches.le_length] at hlength
  obtain rfl : n = t.length := by omega
  exact ⟨c, t, rfl, hreaches⟩

theorem cut?_eq_some_iff_cuts {s : Text} {ps : List Piece} : cut? s = some ps ↔ Cuts s ps := by
  constructor
  · intro h
    match s with
    | [] =>
        rw [cut?_nil] at h
        rw [← Option.some.inj h]
        exact .nil
    | c :: s =>
        obtain ⟨role, n, rest, hreach, hrest, rfl⟩ := cut?_cons_eq_some_iff.1 h
        have hcuts := Cuts.cons (reaches_of_reach? hreach).leads (cut?_eq_some_iff_cuts.1 hrest)
        rwa [List.cons_append, List.take_append_drop] at hcuts
  · intro h
    induction h with
    | nil => exact cut?_nil
    | @cons role text rest ps hleads _ ih =>
        obtain ⟨c, t, rfl, hreaches⟩ := hleads.exists_reaches
        have hcut : CutsBefore (c :: t) [⟨role, c :: t⟩] rest := .piece hreaches
        rw [CutsBefore, ih] at hcut
        exact hcut
termination_by s.length
decreasing_by simp only [List.length_cons, List.length_drop]; omega

theorem Cuts.spelling_eq {s : Text} {ps : List Piece} (h : Cuts s ps) : spelling ps = s :=
  spelling_of_cut? (cut?_eq_some_iff_cuts.2 h)

/-- Pieces of a well-formed text: the brackets among the units of code are balanced, and no comma
comes right after an opening bracket or another comma. -/
structure WellFormed (ps : List Piece) : Prop where
  balanced : Balanced (kinds ps)
  commas : (kinds ps).IsChain fun k l => l = .comma → k ≠ .comma ∧ ∀ b, k ≠ .opening b

/-- The place `i` of a text is in a piece of white space or in a comment. -/
def Uncoded (ps : List Piece) (i : Nat) : Prop :=
  ∃ before p after, ps = before ++ p :: after ∧ (p.role = .space ∨ p.role = .comment) ∧
    (spelling before).byteSize ≤ i ∧ i < (spelling before).byteSize + p.text.byteSize

end Piece

open Piece (Cuts Uncoded WellFormed cut? isCode kinds spelling)

/-- The place `i` of a text is in a token. -/
def Token.Covers (t : Token) (i : Nat) : Prop := t.start ≤ i ∧ i < t.stop

/-- The tokens are the units of code among the pieces of a text, one after the other and each at the
place of its piece, and there is nothing else in the text but white space and comments. -/
structure Tokenizes (ps : List Piece) (ts : List Token) : Prop where
  units : ts.map Token.piece = ps.filter isCode
  places : ∀ t ∈ ts, ∃ before after, ps = before ++ t.piece :: after ∧
    t.start = (spelling before).byteSize
  filled : ∀ t ∈ ts, t.start < t.stop
  apart : ts.Pairwise fun t u => t.stop ≤ u.start
  complete : ∀ i < (spelling ps).byteSize, (∃ t ∈ ts, t.Covers i) ∨ Uncoded ps i

theorem Kind.awaitsElement_eq_false_iff {k : Kind} :
    k.awaitsElement = false ↔ k ≠ .comma ∧ ∀ b, k ≠ .opening b := by
  cases k <;> simp [Kind.awaitsElement]

/-- Pieces are well formed where their commas are settled and their brackets match. -/
theorem wellFormed_iff {ps : List Piece} : WellFormed ps ↔
    commasSettled (kinds ps) = true ∧ ∃ closes, matchFrom 0 (kinds ps) = some (closes, []) := by
  have hcommas (k l : Kind) : (l = .comma → k ≠ .comma ∧ ∀ b, k ≠ .opening b) ↔
      ¬ (k.awaitsElement = true ∧ l = .comma) := by
    rw [← Kind.awaitsElement_eq_false_iff, ← Bool.not_eq_true, not_and']
  simp only [commasSettled_iff_isChain, ← hcommas]
  constructor
  · rintro ⟨hbalanced, hchain⟩
    exact ⟨hchain, hbalanced.exists_matchFrom_eq 0⟩
  · rintro ⟨hchain, closes, hmatch⟩
    exact ⟨balanced_of_matchFrom hmatch, hchain⟩

theorem exists_piece_of_lt {ps : List Piece} {i : Nat} (h : i < (spelling ps).byteSize) :
    ∃ before p after, ps = before ++ p :: after ∧ (spelling before).byteSize ≤ i ∧
      i < (spelling before).byteSize + p.text.byteSize := by
  induction ps using List.reverseRecOn with
  | nil => exact absurd h (Nat.not_lt_zero i)
  | append_singleton ps p ih =>
      by_cases hi : i < (spelling ps).byteSize
      · obtain ⟨before, q, after, rfl, hstart, hstop⟩ := ih hi
        exact ⟨before, q, after ++ [p], by simp, hstart, hstop⟩
      · rw [Piece.spelling_append, Text.byteSize_append, Piece.spelling_cons, Piece.spelling_nil,
          List.append_nil] at h
        exact ⟨ps, p, [], rfl, Nat.le_of_not_lt hi, h⟩

theorem tokenizes_of_unmatched {source : Text} {ps : List Piece} {ts : List Token}
    (hcut : cut? source = some ps) (h : ts.map Token.unmatched = locate 0 ps) :
    Tokenizes ps ts where
  units := by
    rw [← map_piece_locate 0 ps, ← h, List.map_map]
    rfl
  places := by
    intro t ht
    obtain ⟨front, rest, hsplit⟩ := List.append_of_mem (mem_locate_of_unmatched h ht)
    obtain ⟨before, after, hps, -, hstart, -⟩ := exists_of_locate_eq_append_cons hsplit
    exact ⟨before, after, hps, hstart.trans (Nat.zero_add _)⟩
  filled := fun _ ht => start_lt_stop hcut h ht
  apart := pairwise_of_unmatched h
  complete := by
    intro i hi
    obtain ⟨before, p, after, hps, hstart, hstop⟩ := exists_piece_of_lt hi
    cases hrole : p.role with
    | space => exact .inr ⟨before, p, after, hps, .inl hrole, hstart, hstop⟩
    | comment => exact .inr ⟨before, p, after, hps, .inr hrole, hstart, hstop⟩
    | code kind =>
        rw [hps, locate_append, locate_cons_of_code hrole, Nat.zero_add] at h
        obtain ⟨front, rest, rfl, -, hrest⟩ := List.map_eq_append_iff.1 h
        obtain ⟨t, last, rfl, ht, -⟩ := List.map_eq_cons_iff.1 hrest
        have hplace : t.start = (spelling before).byteSize := congrArg Token.start ht
        have htext : t.text = p.text := congrArg Token.text ht
        refine .inl ⟨t, by simp, ?_⟩
        rw [Token.Covers, Token.stop, hplace, htext]
        exact ⟨hstart, hstop⟩

/-- A text has tokens if and only if it can be cut into units whose brackets are balanced and whose
commas come after something. The tokens are then the units of code in their places. -/
theorem exists_tokens?_iff_wellFormed (source : Text) :
    ((∃ ts, tokens? source = some ts) ↔ ∃ ps, Cuts source ps ∧ WellFormed ps) ∧
      ∀ ts ps, tokens? source = some ts → Cuts source ps →
        spelling ps = source ∧ Tokenizes ps ts := by
  refine ⟨⟨?_, ?_⟩, ?_⟩
  · rintro ⟨ts, hts⟩
    obtain ⟨ps, hcut, hcommas, -, hmatch⟩ := tokens?_eq_some_iff.1 hts
    exact ⟨ps, Piece.cut?_eq_some_iff_cuts.1 hcut, wellFormed_iff.2 ⟨hcommas, _, hmatch⟩⟩
  · rintro ⟨ps, hcuts, hwell⟩
    obtain ⟨hcommas, closes, hmatch⟩ := wellFormed_iff.1 hwell
    obtain ⟨ts, hts, -⟩ := exists_tokens? (Piece.cut?_eq_some_iff_cuts.2 hcuts) hcommas hmatch
    exact ⟨ts, hts⟩
  · intro ts ps hts hcuts
    obtain ⟨ps', hcut, -, hunits, -⟩ := tokens?_eq_some_iff.1 hts
    obtain rfl := Option.some.inj (hcut.symm.trans (Piece.cut?_eq_some_iff_cuts.2 hcuts))
    exact ⟨hcuts.spelling_eq, tokenizes_of_unmatched hcut hunits⟩

/-- Brackets and a comma in comments and in a literal count for nothing, and a letter of two bytes
takes two places. -/
theorem exists_tokens?_iff_wellFormed_brackets :
    let source : Text := ['é', '(', '[', '/', '*', ')', '*', '/', '1', '.', '5', ',', '\'', '\\',
      '\'', ',', '\'', ']', ')', ' ', '/', '/', '(']
    let ps : List Piece := [⟨.code .ident, ['é']⟩, ⟨.code (.opening .paren), ['(']⟩,
      ⟨.code (.opening .square), ['[']⟩, ⟨.comment, ['/', '*', ')', '*', '/']⟩,
      ⟨.code .number, ['1', '.', '5']⟩, ⟨.code .comma, [',']⟩,
      ⟨.code .literal, ['\'', '\\', '\'', ',', '\'']⟩, ⟨.code (.closing .square), [']']⟩,
      ⟨.code (.closing .paren), [')']⟩, ⟨.space, [' ']⟩, ⟨.comment, ['/', '/', '(']⟩]
    let ts : List Token := [⟨.ident, 0, ['é'], none⟩, ⟨.opening .paren, 2, ['('], some 7⟩,
      ⟨.opening .square, 3, ['['], some 6⟩, ⟨.number, 9, ['1', '.', '5'], none⟩,
      ⟨.comma, 12, [','], none⟩, ⟨.literal, 13, ['\'', '\\', '\'', ',', '\''], none⟩,
      ⟨.closing .square, 18, [']'], none⟩, ⟨.closing .paren, 19, [')'], none⟩]
    tokens? source = some ts ∧ Cuts source ps ∧ (∃ qs, Cuts source qs ∧ WellFormed qs) ∧
      spelling ps = source ∧ Tokenizes ps ts := by
  intro source ps ts
  have hts : tokens? source = some ts := by decide +kernel
  have hcuts : Cuts source ps := Piece.cut?_eq_some_iff_cuts.1 (by decide +kernel)
  obtain ⟨hwell, htokens⟩ := exists_tokens?_iff_wellFormed source
  exact ⟨hts, hcuts, hwell.1 ⟨ts, hts⟩, htokens ts ps hts hcuts⟩

end AllowedValues.Source
