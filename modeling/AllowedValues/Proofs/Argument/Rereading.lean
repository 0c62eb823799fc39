import AllowedValues.Argument.Lexeme
import AllowedValues.Proofs.Source.Cut

/-!
A text is read twice, once cut into pieces and once as lexemes. The two readings have different
names, numbers and blanks, but where the text can be cut they agree on everything that matters for
a list of arguments: brackets, commas and literals are the same, a run of word characters is at
least one piece and at least one lexeme, and nothing else is seen by one reading alone but white
space that is no blank.
-/

namespace AllowedValues.Source

/-- White space that the lexemes of an argument list do not pass over. -/
def Piece.isStray (p : Piece) : Bool :=
  p.role = .space && !p.text.all Argument.Lexeme.isBlank

/-- Words, numbers, dots and other marks: what the two readings may see differently. -/
def Kind.isPlain : Kind → Bool
  | .ident | .number | .dot | .punct => true
  | _ => false

end AllowedValues.Source

namespace AllowedValues.Argument

open Source (Kind Piece)
open Source.Piece (Reaches CutsBefore cut? cut?_nil cut?_cons_eq_some_iff reaches_of_reach?)
open Lexeme (isBlank isNameStart isNamePart lexFrom quotedReach)

namespace Lexeme

/-- The classes of lexemes for plain code and for characters of no class. -/
def Class.isPlain : Class → Bool
  | .ident | .number | .dot | .operator | .unknown => true
  | _ => false

/-- The class of the lexeme that a code unit must be, unless it is plain. -/
def Class.ofUnit? : Kind → Text → Option Class
  | .comma, _ => some .comma
  | .opening b, _ => some (.opening b)
  | .closing b, _ => some (.closing b)
  | .literal, '"' :: _ => some .interpretedString
  | .literal, '`' :: _ => some .rawString
  | .literal, _ => some .rune
  | _, _ => none

end Lexeme

/-- The lexemes that begin at byte `start` are a second reading of the pieces. -/
inductive Rereads : Nat → List Piece → List Lexeme → Prop
  | nil {start : Nat} : Rereads start [] []
  | layout {start : Nat} {p : Piece} {ps : List Piece} {ls : List Lexeme} :
      p.kind? = none → p.isStray = false → Rereads (start + p.text.byteSize) ps ls →
      Rereads start (p :: ps) ls
  | stray {start : Nat} {p : Piece} {cls : Lexeme.Class} {ps : List Piece} {ls : List Lexeme} :
      p.isStray = true → cls.isPlain = true → Rereads (start + p.text.byteSize) ps ls →
      Rereads start (p :: ps) (⟨cls, start, p.text⟩ :: ls)
  | unit {start : Nat} {p : Piece} {kind : Kind} {cls : Lexeme.Class} {ps : List Piece}
      {ls : List Lexeme} :
      p.kind? = some kind → Lexeme.Class.ofUnit? kind p.text = some cls →
      Rereads (start + p.text.byteSize) ps ls →
      Rereads start (p :: ps) (⟨cls, start, p.text⟩ :: ls)
  | plain {start : Nat} {word ps : List Piece} {word' ls : List Lexeme} :
      word ≠ [] → (∀ p ∈ word, ∃ kind, p.kind? = some kind ∧ kind.isPlain = true) →
      word' ≠ [] → (∀ l ∈ word', l.cls.isPlain = true) →
      Rereads (start + (Source.Piece.spelling word).byteSize) ps ls →
      Rereads start (word ++ ps) (word' ++ ls)

theorem kind?_of_isStray {p : Piece} (h : p.isStray = true) : p.kind? = none := by
  rw [Piece.isStray, Bool.and_eq_true, decide_eq_true_eq] at h
  rw [Piece.kind?, h.1]

theorem Rereads.plain_cons {start : Nat} {p : Piece} {kind : Kind} {cls : Lexeme.Class}
    {ps : List Piece} {ls : List Lexeme} (hkind : p.kind? = some kind)
    (hplain : kind.isPlain = true) (hcls : cls.isPlain = true)
    (h : Rereads (start + p.text.byteSize) ps ls) :
    Rereads start (p :: ps) (⟨cls, start, p.text⟩ :: ls) := by
  refine @Rereads.plain start [p] ps [_] ls (by simp) ?_ (by simp) ?_ ?_
  · simpa using ⟨kind, hkind, hplain⟩
  · simpa using hcls
  · simpa using h

theorem lexFrom_nil (start : Nat) : lexFrom start [] = [] := by rw [lexFrom]

theorem lexFrom_cons_of_some {c : Char} {s : Text} {cls : Lexeme.Class} {n : Nat}
    (h : Lexeme.reach c s = (some cls, n)) (start : Nat) :
    lexFrom start (c :: s) = ⟨cls, start, c :: s.take n⟩ ::
      lexFrom (start + Text.byteSize (c :: s.take n)) (s.drop n) := by
  rw [lexFrom, h]

theorem lexFrom_cons_of_none {c : Char} {s : Text} {n : Nat}
    (h : Lexeme.reach c s = (none, n)) (start : Nat) :
    lexFrom start (c :: s) =
      lexFrom (start + Text.byteSize (c :: s.take n)) (s.drop n) := by
  rw [lexFrom, h]

/-- The brackets and the comma, which both readings know by the character. -/
def marks : List Char := [',', '(', '[', '{', ')', ']', '}']

theorem ofUnit?_ofChar {c : Char} (h : c ∈ marks) :
    Lexeme.Class.ofUnit? (Kind.ofChar c) [c] = some (Lexeme.Class.ofChar c) := by
  simp only [marks, List.mem_cons, List.not_mem_nil, or_false] at h
  rcases h with rfl | rfl | rfl | rfl | rfl | rfl | rfl <;> rfl

theorem ofBracket?_eq_none {c : Char} (h : c ∉ marks) :
    Bracket.ofOpening? c = none ∧ Bracket.ofClosing? c = none := by
  simp only [marks, List.mem_cons, List.not_mem_nil, or_false, not_or] at h
  constructor
  · unfold Bracket.ofOpening?
    split <;> simp_all
  · unfold Bracket.ofClosing?
    split <;> simp_all

theorem isPlain_ofChar {c : Char} (h : c ∉ marks) :
    (Kind.ofChar c).isPlain = true ∧ (Lexeme.Class.ofChar c).isPlain = true := by
  have hcomma : c ≠ ',' := by
    rintro rfl
    exact h (by decide)
  rw [Kind.ofChar, Lexeme.Class.ofChar, (ofBracket?_eq_none h).1, (ofBracket?_eq_none h).2,
    if_neg hcomma, if_neg hcomma]
  split_ifs <;> exact ⟨rfl, rfl⟩

theorem notMem_marks_of_isWordPart {c : Char} (h : isWordPart c = true) : c ∉ marks := by
  intro hc
  have hmarks : marks.all (fun d => !isWordPart d) = true := by decide
  have hmiss := List.all_eq_true.1 hmarks c hc
  simp [h] at hmiss

theorem notMem_marks_of_isWhiteSpace {c : Char} (h : Unicode.isWhiteSpace c = true) :
    c ∉ marks := by
  intro hc
  have hmarks : marks.all (fun d => !Unicode.isWhiteSpace d) = true := by decide
  have hmiss := List.all_eq_true.1 hmarks c hc
  simp [h] at hmiss

theorem reach_of_isWordPart {c : Char} (h : isWordPart c = true) (s : Text) :
    Lexeme.reach c s =
      if isNameStart c then (some .ident, (s.takeWhile isNamePart).length)
      else if c.isDigit then
        (some .number, (s.takeWhile fun d => isNamePart d || d = '.').length)
      else (some (Lexeme.Class.ofChar c), 0) := by
  have hblank : ¬ isBlank c = true := fun hblank => by
    have hspace := isWhiteSpace_of_isBlank hblank
    rw [isWhiteSpace_of_isWordPart h] at hspace
    exact absurd hspace (by decide)
  have hdouble : c ≠ '"' := ne_of_isWordPart h (by decide)
  have hsingle : c ≠ '\'' := ne_of_isWordPart h (by decide)
  have hraw : c ≠ '`' := ne_of_isWordPart h (by decide)
  have hslash : c ≠ '/' := ne_of_isWordPart h (by decide)
  rw [Lexeme.reach, if_neg hblank, if_neg hdouble, if_neg hsingle, if_neg hraw,
    if_neg (fun h => hslash h.1), if_neg (fun h => hslash h.1)]

section Words

variable {c : Char} {w t : Text} (ht : ∀ d, t.head? = some d → isWordPart d = false)

include ht

theorem head?_miss {p : Char → Bool} (hp : ∀ d, p d = true → isWordPart d = true) :
    ∀ d, t.head? = some d → p d = false := by
  intro d hd
  rw [Bool.eq_false_iff]
  intro hpd
  exact absurd (ht d hd) (by simp [hp d hpd])

theorem exists_reach?_of_word (hc : isWordPart c = true) : ∃ kind n,
    Source.Piece.reach? c (w ++ t) = some (.code kind, n) ∧ kind.isPlain = true ∧
      n ≤ w.length := by
  rw [Source.Piece.reach?_of_isWordPart hc]
  split_ifs
  · exact ⟨_, _, rfl, rfl, Text.length_takeWhile_append_le
      (head?_miss ht fun _ => isWordPart_of_isIdentifierPart)⟩
  · refine ⟨_, _, rfl, rfl, Text.length_takeWhile_append_le (head?_miss ht fun d hd => ?_)⟩
    rwa [isWordPart]
  · exact ⟨_, _, rfl, (isPlain_ofChar (notMem_marks_of_isWordPart hc)).1,
      Nat.zero_le _⟩

theorem exists_reach_of_word (hc : isWordPart c = true) : ∃ cls n,
    Lexeme.reach c (w ++ t) = (some cls, n) ∧ cls.isPlain = true ∧ n ≤ w.length := by
  rw [reach_of_isWordPart hc]
  split_ifs
  · exact ⟨_, _, rfl, rfl, Text.length_takeWhile_append_le
      (head?_miss ht fun _ => isWordPart_of_isNamePart)⟩
  · refine ⟨_, _, rfl, rfl, Text.length_takeWhile_append_le (head?_miss ht fun d hd => ?_)⟩
    simp only [Bool.or_eq_true, decide_eq_true_eq] at hd
    rcases hd with hd | rfl
    · exact isWordPart_of_isNamePart hd
    · decide
  · exact ⟨_, _, rfl, (isPlain_ofChar (notMem_marks_of_isWordPart hc)).2,
      Nat.zero_le _⟩

end Words

/-- A run of word characters is cut into plain code, whatever comes after it. -/
theorem exists_cutsBefore_of_word {t : Text} (ht : ∀ d, t.head? = some d → isWordPart d = false)
    (w : Text) (hw : ∀ c ∈ w, isWordPart c = true) : ∃ ps,
      CutsBefore w ps t ∧ Source.Piece.spelling ps = w ∧ (w ≠ [] → ps ≠ []) ∧
        ∀ p ∈ ps, ∃ kind, p.kind? = some kind ∧ kind.isPlain = true := by
  match w with
  | [] => exact ⟨[], .nil t, rfl, fun h => absurd rfl h, by simp⟩
  | c :: w =>
      obtain ⟨kind, n, hreach, hplain, hn⟩ := exists_reach?_of_word (w := w) ht (hw c (by simp))
      obtain ⟨ps, hcuts, hspelling, -, hps⟩ := exists_cutsBefore_of_word ht (w.drop n)
        fun d hd => hw d (List.mem_cons_of_mem _ (List.mem_of_mem_drop hd))
      refine ⟨⟨.code kind, c :: w.take n⟩ :: ps, ?_, ?_, fun _ => List.cons_ne_nil _ _, ?_⟩
      · rw [CutsBefore] at hcuts ⊢
        rw [List.cons_append, Source.Piece.cut?_cons hreach, List.drop_append_of_le_length hn,
          hcuts, List.take_append_of_le_length hn, Option.map_map]
        rfl
      · rw [Source.Piece.spelling_cons, hspelling, List.cons_append, List.take_append_drop]
      · intro p hp
        rcases List.mem_cons.1 hp with rfl | hp
        · exact ⟨kind, rfl, hplain⟩
        · exact hps p hp
termination_by w.length
decreasing_by simp only [List.length_cons, List.length_drop]; omega

theorem exists_lexFrom_of_word {t : Text} (ht : ∀ d, t.head? = some d → isWordPart d = false)
    (start : Nat) (w : Text) (hw : ∀ c ∈ w, isWordPart c = true) : ∃ ls,
      lexFrom start (w ++ t) = ls ++ lexFrom (start + w.byteSize) t ∧ (w ≠ [] → ls ≠ []) ∧
        ∀ l ∈ ls, l.cls.isPlain = true := by
  match w with
  | [] => exact ⟨[], rfl, fun h => absurd rfl h, by simp⟩
  | c :: w =>
      obtain ⟨cls, n, hreach, hplain, hn⟩ := exists_reach_of_word (w := w) ht (hw c (by simp))
      obtain ⟨ls, hlex, -, hls⟩ := exists_lexFrom_of_word ht
        (start + Text.byteSize (c :: w.take n)) (w.drop n)
        fun d hd => hw d (List.mem_cons_of_mem _ (List.mem_of_mem_drop hd))
      have hsize : start + Text.byteSize (c :: w.take n) + Text.byteSize (w.drop n) =
          start + Text.byteSize (c :: w) := by
        rw [Nat.add_assoc, ← Text.byteSize_append, List.cons_append, List.take_append_drop]
      refine ⟨⟨cls, start, c :: w.take n⟩ :: ls, ?_, fun _ => List.cons_ne_nil _ _, ?_⟩
      · rw [List.cons_append, lexFrom_cons_of_some hreach, List.take_append_of_le_length hn,
          List.drop_append_of_le_length hn, hlex, hsize, List.cons_append]
      · intro l hl
        rcases List.mem_cons.1 hl with rfl | hl
        · exact hplain
        · exact hls l hl
termination_by w.length
decreasing_by simp only [List.length_cons, List.length_drop]; omega

theorem reach_of_quoted {c : Char} {s : Text} {n : Nat} (hquote : c = '"' ∨ c = '\'')
    (h : Literal.closedLength? c s = some n) (text : Text) : ∃ cls,
      Lexeme.Class.ofUnit? .literal (c :: text) = some cls ∧ Lexeme.reach c s = (some cls, n) := by
  rcases hquote with rfl | rfl
  · refine ⟨.interpretedString, rfl, ?_⟩
    rw [Lexeme.reach, if_neg (by decide), if_pos rfl, quotedReach, h]
  · refine ⟨.rune, rfl, ?_⟩
    rw [Lexeme.reach, if_neg (by decide), if_neg (by decide), if_pos rfl, quotedReach, h]

theorem reach_of_raw {s : Text} {n : Nat} (h : Literal.rawLength? s = some n) :
    Lexeme.reach '`' s = (some .rawString, n) := by
  rw [Lexeme.reach, if_neg (by decide), if_neg (by decide), if_neg (by decide), if_pos rfl, h]

theorem reach_of_line {s : Text} (h : s.head? = some '/') :
    Lexeme.reach '/' s = (none, Literal.lineLength s) := by
  rw [Lexeme.reach, if_neg (by decide), if_neg (by decide), if_neg (by decide),
    if_neg (by decide), if_pos ⟨rfl, h⟩]

theorem reach_of_block {s : Text} {n : Nat} (hhead : s.head? = some '*')
    (h : Literal.blockCommentLength? (s.drop 1) = some n) :
    Lexeme.reach '/' s = (none, n + 1) := by
  rw [Lexeme.reach, if_neg (by decide), if_neg (by decide), if_neg (by decide),
    if_neg (by decide), if_neg (by simp [hhead]), if_pos ⟨rfl, hhead⟩, h]

theorem reach_of_single {c : Char} {s : Text} (hblank : isBlank c = false)
    (hquote : ¬ (c = '"' ∨ c = '\'')) (hraw : c ≠ '`') (hline : ¬ (c = '/' ∧ s.head? = some '/'))
    (hblock : ¬ (c = '/' ∧ s.head? = some '*')) (hword : isWordPart c = false) :
    Lexeme.reach c s = (some (Lexeme.Class.ofChar c), 0) := by
  have hname : ¬ isNameStart c = true := fun h => by
    rw [isWordPart_of_isNamePart (isNamePart_of_isNameStart h)] at hword
    exact absurd hword (by decide)
  have hdigit : ¬ c.isDigit = true := fun h => by
    rw [isWordPart_of_isIdentifierPart (isIdentifierPart_of_isDigit h)] at hword
    exact absurd hword (by decide)
  rw [not_or] at hquote
  rw [Lexeme.reach, if_neg (by simp [hblank]), if_neg hquote.1, if_neg hquote.2, if_neg hraw,
    if_neg hline, if_neg hblock, if_neg hname, if_neg hdigit]

/-- What the lexemes make of a piece that does not begin with a word character. -/
theorem reach_cases {c : Char} {s : Text} {role : Source.Piece.Role} {n : Nat}
    (hword : isWordPart c = false) (h : Reaches c s role n) :
    ((⟨role, c :: s.take n⟩ : Piece).kind? = none ∧
        (⟨role, c :: s.take n⟩ : Piece).isStray = false ∧ Lexeme.reach c s = (none, n)) ∨
      ∃ cls, Lexeme.reach c s = (some cls, n) ∧
        ((⟨role, c :: s.take n⟩ : Piece).isStray = true ∧ cls.isPlain = true ∨
          ∃ kind, (⟨role, c :: s.take n⟩ : Piece).kind? = some kind ∧
            (Lexeme.Class.ofUnit? kind (c :: s.take n) = some cls ∨
              kind.isPlain = true ∧ cls.isPlain = true)) := by
  cases h with
  | space hspace =>
      by_cases hblank : isBlank c = true
      · refine Or.inl ⟨rfl, by simp [Piece.isStray, hblank], ?_⟩
        rw [Lexeme.reach, if_pos hblank]
      · -- White space that is no blank begins nothing else, so the lexemes read it as one unit.
        rw [Bool.not_eq_true] at hblank
        have hdiff {d : Char} (hd : Unicode.isWhiteSpace d = false) : c ≠ d := by
          rintro rfl
          rw [hspace] at hd
          exact absurd hd (by decide)
        refine Or.inr ⟨Lexeme.Class.ofChar c, ?_, Or.inl ⟨?_, ?_⟩⟩
        · exact reach_of_single hblank (not_or.2 ⟨hdiff (by decide), hdiff (by decide)⟩)
            (hdiff (by decide)) (fun h => hdiff (by decide) h.1) (fun h => hdiff (by decide) h.1)
            hword
        · simp [Piece.isStray, hblank]
        · exact (isPlain_ofChar (notMem_marks_of_isWhiteSpace hspace)).2
  | quoted hquote hn =>
      obtain ⟨cls, hunit, hreach⟩ := reach_of_quoted hquote hn (s.take n)
      exact Or.inr ⟨cls, hreach, Or.inr ⟨.literal, rfl, Or.inl hunit⟩⟩
  | raw hraw hn =>
      subst hraw
      exact Or.inr ⟨.rawString, reach_of_raw hn, Or.inr ⟨.literal, rfl, Or.inl rfl⟩⟩
  | line hslash hhead =>
      subst hslash
      exact Or.inl ⟨rfl, rfl, reach_of_line hhead⟩
  | block hslash hhead hn =>
      subst hslash
      exact Or.inl ⟨rfl, rfl, reach_of_block hhead hn⟩
  | ident hident =>
      rw [isWordPart_of_isIdentifierPart (isIdentifierPart_of_isIdentifierStart hident)] at hword
      exact absurd hword (by decide)
  | number _ hdigit =>
      rw [isWordPart_of_isIdentifierPart (isIdentifierPart_of_isDigit hdigit)] at hword
      exact absurd hword (by decide)
  | single hspace hquote hraw hline hblock _ _ =>
      -- Only brackets and the comma are the same to both; every other character is plain.
      have hblank : isBlank c = false := by
        rw [Bool.eq_false_iff]
        intro hblank
        rw [isWhiteSpace_of_isBlank hblank] at hspace
        exact absurd hspace (by decide)
      refine Or.inr ⟨_, reach_of_single hblank hquote hraw hline hblock hword,
        Or.inr ⟨_, rfl, ?_⟩⟩
      by_cases hmark : c ∈ marks
      · exact Or.inl (ofUnit?_ofChar hmark)
      · exact Or.inr (isPlain_ofChar hmark)

/-- Where a text can be cut, its lexemes are a second reading of its pieces. -/
theorem rereads_of_cut? {s : Text} {ps : List Piece} (h : cut? s = some ps) (start : Nat) :
    Rereads start ps (lexFrom start s) := by
  match s with
  | [] =>
      rw [cut?_nil] at h
      rw [← Option.some.inj h, lexFrom_nil]
      exact .nil
  | c :: s =>
      by_cases hword : isWordPart c = true
      · -- The two readings part a word differently, so they are compared at its end.
        have hrest := Text.head?_dropWhile isWordPart (c :: s)
        have hrun : ∀ d ∈ (c :: s).takeWhile isWordPart, isWordPart d = true :=
          fun d hd => List.mem_takeWhile_imp hd
        have hne : (c :: s).takeWhile isWordPart ≠ [] := by simp [hword]
        obtain ⟨word, hcuts, hspelling, hpieces, hplain⟩ :=
          exists_cutsBefore_of_word hrest _ hrun
        obtain ⟨word', hlex, hlexemes, hplain'⟩ := exists_lexFrom_of_word hrest start _ hrun
        rw [← List.takeWhile_append_dropWhile (p := isWordPart) (l := c :: s)] at h ⊢
        rw [hcuts] at h
        obtain ⟨rest, hcut, rfl⟩ := Option.map_eq_some_iff.1 h
        rw [hlex]
        refine .plain (hpieces hne) hplain (hlexemes hne) hplain' ?_
        rw [hspelling]
        exact rereads_of_cut? hcut _
      · -- Anywhere else a piece and what the lexemes make of it end at the same place.
        rw [Bool.not_eq_true] at hword
        obtain ⟨role, n, rest, hreach, hcut, rfl⟩ := cut?_cons_eq_some_iff.1 h
        have hnext := rereads_of_cut? hcut (start + Text.byteSize (c :: s.take n))
        rcases reach_cases hword (reaches_of_reach? hreach) with
          ⟨hkind, hstray, hlex⟩ | ⟨cls, hlex, ⟨hstray, hcls⟩ | ⟨kind, hkind, hunit | ⟨hk, hcls⟩⟩⟩
        · rw [lexFrom_cons_of_none hlex]
          exact .layout hkind hstray hnext
        · rw [lexFrom_cons_of_some hlex]
          exact .stray hstray hcls hnext
        · rw [lexFrom_cons_of_some hlex]
          exact .unit hkind hunit hnext
        · rw [lexFrom_cons_of_some hlex]
          exact .plain_cons hkind hk hcls hnext
termination_by s.length
decreasing_by
  · rw [List.dropWhile_cons_of_pos hword, List.length_cons]
    exact Nat.lt_succ_of_le (List.dropWhile_suffix isWordPart).length_le
  · simp only [List.length_cons, List.length_drop]; omega

end AllowedValues.Argument
