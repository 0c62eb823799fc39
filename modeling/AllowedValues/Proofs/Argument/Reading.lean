import AllowedValues.Proofs.Argument.Rereading

/-!
What the text of an argument list may begin with. It is passed over, or is a lexeme of a class, or a
lexeme of no class: a literal that breaks off, a comment that is never closed or a character that
begins nothing. Exactly one of these is possible, and lexemes reach as far as it does.
-/

namespace AllowedValues.Argument

open Lexeme (isBlank isNameStart isNamePart isOperator quotedReach reach)
open Literal (BreaksOff IsCommentBody Units)

/-- The quotes of literals with escapes. -/
def quotes : List (Char × Lexeme.Class) := [('"', .interpretedString), ('\'', .rune)]

/-- A character that is a lexeme by itself, unless it is a slash that opens a comment. -/
def IsMark (c : Char) : Prop := c ∈ '.' :: marks ∨ isOperator c = true

/-- A character after a digit that belongs to the number. -/
def isNumberPart (c : Char) : Bool := isNamePart c || c = '.'

/-- What is passed over where it is the beginning of a text, `rest` being what comes after it. -/
inductive Skipped : Text → Text → Prop
  | blank {c : Char} {rest : Text} : isBlank c = true → Skipped [c] rest
  | line {body rest : Text} : '\n' ∉ body → Text.AfterLine rest →
      Skipped ('/' :: '/' :: body) rest
  | block {body rest : Text} : IsCommentBody body →
      Skipped ('/' :: '*' :: (body ++ ['*', '/'])) rest

/-- What is a lexeme of a class where it is the beginning of a text. -/
inductive Classified : Lexeme.Class → Text → Text → Prop
  | quoted {quote : Char} {cls : Lexeme.Class} {body rest : Text} : (quote, cls) ∈ quotes →
      Units quote body → Classified cls (quote :: (body ++ [quote])) rest
  | raw {body rest : Text} : '`' ∉ body → Classified .rawString ('`' :: (body ++ ['`'])) rest
  | ident {c : Char} {s rest : Text} : isNameStart c = true → (∀ d ∈ s, isNamePart d = true) →
      (∀ d, rest.head? = some d → isNamePart d = false) → Classified .ident (c :: s) rest
  | number {c : Char} {s rest : Text} : c.isDigit = true → (∀ d ∈ s, isNumberPart d = true) →
      (∀ d, rest.head? = some d → isNumberPart d = false) → Classified .number (c :: s) rest
  | mark {c : Char} {rest : Text} : IsMark c →
      ¬ (c = '/' ∧ (rest.head? = some '/' ∨ rest.head? = some '*')) →
      Classified (Lexeme.Class.ofChar c) [c] rest

/-- What is a lexeme of no class where it is the beginning of a text. -/
inductive Unclassified : Text → Text → Prop
  | quoted {quote : Char} {cls : Lexeme.Class} {body rest : Text} : (quote, cls) ∈ quotes →
      Units quote body → BreaksOff rest → Unclassified (quote :: body) rest
  | raw {body : Text} : '`' ∉ body → Unclassified ('`' :: body) []
  | comment {rest : Text} : IsCommentBody rest → Unclassified ['/', '*'] rest
  | character {c : Char} {rest : Text} : isBlank c = false → c ∉ ['"', '\'', '`'] →
      isNameStart c = false → c.isDigit = false → ¬ IsMark c → Unclassified [c] rest

/-- What a text begins with, and the class of the lexeme that it is, if it is one. -/
inductive Reads : Option Lexeme.Class → Text → Text → Prop
  | skipped {text rest : Text} : Skipped text rest → Reads none text rest
  | classified {cls : Lexeme.Class} {text rest : Text} : Classified cls text rest →
      Reads (some cls) text rest
  | unclassified {text rest : Text} : Unclassified text rest → Reads (some .unknown) text rest

theorem IsMark.begins_nothing {c : Char} (h : IsMark c) : isBlank c = false ∧
    c ∉ ['"', '\'', '`'] ∧ isNameStart c = false ∧ c.isDigit = false := by
  have hmarks : ('.' :: marks ++ "-+*/%&|^<>=!:;~?".toList).all (fun d => isBlank d = false ∧
      d ∉ ['"', '\'', '`'] ∧ isNameStart d = false ∧ d.isDigit = false) = true := by
    decide
  refine of_decide_eq_true (List.all_eq_true.1 hmarks c (List.mem_append.2 (h.imp id ?_)))
  intro hop
  rwa [isOperator, List.contains_iff_mem] at hop

theorem ofChar_eq_unknown {c : Char} (h : ¬ IsMark c) : Lexeme.Class.ofChar c = .unknown := by
  rw [IsMark, not_or, List.mem_cons, not_or] at h
  have hcomma : c ≠ ',' := by
    rintro rfl
    exact h.1.2 (by decide)
  rw [Lexeme.Class.ofChar, if_neg hcomma, if_neg h.1.1, if_neg h.2, (ofBracket?_eq_none h.1.2).1,
    (ofBracket?_eq_none h.1.2).2]

theorem reads_of_quotedReach {quote : Char} {cls : Lexeme.Class} {cls? : Option Lexeme.Class}
    {s : Text} {n : Nat} (hquote : (quote, cls) ∈ quotes)
    (h : quotedReach cls quote s = (cls?, n)) : Reads cls? (quote :: s.take n) (s.drop n) := by
  have hslash : quote ≠ '\\' := by
    rintro rfl
    simp [quotes] at hquote
  rw [quotedReach] at h
  split at h
  · next m hclosed =>
      cases h
      obtain ⟨body, rest, rfl, hbody, rfl⟩ := (Literal.closedLength?_eq_some_iff hslash).1 hclosed
      rw [List.take_length_add_append]
      exact .classified (.quoted hquote hbody)
  · next hopen =>
      cases h
      refine .unclassified (.quoted hquote (Literal.units_take_bodyLength quote s) ?_)
      refine (Literal.head?_drop_bodyLength quote s).resolve_left fun hhead => ?_
      simp [Literal.closedLength?, hhead] at hopen

theorem quotedReach_of_units {quote : Char} (cls : Lexeme.Class) {body rest : Text}
    (hslash : quote ≠ '\\') (hbody : Units quote body) :
    quotedReach cls quote (body ++ quote :: rest) = (some cls, body.length + 1) := by
  rw [quotedReach, (Literal.closedLength?_eq_some_iff hslash).2 ⟨body, rest, rfl, hbody, rfl⟩]

theorem quotedReach_of_breaksOff {quote : Char} (cls : Lexeme.Class) {body rest : Text}
    (hslash : quote ≠ '\\') (hnewline : quote ≠ '\n') (hbody : Units quote body)
    (hrest : BreaksOff rest) :
    quotedReach cls quote (body ++ rest) = (some .unknown, body.length) := by
  have hlength := hbody.bodyLength_append_of_zero (hrest.bodyLength_eq quote)
  have hopen : Literal.closedLength? quote (body ++ rest) = none := by
    rw [Literal.closedLength?, hlength, List.drop_left, if_neg (hrest.head?_ne hslash hnewline)]
  rw [quotedReach, hopen, hlength]

/-- What a character reaches over is passed over, or is a lexeme of its class or of none. -/
theorem reads_of_reach {c : Char} {s : Text} {cls? : Option Lexeme.Class} {n : Nat}
    (h : reach c s = (cls?, n)) : Reads cls? (c :: s.take n) (s.drop n) := by
  rw [reach] at h
  split_ifs at h with hblank hdouble hsingle hraw hline hblock hname hdigit
  · cases h
    exact .skipped (.blank hblank)
  · subst hdouble
    exact reads_of_quotedReach (by decide) h
  · subst hsingle
    exact reads_of_quotedReach (by decide) h
  · subst hraw
    split at h
    · next m hclosed =>
        cases h
        obtain ⟨body, rest, rfl, hbody, rfl⟩ := Literal.rawLength?_eq_some_iff.1 hclosed
        rw [List.take_length_add_append]
        exact .classified (.raw hbody)
    · next hopen =>
        cases h
        rw [List.take_length, List.drop_length]
        exact .unclassified (.raw (Literal.rawLength?_eq_none_iff.1 hopen))
  · obtain ⟨rfl, hhead⟩ := hline
    obtain ⟨s, rfl⟩ := List.head?_eq_some_iff.1 hhead
    obtain ⟨body, rest, rfl, hbody, hparts, hrest⟩ := Text.exists_run (· ≠ '\n') s
    cases h
    rw [Literal.lineLength, List.takeWhile_cons_of_pos (by decide), hbody, List.length_cons,
      List.take_succ_cons, List.take_left, List.drop_succ_cons, List.drop_left]
    refine .skipped (.line (fun hmem => by simpa using hparts _ hmem) ?_)
    cases rest with
    | nil => exact .inl rfl
    | cons d rest => exact .inr (by simpa using hrest d rfl)
  · obtain ⟨rfl, hhead⟩ := hblock
    obtain ⟨s, rfl⟩ := List.head?_eq_some_iff.1 hhead
    rw [List.drop_succ_cons, List.drop_zero] at h
    split at h
    · next m hclosed =>
        cases h
        obtain ⟨body, rest, rfl, hbody, rfl⟩ := Literal.blockCommentLength?_eq_some_iff.1 hclosed
        rw [List.take_succ_cons, List.take_length_add_append, List.drop_succ_cons,
          List.drop_length_add_append]
        exact .skipped (.block hbody)
    · next hopen =>
        cases h
        exact .unclassified (.comment (Literal.blockCommentLength?_eq_none_iff.1 hopen))
  · obtain ⟨run, rest, rfl, hrun, hparts, hrest⟩ := Text.exists_run isNamePart s
    cases h
    rw [hrun, List.take_left, List.drop_left]
    exact .classified (.ident hname hparts hrest)
  · obtain ⟨run, rest, rfl, hrun, hparts, hrest⟩ := Text.exists_run isNumberPart s
    cases h
    change Reads _ (c :: (run ++ rest).take ((run ++ rest).takeWhile isNumberPart).length)
      ((run ++ rest).drop ((run ++ rest).takeWhile isNumberPart).length)
    rw [hrun, List.take_left, List.drop_left]
    exact .classified (.number hdigit hparts hrest)
  · cases h
    by_cases hmark : IsMark c
    · refine .classified (.mark hmark ?_)
      rintro ⟨rfl, hhead | hhead⟩
      · exact hline ⟨rfl, hhead⟩
      · exact hblock ⟨rfl, hhead⟩
    · rw [ofChar_eq_unknown hmark]
      simp only [Bool.not_eq_true] at hblank hname hdigit
      exact .unclassified (.character hblank (by simp [hdouble, hsingle, hraw]) hname hdigit hmark)

theorem ne_of_mem_quotes {quote : Char} {cls : Lexeme.Class} (h : (quote, cls) ∈ quotes) :
    quote ≠ '\\' ∧ quote ≠ '\n' := by
  constructor
  · rintro rfl
    simp [quotes] at h
  · rintro rfl
    simp [quotes] at h

theorem reach_of_quote {quote : Char} {cls : Lexeme.Class} (h : (quote, cls) ∈ quotes) (s : Text) :
    reach quote s = quotedReach cls quote s := by
  simp only [quotes, List.mem_cons, List.not_mem_nil, or_false, Prod.mk.injEq] at h
  rcases h with ⟨rfl, rfl⟩ | ⟨rfl, rfl⟩
  · rw [reach, if_neg (by decide), if_pos rfl]
  · rw [reach, if_neg (by decide), if_neg (by decide), if_pos rfl]

theorem Skipped.exists_reach {text rest : Text} (h : Skipped text rest) :
    ∃ c s, text = c :: s ∧ reach c (s ++ rest) = (none, s.length) := by
  cases h with
  | @blank c _ hblank => exact ⟨c, [], rfl, by rw [reach, if_pos hblank]; rfl⟩
  | @line body _ hbody hrest =>
      refine ⟨'/', '/' :: body, rfl, ?_⟩
      have hslash : '\n' ∉ '/' :: body := by simp [hbody]
      rw [reach_of_line rfl, Literal.lineLength_append hslash hrest]
  | @block body _ hbody =>
      refine ⟨'/', '*' :: (body ++ ['*', '/']), rfl, ?_⟩
      have hreach := @reach_of_block ('*' :: (body ++ '*' :: '/' :: rest)) _ rfl
        (hbody.blockCommentLength?_append rest)
      rw [List.cons_append, List.append_assoc]
      exact hreach.trans (by simp)

theorem reach_of_character {c : Char} {s : Text} (hblank : isBlank c = false)
    (hquote : c ∉ ['"', '\'', '`']) (hname : isNameStart c = false) (hdigit : c.isDigit = false)
    (hcomment : ¬ (c = '/' ∧ (s.head? = some '/' ∨ s.head? = some '*'))) :
    reach c s = (some (Lexeme.Class.ofChar c), 0) := by
  simp only [List.mem_cons, List.not_mem_nil, or_false, not_or] at hquote
  rw [reach, if_neg (by simp [hblank]), if_neg hquote.1, if_neg hquote.2.1, if_neg hquote.2.2,
    if_neg fun h => hcomment ⟨h.1, .inl h.2⟩, if_neg fun h => hcomment ⟨h.1, .inr h.2⟩,
    if_neg (by simp [hname]), if_neg (by simp [hdigit])]

theorem Classified.exists_reach {cls : Lexeme.Class} {text rest : Text}
    (h : Classified cls text rest) :
    ∃ c s, text = c :: s ∧ reach c (s ++ rest) = (some cls, s.length) := by
  cases h with
  | @quoted quote cls body _ hquote hbody =>
      refine ⟨quote, body ++ [quote], rfl, ?_⟩
      rw [reach_of_quote hquote, List.append_assoc, List.singleton_append,
        quotedReach_of_units cls (ne_of_mem_quotes hquote).1 hbody, List.length_append]
      rfl
  | @raw body _ hbody =>
      refine ⟨'`', body ++ ['`'], rfl, ?_⟩
      rw [List.append_assoc, List.singleton_append, reach_of_raw
        (Literal.rawLength?_eq_some_iff.2 ⟨body, rest, rfl, hbody, rfl⟩), List.length_append]
      rfl
  | @ident c s _ hname hparts hrest =>
      have hword := isWordPart_of_isNamePart (isNamePart_of_isNameStart hname)
      refine ⟨c, s, rfl, ?_⟩
      rw [reach_of_isWordPart hword, if_pos hname, Text.takeWhile_append_eq hparts hrest]
  | @number c s _ hdigit hparts hrest =>
      have hword := isWordPart_of_isIdentifierPart (isIdentifierPart_of_isDigit hdigit)
      have hrun : (s ++ rest).takeWhile (fun d => isNamePart d || d = '.') = s :=
        Text.takeWhile_append_eq hparts hrest
      refine ⟨c, s, rfl, ?_⟩
      rw [reach_of_isWordPart hword, if_neg (by simp [isNameStart_of_isDigit hdigit]),
        if_pos hdigit, hrun]
  | @mark c _ hmark hcomment =>
      obtain ⟨hblank, hquote, hname, hdigit⟩ := hmark.begins_nothing
      exact ⟨c, [], rfl, reach_of_character hblank hquote hname hdigit hcomment⟩

theorem Unclassified.exists_reach {text rest : Text} (h : Unclassified text rest) :
    ∃ c s, text = c :: s ∧ reach c (s ++ rest) = (some .unknown, s.length) := by
  cases h with
  | @quoted quote cls body _ hquote hbody hrest =>
      obtain ⟨hslash, hnewline⟩ := ne_of_mem_quotes hquote
      refine ⟨quote, body, rfl, ?_⟩
      rw [reach_of_quote hquote, quotedReach_of_breaksOff cls hslash hnewline hbody hrest]
  | @raw body hbody =>
      refine ⟨'`', body, rfl, ?_⟩
      rw [List.append_nil, reach, if_neg (by decide), if_neg (by decide), if_neg (by decide),
        if_pos rfl, Literal.rawLength?_eq_none_iff.2 hbody]
  | comment hrest =>
      refine ⟨'/', ['*'], rfl, ?_⟩
      rw [reach, if_neg (by decide), if_neg (by decide), if_neg (by decide), if_neg (by decide),
        if_neg (by simp), if_pos ⟨rfl, rfl⟩, List.singleton_append, List.drop_succ_cons,
        List.drop_zero, Literal.blockCommentLength?_eq_none_iff.2 hrest]
      rfl
  | @character c _ hblank hquote hname hdigit hmark =>
      have hslash : c ≠ '/' := by
        rintro rfl
        exact hmark (.inr (by decide))
      refine ⟨c, [], rfl, ?_⟩
      rw [← ofChar_eq_unknown hmark]
      exact reach_of_character hblank hquote hname hdigit fun h => hslash h.1

theorem Reads.exists_reach {cls? : Option Lexeme.Class} {text rest : Text}
    (h : Reads cls? text rest) :
    ∃ c s, text = c :: s ∧ reach c (s ++ rest) = (cls?, s.length) := by
  cases h with
  | skipped h => exact h.exists_reach
  | classified h => exact h.exists_reach
  | unclassified h => exact h.exists_reach

theorem Reads.byteSize_pos {cls? : Option Lexeme.Class} {text rest : Text}
    (h : Reads cls? text rest) :
    0 < text.byteSize := by
  obtain ⟨c, s, rfl, -⟩ := h.exists_reach
  exact Nat.lt_of_lt_of_le c.utf8Size_pos (Nat.le_add_right _ _)

/-- A text begins with one thing only. -/
theorem Reads.eq {cls? cls?' : Option Lexeme.Class} {text rest text' rest' : Text}
    (h : Reads cls? text rest) (h' : Reads cls?' text' rest')
    (hsame : text ++ rest = text' ++ rest') : cls? = cls?' ∧ text = text' := by
  obtain ⟨c, s, rfl, hreach⟩ := h.exists_reach
  obtain ⟨d, t, rfl, hreach'⟩ := h'.exists_reach
  rw [List.cons_append, List.cons_append] at hsame
  obtain ⟨rfl, htail⟩ := List.cons.inj hsame
  rw [htail] at hreach
  obtain ⟨hcls, hlength⟩ := Prod.mk.inj (hreach.symm.trans hreach')
  exact ⟨hcls, congrArg (c :: ·) (List.append_inj_left htail hlength)⟩

end AllowedValues.Argument
