import AllowedValues.Proofs.Source.Cut

/-!
Where a text can be parted. A piece looks at the one character after it and no further. So a text
that can be cut is cut alike before every other text, unless its last piece goes on with the first
character of that text.
-/

namespace AllowedValues.Source.Piece

/-- Whether a piece would not end, or not be what it is, with the character `d` after it. -/
def goesOn (p : Piece) (d : Char) : Bool :=
  match p.role with
  | .comment => p.text[1]? = some '/' && d ≠ '\n'
  | .code .ident => isIdentifierPart d
  | .code .number => isIdentifierPart d || d = '.'
  | .code .punct => p.text = ['/'] && (d = '/' || d = '*')
  | _ => false

theorem goesOn_ofChar (c d : Char) : goesOn ⟨.code (Kind.ofChar c), [c]⟩ d =
    (c = '/' && (d = '/' || d = '*')) := by
  by_cases hc : c = '/'
  · subst hc
    rfl
  · rw [decide_eq_false hc, Bool.false_and, Kind.ofChar]
    split_ifs
    · rfl
    · rfl
    · split <;> simp [goesOn, hc]

/-- A piece that ends with a part of a text is one of that part, and does not go on. -/
theorem Reaches.ends {c : Char} {s rest : Text} {role : Role}
    (h : Reaches c (s ++ rest) role s.length) :
    Reaches c s role s.length ∧ ∀ d ∈ rest.head?, goesOn ⟨role, c :: s⟩ d = false := by
  refine ⟨h.of_append le_rfl, ?_⟩
  generalize hn : s.length = n at h
  intro d hd
  cases h with
  | space _ => rfl
  | quoted _ _ => rfl
  | raw _ _ => rfl
  | line hslash hhead =>
      have hnewline := Text.eq_false_of_length_takeWhile hn.symm d hd
      simpa [goesOn] using fun _ => hnewline
  | block hslash hhead hclosed =>
      have hs : s ≠ [] := by
        rintro rfl
        simp at hn
      rw [head?_of_append hs, List.head?_eq_getElem?] at hhead
      simp [goesOn, hhead]
  | ident _ => exact Text.eq_false_of_length_takeWhile hn.symm d hd
  | number _ _ => exact Text.eq_false_of_length_takeWhile hn.symm d hd
  | single _ _ _ hline hblock _ _ =>
      obtain rfl := List.length_eq_zero_iff.1 hn
      rw [List.nil_append] at hline hblock
      rw [goesOn_ofChar, Bool.and_eq_false_iff]
      by_cases hc : c = '/'
      · simp_all
      · exact Or.inl (decide_eq_false hc)

/-- A piece of a text is a piece before any other text as well, if it does not go on. -/
theorem Reaches.before {c : Char} {s rest : Text} {role : Role} (h : Reaches c s role s.length)
    (hend : ∀ d ∈ rest.head?, goesOn ⟨role, c :: s⟩ d = false) :
    Reaches c (s ++ rest) role s.length := by
  generalize hn : s.length = n at h ⊢
  cases h with
  | space hspace => exact .space hspace
  | quoted hquote hclosed =>
      rw [Literal.closedLength?_eq_some_iff (quote_ne_backslash hquote)] at hclosed
      obtain ⟨body, after, rfl, hbody, rfl⟩ := hclosed
      refine .quoted hquote ?_
      rw [Literal.closedLength?_eq_some_iff (quote_ne_backslash hquote)]
      exact ⟨body, after ++ rest, by simp, hbody, rfl⟩
  | raw hraw hclosed =>
      obtain ⟨body, after, rfl, hbody, rfl⟩ := Literal.rawLength?_eq_some_iff.1 hclosed
      refine .raw hraw ?_
      exact Literal.rawLength?_eq_some_iff.2 ⟨body, after ++ rest, by simp, hbody, rfl⟩
  | line hslash hhead =>
      have hnewline : ∀ d ∈ rest.head?, decide (d ≠ '\n') = false := by
        intro d hd
        rw [List.head?_eq_getElem?] at hhead
        simpa [goesOn, hhead] using hend d hd
      rw [Literal.lineLength, ← Text.takeWhile_append_of_head? hnewline]
      refine .line hslash ?_
      rw [List.head?_append, hhead, Option.some_or]
  | block hslash hhead hclosed =>
      obtain ⟨body, after, hs, hbody, rfl⟩ := Literal.blockCommentLength?_eq_some_iff.1 hclosed
      have hlong : 1 ≤ s.length := by omega
      refine .block hslash ?_ ?_
      · rw [List.head?_append, hhead, Option.some_or]
      · rw [List.drop_append_of_le_length hlong, hs]
        exact Literal.blockCommentLength?_eq_some_iff.2 ⟨body, after ++ rest, by simp, hbody, rfl⟩
  | ident hident =>
      have hrun : (s ++ rest).takeWhile isIdentifierPart = s.takeWhile isIdentifierPart :=
        Text.takeWhile_append_of_head? hend
      rw [← hrun]
      exact .ident hident
  | number hident hdigit =>
      have hrun : (s ++ rest).takeWhile (fun d => isIdentifierPart d || d = '.') =
          s.takeWhile fun d => isIdentifierPart d || d = '.' :=
        Text.takeWhile_append_of_head? hend
      rw [← hrun]
      exact .number hident hdigit
  | single hspace hquote hraw hline hblock hident hdigit =>
      obtain rfl := List.length_eq_zero_iff.1 hn
      have hnext : ∀ d ∈ rest.head?, ¬ (c = '/' ∧ (d = '/' ∨ d = '*')) := by
        intro d hd
        have hgoes := hend d hd
        rw [goesOn_ofChar] at hgoes
        simpa using hgoes
      exact .single hspace hquote hraw (fun h => hnext '/' h.2 ⟨h.1, Or.inl rfl⟩)
        (fun h => hnext '*' h.2 ⟨h.1, Or.inr rfl⟩) hident hdigit

/-- A text that can be cut is cut alike before another one, if its last piece does not go on. -/
theorem CutsBefore.of_cut? {s rest : Text} {ps : List Piece} (h : cut? s = some ps)
    (hend : ∀ p ∈ ps.getLast?, ∀ d ∈ rest.head?, p.goesOn d = false) : CutsBefore s ps rest := by
  induction ps generalizing s with
  | nil =>
      obtain rfl : [] = s := spelling_of_cut? h
      exact .nil rest
  | cons p ps ih =>
      cases s with
      | nil => simp at h
      | cons c s =>
          obtain ⟨role, n, qs, hreach, hqs, heq⟩ := cut?_cons_eq_some_iff.1 h
          obtain ⟨rfl, rfl⟩ := List.cons.inj heq
          have hreaches := reaches_of_reach? hreach
          obtain ⟨first, last, rfl, rfl⟩ : ∃ first last, s = first ++ last ∧ first.length = n :=
            ⟨s.take n, s.drop n, (List.take_append_drop n s).symm,
              List.length_take_of_le hreaches.le_length⟩
          rw [List.drop_left] at hqs
          rw [List.take_left] at hend ⊢
          obtain ⟨hfirst, hnext⟩ := hreaches.ends
          -- The piece is either followed by what it was followed by, or it is the last one.
          have hpiece : ∀ d ∈ (last ++ rest).head?, goesOn ⟨role, c :: first⟩ d = false := by
            cases last with
            | nil =>
                rw [cut?_nil] at hqs
                rw [← Option.some.inj hqs] at hend
                exact hend _ rfl
            | cons d last => exact hnext
          have hrest : CutsBefore last ps rest := by
            refine ih hqs fun p hp => hend p ?_
            rw [Option.mem_def] at hp ⊢
            rw [List.getLast?_cons, hp]
            rfl
          exact (CutsBefore.piece (hfirst.before hpiece)).append hrest

theorem goesOn_newline (p : Piece) : p.goesOn '\n' = false := by
  unfold goesOn
  split
  · simp
  · decide
  · decide
  · simp
  · rfl

theorem CutsBefore.of_cut?_newline {s : Text} {ps : List Piece} (h : cut? s = some ps)
    (rest : Text) : CutsBefore s ps ('\n' :: rest) := by
  refine CutsBefore.of_cut? h fun p _ d hd => ?_
  obtain rfl := Option.some.inj hd
  exact p.goesOn_newline

theorem goesOn_of_cut? {s rest : Text} {ps qs : List Piece} (h : cut? (s ++ rest) = some (ps ++ qs))
    (hs : spelling ps = s) : ∀ p ∈ ps.getLast?, ∀ d ∈ rest.head?, p.goesOn d = false := by
  intro p hp
  obtain ⟨front, rfl⟩ := List.getLast?_eq_some_iff.1 hp
  rw [spelling_append] at hs
  rw [← hs, List.append_assoc, List.append_assoc] at h
  have hlast := (cut?_of_append h rfl).2
  obtain ⟨c, t, n, -, htext⟩ := exists_reach?_of_mem_cut? hlast (List.mem_cons_self ..)
  rw [spelling_cons, spelling_nil, List.append_nil, htext, List.cons_append] at hlast
  obtain ⟨role, m, others, hreach, -, heq⟩ := cut?_cons_eq_some_iff.1 hlast
  have hpiece := (List.cons.inj heq).1
  have hreaches := reaches_of_reach? hreach
  have hm : (t.take n).length = m := by
    have hlength := congrArg (fun p : Piece => p.text.length) hpiece
    simp only [htext, List.length_cons, List.length_take_of_le hreaches.le_length] at hlength
    exact Nat.succ.inj hlength
  rw [← hm] at hreaches hpiece
  rw [List.take_left] at hpiece
  rw [hpiece]
  exact hreaches.ends.2

/-- A text that is cut short keeps its pieces, but for one at its end that would have gone on. -/
theorem exists_cut?_of_append {s rest : Text} {ps qs : List Piece} (hs : cut? s = some ps)
    (h : cut? (s ++ rest) = some qs) : ∃ common tail more, ps = common ++ tail ∧
      qs = common ++ more ∧ ∀ p ∈ tail, ∃ d, p.goesOn d = true := by
  by_cases hend : ∀ p ∈ ps.getLast?, ∀ d ∈ rest.head?, p.goesOn d = false
  · rw [CutsBefore.of_cut? hs hend] at h
    obtain ⟨more, -, rfl⟩ := Option.map_eq_some_iff.1 h
    exact ⟨ps, [], more, by simp, rfl, by simp⟩
  · simp only [not_forall, Bool.not_eq_false] at hend
    obtain ⟨p, hp, d, -, hgoes⟩ := hend
    obtain ⟨front, rfl⟩ := List.getLast?_eq_some_iff.1 hp
    have hspelling := spelling_of_cut? hs
    rw [spelling_append, spelling_cons, spelling_nil, List.append_nil] at hspelling
    obtain ⟨c, t, n, -, htext⟩ := exists_reach?_of_mem_cut? hs (p := p) (by simp)
    -- The pieces before the last one are followed by its first character in both texts.
    rw [← hspelling] at hs
    have hfront : CutsBefore (spelling front) front (p.text ++ rest) := by
      have hnext := goesOn_of_cut? hs rfl
      rw [htext] at hnext ⊢
      exact CutsBefore.of_cut? (cut?_of_append hs rfl).1 hnext
    rw [← hspelling, List.append_assoc, hfront] at h
    obtain ⟨more, -, rfl⟩ := Option.map_eq_some_iff.1 h
    refine ⟨front, [p], more, rfl, rfl, fun q hq => ⟨d, ?_⟩⟩
    rwa [List.mem_singleton.1 hq]

end AllowedValues.Source.Piece
