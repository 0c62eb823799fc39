import AllowedValues.Literal.Extent
import AllowedValues.Proofs.Text.Lines
import AllowedValues.Proofs.Text.Runs

/-!
How far literals and comments reach, in terms of the text they are made of: a quoted body is a
sequence of complete units, a raw body holds no backtick and the body of a block comment no closing
mark. What comes after the end is not looked at.
-/

namespace AllowedValues.Literal

/-- A sequence of complete units of a quoted body. -/
inductive Units (quote : Char) : Text → Prop
  | nil : Units quote []
  | plain {c : Char} {s : Text} :
      c ≠ quote → c ≠ '\\' → c ≠ '\n' → Units quote s → Units quote (c :: s)
  | escaped {c : Char} {s : Text} : c ≠ '\n' → Units quote s → Units quote ('\\' :: c :: s)

theorem Units.append {quote : Char} {s t : Text} (hs : Units quote s) (ht : Units quote t) :
    Units quote (s ++ t) := by
  induction hs with
  | nil => exact ht
  | plain hquote hslash hnewline _ ih => exact .plain hquote hslash hnewline ih
  | escaped hnewline _ ih => exact .escaped hnewline ih

theorem Units.of_cons {quote c : Char} {s : Text} (hslash : c ≠ '\\')
    (h : Units quote (c :: s)) : Units quote s := by
  generalize ht : c :: s = t at h
  cases h with
  | nil => cases ht
  | plain _ _ _ h =>
      cases ht
      exact h
  | escaped _ _ => exact absurd (List.cons.inj ht).1 hslash

theorem Units.of_escaped {quote c : Char} {s : Text} (h : Units quote ('\\' :: c :: s)) :
    Units quote s := by
  cases h with
  | plain _ hslash _ _ => exact absurd rfl hslash
  | escaped _ h => exact h

theorem not_units_backslash (quote : Char) : ¬ Units quote ['\\'] := by
  rintro (_ | ⟨-, hslash, -, -⟩ | _)
  exact hslash rfl

/-- Behind complete units, what is left of complete units is complete units. -/
theorem Units.of_append {quote : Char} {s t : Text} (hs : Units quote s)
    (h : Units quote (s ++ t)) : Units quote t := by
  induction hs with
  | nil => exact h
  | plain _ hslash _ _ ih => exact ih (h.of_cons hslash)
  | escaped _ _ ih => exact ih h.of_escaped

/-- A body that a quote can stand around: any text without a backtick for the backtick, and complete
units for the two others. -/
def IsBody (quote : Char) (body : Text) : Prop :=
  if quote = '`' then '`' ∉ body else Units quote body

theorem bodyLength_cons {quote c : Char} {s : Text} (hquote : c ≠ quote) (hslash : c ≠ '\\')
    (hnewline : c ≠ '\n') : bodyLength quote (c :: s) = bodyLength quote s + 1 := by
  cases s with
  | nil => simp [bodyLength, hquote, hslash, hnewline]
  | cons d s => simp [bodyLength, hquote, hslash, hnewline]

theorem bodyLength_quote {quote : Char} (hquote : quote ≠ '\\') (s : Text) :
    bodyLength quote (quote :: s) = 0 := by
  cases s with
  | nil => simp [bodyLength]
  | cons d s => simp [bodyLength, hquote]

theorem Units.bodyLength_append_of_zero {quote : Char} {body rest : Text} (h : Units quote body)
    (hrest : bodyLength quote rest = 0) : bodyLength quote (body ++ rest) = body.length := by
  induction h with
  | nil => exact hrest
  | plain hc hslash hnewline _ ih =>
      rw [List.cons_append, bodyLength_cons hc hslash hnewline, ih, List.length_cons]
  | escaped hnewline _ ih =>
      simp only [List.cons_append, bodyLength, if_neg hnewline, ih, List.length_cons, if_true]

theorem Units.bodyLength_append {quote : Char} {body : Text} (h : Units quote body)
    (hquote : quote ≠ '\\') (rest : Text) :
    bodyLength quote (body ++ quote :: rest) = body.length :=
  h.bodyLength_append_of_zero (bodyLength_quote hquote rest)

theorem units_take_bodyLength (quote : Char) (s : Text) :
    Units quote (s.take (bodyLength quote s)) := by
  fun_induction bodyLength quote s with
  | case1 => exact .nil
  | case2 c h => simpa using Units.nil
  | case3 c h =>
      simp only [not_or] at h
      simpa using Units.plain h.1 h.2.1 h.2.2 .nil
  | case4 s => simpa using Units.nil
  | case5 d s hd ih => simpa using Units.escaped hd ih
  | case6 c d s hslash h => simpa using Units.nil
  | case7 c d s hslash h ih =>
      simp only [not_or] at h
      simpa using Units.plain h.1 hslash h.2 ih

/-- The text does not go on with the complete units of a quoted body, nor with a quote: it or its
line is over, possibly behind a backslash. -/
def BreaksOff (s : Text) : Prop := Text.AfterLine s ∨ ∃ t, s = '\\' :: t ∧ Text.AfterLine t

theorem bodyLength_newline (quote : Char) (s : Text) : bodyLength quote ('\n' :: s) = 0 := by
  cases s with
  | nil => simp [bodyLength]
  | cons c s => simp [bodyLength]

theorem BreaksOff.bodyLength_eq {s : Text} (h : BreaksOff s) (quote : Char) :
    bodyLength quote s = 0 := by
  rcases h with h | ⟨t, rfl, h⟩
  · rcases h.exists_eq with rfl | ⟨t, rfl⟩
    · rfl
    · exact bodyLength_newline quote t
  · rcases h.exists_eq with rfl | ⟨u, rfl⟩
    · simp [bodyLength]
    · simp [bodyLength]

theorem BreaksOff.head?_ne {s : Text} (h : BreaksOff s) {quote : Char} (hslash : quote ≠ '\\')
    (hnewline : quote ≠ '\n') : s.head? ≠ some quote := by
  rcases h with h | ⟨t, rfl, -⟩
  · rcases h.exists_eq with rfl | ⟨t, rfl⟩
    · simp
    · simpa using hnewline.symm
  · simpa using hslash.symm

/-- Behind the complete units of a quoted body comes the quote, or the body breaks off. -/
theorem head?_drop_bodyLength (quote : Char) (s : Text) :
    (s.drop (bodyLength quote s)).head? = some quote ∨
      BreaksOff (s.drop (bodyLength quote s)) := by
  fun_induction bodyLength quote s with
  | case1 => exact .inr (.inl (.inl rfl))
  | case2 c h =>
      rcases h with rfl | rfl | rfl
      · exact .inl rfl
      · exact .inr (.inr ⟨[], rfl, .inl rfl⟩)
      · exact .inr (.inl (.inr rfl))
  | case3 c h => exact .inr (.inl (.inl rfl))
  | case4 s => exact .inr (.inr ⟨'\n' :: s, rfl, .inr rfl⟩)
  | case5 d s hd ih => exact ih
  | case6 c d s hslash h =>
      rcases h with rfl | rfl
      · exact .inl rfl
      · exact .inr (.inl (.inr rfl))
  | case7 c d s hslash h ih => exact ih

theorem length_take_bodyLength {quote : Char} {s : Text}
    (h : (s.drop (bodyLength quote s)).head? = some quote) :
    bodyLength quote s < s.length := by
  by_contra hle
  rw [List.drop_eq_nil_of_le (by omega)] at h
  exact absurd h (by simp)

/-- A closed quoted body is a sequence of complete units with the quote after it. -/
theorem closedLength?_eq_some_iff {quote : Char} (hquote : quote ≠ '\\') {s : Text} {n : Nat} :
    closedLength? quote s = some n ↔
      ∃ body rest, s = body ++ quote :: rest ∧ Units quote body ∧ n = body.length + 1 := by
  simp only [closedLength?]
  constructor
  · intro h
    split at h
    · rename_i hhead
      obtain rfl := Option.some.inj h
      have hlength := length_take_bodyLength hhead
      refine ⟨s.take (bodyLength quote s), (s.drop (bodyLength quote s)).tail, ?_,
        units_take_bodyLength quote s, ?_⟩
      · rw [List.cons_head?_tail hhead, List.take_append_drop]
      · rw [List.length_take, Nat.min_eq_left hlength.le]
    · exact absurd h (by simp)
  · rintro ⟨body, rest, rfl, hbody, rfl⟩
    rw [hbody.bodyLength_append hquote, List.drop_left, List.head?_cons, if_pos rfl]

theorem rawLength?_eq_some_iff {s : Text} {n : Nat} :
    rawLength? s = some n ↔
      ∃ body rest, s = body ++ '`' :: rest ∧ '`' ∉ body ∧ n = body.length + 1 := by
  induction s generalizing n with
  | nil => simp [rawLength?]
  | cons c s ih =>
      by_cases hc : c = '`'
      · subst hc
        simp only [rawLength?, if_true]
        constructor
        · intro h
          exact ⟨[], s, rfl, by simp, (Option.some.inj h).symm⟩
        · rintro ⟨_ | ⟨d, body⟩, rest, hs, hbody, rfl⟩
          · rfl
          · simp only [List.cons_append, List.cons.injEq] at hs
            simp [← hs.1] at hbody
      · simp only [rawLength?, if_neg hc, Option.map_eq_some_iff, ih]
        constructor
        · rintro ⟨m, ⟨body, rest, rfl, hbody, rfl⟩, rfl⟩
          exact ⟨c :: body, rest, rfl, by simp [hbody, Ne.symm hc], rfl⟩
        · rintro ⟨_ | ⟨d, body⟩, rest, hs, hbody, rfl⟩
          · simp only [List.nil_append, List.cons.injEq] at hs
            exact absurd hs.1 hc
          · simp only [List.cons_append, List.cons.injEq] at hs
            simp only [List.mem_cons, not_or] at hbody
            exact ⟨body.length + 1, ⟨body, rest, hs.2, hbody.2, rfl⟩, rfl⟩

theorem rawLength?_eq_none_iff {s : Text} : rawLength? s = none ↔ '`' ∉ s := by
  induction s with
  | nil => simp [rawLength?]
  | cons c s ih =>
      by_cases hc : c = '`'
      · simp [rawLength?, hc]
      · rw [rawLength?, if_neg hc, Option.map_eq_none_iff, ih, List.mem_cons, not_or]
        exact (and_iff_right (Ne.symm hc)).symm

/-- The body of a block comment: no closing mark in it. -/
def IsCommentBody (body : Text) : Prop := ¬ ['*', '/'] <:+: body

theorem isCommentBody_nil : IsCommentBody [] := by
  simp [IsCommentBody]

theorem isCommentBody_cons {c : Char} {body : Text} :
    IsCommentBody (c :: body) ↔ ¬ (c = '*' ∧ body.head? = some '/') ∧ IsCommentBody body := by
  rw [IsCommentBody, List.infix_cons_iff, not_or, IsCommentBody]
  refine and_congr_left fun _ => not_congr ?_
  cases body with
  | nil => simp
  | cons d body => simp [eq_comm]

theorem blockCommentLength?_cons {c : Char} {s : Text} (h : ¬ (c = '*' ∧ s.head? = some '/')) :
    blockCommentLength? (c :: s) = (blockCommentLength? s).map (· + 1) := by
  cases s with
  | nil => rfl
  | cons d s => rw [blockCommentLength?, if_neg (by simpa using h)]

theorem IsCommentBody.blockCommentLength?_append {body : Text} (h : IsCommentBody body)
    (rest : Text) :
    blockCommentLength? (body ++ '*' :: '/' :: rest) = some (body.length + 2) := by
  induction body with
  | nil => simp [blockCommentLength?]
  | cons c body ih =>
      obtain ⟨hc, hbody⟩ := isCommentBody_cons.1 h
      have hnext : ¬ (c = '*' ∧ (body ++ '*' :: '/' :: rest).head? = some '/') := by
        cases body with
        | nil => simp
        | cons d body => simpa using hc
      rw [List.cons_append, blockCommentLength?_cons hnext, ih hbody]
      rfl

theorem blockCommentLength?_eq_some_iff {s : Text} {n : Nat} :
    blockCommentLength? s = some n ↔
      ∃ body rest, s = body ++ '*' :: '/' :: rest ∧ IsCommentBody body ∧ n = body.length + 2 := by
  constructor
  · intro h
    induction s generalizing n with
    | nil => simp [blockCommentLength?] at h
    | cons c s ih =>
        by_cases hclose : c = '*' ∧ s.head? = some '/'
        · obtain ⟨rfl, hhead⟩ := hclose
          have hs := (List.cons_head?_tail hhead).symm
          rw [hs] at h ⊢
          simp only [blockCommentLength?, and_self, if_true] at h
          exact ⟨[], s.tail, rfl, isCommentBody_nil, (Option.some.inj h).symm⟩
        · rw [blockCommentLength?_cons hclose] at h
          obtain ⟨m, hm, rfl⟩ := Option.map_eq_some_iff.1 h
          obtain ⟨body, rest, rfl, hbody, rfl⟩ := ih hm
          refine ⟨c :: body, rest, rfl, isCommentBody_cons.2 ⟨?_, hbody⟩, rfl⟩
          rintro ⟨hc, hhead⟩
          refine hclose ⟨hc, ?_⟩
          rw [List.head?_append, hhead, Option.some_or]
  · rintro ⟨body, rest, rfl, hbody, rfl⟩
    exact hbody.blockCommentLength?_append rest

theorem blockCommentLength?_eq_none_iff {s : Text} :
    blockCommentLength? s = none ↔ IsCommentBody s := by
  induction s with
  | nil => simp [blockCommentLength?, isCommentBody_nil]
  | cons c s ih =>
      rw [isCommentBody_cons]
      by_cases hclose : c = '*' ∧ s.head? = some '/'
      · obtain ⟨rfl, hhead⟩ := hclose
        obtain ⟨s, rfl⟩ := List.head?_eq_some_iff.1 hhead
        simp [blockCommentLength?]
      · rw [blockCommentLength?_cons hclose, Option.map_eq_none_iff, ih]
        exact (and_iff_right hclose).symm

/-- A beginning of a text that is no longer than a part of it is a beginning of the part. -/
theorem exists_append_of_append {front s t rest : Text} (h : s ++ t = front ++ rest)
    (hlength : front.length ≤ s.length) : ∃ u, s = front ++ u := by
  have hprefix : front <+: s :=
    List.prefix_of_prefix_length_le (h ▸ List.prefix_append front rest) (List.prefix_append s t)
      hlength
  obtain ⟨u, hu⟩ := hprefix
  exact ⟨u, hu.symm⟩

theorem closedLength?_of_append {quote : Char} (hquote : quote ≠ '\\') {s t : Text} {n : Nat}
    (h : closedLength? quote (s ++ t) = some n) (hn : n ≤ s.length) :
    closedLength? quote s = some n := by
  obtain ⟨body, rest, hs, hbody, rfl⟩ := (closedLength?_eq_some_iff hquote).1 h
  rw [← List.singleton_append, ← List.append_assoc] at hs
  obtain ⟨u, rfl⟩ := exists_append_of_append hs (by simpa using hn)
  exact (closedLength?_eq_some_iff hquote).2 ⟨body, u, by simp, hbody, rfl⟩

theorem rawLength?_of_append {s t : Text} {n : Nat} (h : rawLength? (s ++ t) = some n)
    (hn : n ≤ s.length) : rawLength? s = some n := by
  obtain ⟨body, rest, hs, hbody, rfl⟩ := rawLength?_eq_some_iff.1 h
  rw [← List.singleton_append, ← List.append_assoc] at hs
  obtain ⟨u, rfl⟩ := exists_append_of_append hs (by simpa using hn)
  exact rawLength?_eq_some_iff.2 ⟨body, u, by simp, hbody, rfl⟩

theorem blockCommentLength?_of_append {s t : Text} {n : Nat}
    (h : blockCommentLength? (s ++ t) = some n) (hn : n ≤ s.length) :
    blockCommentLength? s = some n := by
  obtain ⟨body, rest, hs, hbody, rfl⟩ := blockCommentLength?_eq_some_iff.1 h
  rw [show body ++ '*' :: '/' :: rest = body ++ ['*', '/'] ++ rest by simp] at hs
  obtain ⟨u, rfl⟩ := exists_append_of_append hs (by simpa using hn)
  exact blockCommentLength?_eq_some_iff.2 ⟨body, u, by simp, hbody, rfl⟩

theorem lineLength_append {body rest : Text} (hbody : '\n' ∉ body) (hrest : Text.AfterLine rest) :
    lineLength (body ++ rest) = body.length := by
  have hrun : (body ++ rest).takeWhile (· ≠ '\n') = body := by
    refine Text.takeWhile_append_eq (fun c hc => ?_) fun c hc => ?_
    · exact decide_eq_true (ne_of_mem_of_not_mem hc hbody)
    · rcases hrest with rfl | hrest
      · cases hc
      · obtain rfl := Option.some.inj (hrest.symm.trans hc)
        decide
  rw [lineLength, hrun]

end AllowedValues.Literal
