import AllowedValues.Proofs.Argument.Literals

/-!
The commas that part an argument list. Every part but the last one ends with a comma of depth zero,
and these commas are the tokens of the list at which no bracket is open. Where every comma comes
after something, only the last part may be empty.
-/

namespace AllowedValues.Argument

open Source (Kind Piece Token tokens?)
open Source.Piece (elementsFrom elements isCode kinds)

section Commas

variable {α β : Type} (comma : α → Bool) (after : Nat → α → Nat)

/-- The commas of depth zero, for a list that begins at the given depth. -/
def commasFrom (depth : Nat) : List α → List α
  | [] => []
  | a :: l =>
      if comma a ∧ depth = 0 then a :: commasFrom (after depth a) l
      else commasFrom (after depth a) l

variable {comma after}

theorem mem_commasFrom_iff {depth : Nat} {l : List α} {a : α} :
    a ∈ commasFrom comma after depth l ↔ ∃ front back, l = front ++ a :: back ∧ comma a = true ∧
      front.foldl after depth = 0 := by
  induction l generalizing depth with
  | nil => simp [commasFrom]
  | cons c l ih =>
      have hlater : a ∈ commasFrom comma after (after depth c) l → ∃ front back,
          c :: l = front ++ a :: back ∧ comma a = true ∧ front.foldl after depth = 0 := by
        intro h
        obtain ⟨front, back, rfl, hcomma, hdepth⟩ := ih.1 h
        exact ⟨c :: front, back, rfl, hcomma, hdepth⟩
      rw [commasFrom]
      constructor
      · intro h
        split_ifs at h with hfirst
        · rcases List.mem_cons.1 h with rfl | h
          · exact ⟨[], l, rfl, hfirst.1, hfirst.2⟩
          · exact hlater h
        · exact hlater h
      · rintro ⟨front, back, hsplit, hcomma, hdepth⟩
        cases front with
        | nil =>
            obtain ⟨rfl, rfl⟩ := List.cons.inj hsplit
            rw [if_pos ⟨hcomma, hdepth⟩]
            exact List.mem_cons_self
        | cons d front =>
            rw [List.cons_append] at hsplit
            obtain ⟨rfl, rfl⟩ := List.cons.inj hsplit
            have hmem := ih.2 ⟨front, back, rfl, hcomma, hdepth⟩
            split_ifs
            · exact List.mem_cons_of_mem _ hmem
            · exact hmem

theorem commasFrom_sublist (depth : Nat) (l : List α) :
    (commasFrom comma after depth l).Sublist l := by
  induction l generalizing depth with
  | nil => exact .slnil
  | cons a l ih =>
      rw [commasFrom]
      split_ifs
      · exact (ih _).cons_cons a
      · exact (ih _).cons a

theorem comma_of_mem_commasFrom {depth : Nat} {l : List α} :
    ∀ a ∈ commasFrom comma after depth l, comma a = true := by
  intro a ha
  obtain ⟨-, -, -, hcomma, -⟩ := mem_commasFrom_iff.1 ha
  exact hcomma

theorem commasFrom_filterMap {comma' : β → Bool} {after' : Nat → β → Nat} {f : α → Option β}
    (hnone : ∀ a, f a = none → comma a = false ∧ ∀ depth, after depth a = depth)
    (hsome : ∀ a b, f a = some b →
      comma' b = comma a ∧ ∀ depth, after' depth b = after depth a)
    (depth : Nat) (l : List α) :
    commasFrom comma' after' depth (l.filterMap f) =
      (commasFrom comma after depth l).filterMap f := by
  induction l generalizing depth with
  | nil => rfl
  | cons a l ih =>
      cases hf : f a with
      | none =>
          obtain ⟨hcomma, hdepth⟩ := hnone a hf
          rw [List.filterMap_cons_none hf, ih, commasFrom, if_neg (by simp [hcomma]), hdepth]
      | some b =>
          obtain ⟨hcomma, hdepth⟩ := hsome a b hf
          rw [List.filterMap_cons_some hf, commasFrom, commasFrom, hcomma, hdepth, ih]
          split_ifs
          · rw [List.filterMap_cons_some hf]
          · rfl

end Commas

/-- The lexemes that part an argument list. -/
def lexemeCommas (ls : List Lexeme) : List Lexeme :=
  commasFrom (·.cls = .comma) (fun depth l => depthAfter depth l.cls) 0 ls

/-- The commas at which no bracket is open. -/
def tokenCommas (ts : List Token) : List Token :=
  commasFrom (·.kind = .comma) (fun depth t => t.kind.depthAfter depth) 0 ts

/-- Every part but the last one ends with a comma of depth zero. -/
theorem exists_ended (depth : Nat) (ls : List Lexeme) :
    ∃ (ended : List (List Lexeme × Lexeme)) (last : List Lexeme),
      ls = ended.flatMap (fun e => e.1 ++ [e.2]) ++ last ∧
      (partsFrom depth ls).1 :: (partsFrom depth ls).2 = ended.map Prod.fst ++ [last] ∧
      ended.map Prod.snd =
        commasFrom (·.cls = .comma) (fun depth l => depthAfter depth l.cls) depth ls := by
  induction ls generalizing depth with
  | nil => exact ⟨[], [], rfl, rfl, rfl⟩
  | cons l ls ih =>
      rw [partsFrom, commasFrom]
      by_cases hcomma : l.cls = .comma ∧ depth = 0
      · obtain ⟨ended, last, hls, hparts, hcommas⟩ := ih 0
        have hdepth : depthAfter depth l.cls = 0 := by
          rw [hcomma.1, hcomma.2]
          rfl
        refine ⟨([], l) :: ended, last, congrArg (l :: ·) hls, ?_, ?_⟩
        · rw [if_pos hcomma]
          exact congrArg ([] :: ·) hparts
        · rw [if_pos (by simpa using hcomma), hdepth]
          exact congrArg (l :: ·) hcommas
      · obtain ⟨ended, last, hls, hparts, hcommas⟩ := ih (depthAfter depth l.cls)
        rw [if_neg hcomma, if_neg (by simpa using hcomma)]
        -- The lexeme belongs to the first part, which is the last one if there is no comma.
        cases ended with
        | nil =>
            obtain ⟨hfirst, hrest⟩ := List.cons.inj hparts
            exact ⟨[], l :: last, congrArg (l :: ·) hls,
              congrArg₂ (fun first rest => (l :: first) :: rest) hfirst hrest, hcommas⟩
        | cons e ended =>
            obtain ⟨hfirst, hrest⟩ := List.cons.inj hparts
            exact ⟨(l :: e.1, e.2) :: ended, last, congrArg (l :: ·) hls,
              congrArg₂ (fun first rest => (l :: first) :: rest) hfirst hrest, hcommas⟩

section Tokens

theorem eq_comma_iff_of_ofUnit? {kind : Kind} {text : Text} {cls : Lexeme.Class}
    (h : Lexeme.Class.ofUnit? kind text = some cls) : cls = .comma ↔ kind = .comma := by
  unfold Lexeme.Class.ofUnit? at h
  split at h <;> cases h <;> simp

theorem eq_closing_of_ofUnit? {kind : Kind} {text : Text} {b : Bracket}
    (h : Lexeme.Class.ofUnit? kind text = some (.closing b)) : kind = .closing b := by
  unfold Lexeme.Class.ofUnit? at h
  split at h <;> cases h
  rfl

theorem ne_comma_of_ofUnit?_eq_none {kind : Kind} {text : Text}
    (h : Lexeme.Class.ofUnit? kind text = none) : kind ≠ .comma := by
  rintro rfl
  cases h

/-- The lexeme that a comma is. -/
def commaLexeme (t : Token) : Lexeme := ⟨.comma, t.start, t.text⟩

theorem tokenLexeme?_of_comma {t : Token} (h : t.kind = .comma) :
    tokenLexeme? t = some (commaLexeme t) := by
  rw [tokenLexeme?, h]
  rfl

theorem lexemeCommas_filter (ls : List Lexeme) :
    lexemeCommas (ls.filter fun l => !l.cls.isPlain) = lexemeCommas ls := by
  rw [lexemeCommas, ← List.filterMap_eq_filter, commasFrom_filterMap, List.filterMap_eq_filter]
  · refine List.filter_eq_self.2 fun l hl => ?_
    have hcomma := comma_of_mem_commasFrom l hl
    rw [decide_eq_true_eq] at hcomma
    rw [hcomma]
    rfl
  · intro l hl
    have hplain : l.cls.isPlain = true := by simpa using hl
    exact ⟨decide_eq_false (depthAfter_of_isPlain hplain 0).1,
      fun depth => (depthAfter_of_isPlain hplain depth).2⟩
  · intro l m hm
    obtain ⟨rfl, -⟩ := Option.guard_eq_some_iff.1 hm
    exact ⟨rfl, fun _ => rfl⟩

theorem lexemeCommas_filterMap (ts : List Token) :
    lexemeCommas (ts.filterMap tokenLexeme?) = (tokenCommas ts).map commaLexeme := by
  rw [lexemeCommas, commasFrom_filterMap, ← List.filterMap_eq_map]
  · refine List.filterMap_congr fun t ht => ?_
    exact tokenLexeme?_of_comma (by simpa using comma_of_mem_commasFrom t ht)
  · intro t ht
    have hunit := Option.map_eq_none_iff.1 ht
    exact ⟨decide_eq_false (ne_comma_of_ofUnit?_eq_none hunit),
      fun depth => Kind.depthAfter_of_isBracket (isBracket_of_ofUnit?_eq_none hunit) depth⟩
  · intro t l hl
    obtain ⟨cls, hunit, rfl⟩ := Option.map_eq_some_iff.1 hl
    exact ⟨decide_eq_decide.2 (eq_comma_iff_of_ofUnit? hunit),
      fun depth => depthAfter_of_ofUnit? hunit depth⟩

variable {source : Text} {own : List Token} (hown : tokens? source = some own)

include hown

/-- Where an argument list has tokens, it is parted at the commas at which no bracket is open. -/
theorem lexemeCommas_lexemes :
    lexemeCommas (lexemes source) = (tokenCommas own).map commaLexeme := by
  rw [← lexemeCommas_filter, (filter_lexemes_eq hown).1, lexemeCommas_filterMap]

theorem balanced_of_tokens? : Source.Balanced (own.map (·.kind)) :=
  Source.balanced_of_matchFrom (Source.matchFrom_of_tokens? hown)

theorem depth_lexemes : ((lexemes source).map (·.cls)).foldl depthAfter 0 = 0 := by
  rw [← foldl_depthAfter_filter, (filter_lexemes_eq hown).1, foldl_depthAfter_filterMap]
  exact (balanced_of_tokens? hown).foldl_depthAfter 0

theorem depth_pos_of_closing {before after : List Lexeme} {l : Lexeme} {b : Bracket}
    (hlexemes : lexemes source = before ++ l :: after) (hl : l.cls = .closing b) :
    0 < (before.map (·.cls)).foldl depthAfter 0 := by
  obtain ⟨head, t, tail, hsplit, ht, hdepth⟩ :=
    exists_token_of_lexemes_eq hown hlexemes (by rw [hl]; rfl)
  obtain ⟨cls, hunit, rfl⟩ := Option.map_eq_some_iff.1 ht
  obtain rfl : cls = .closing b := hl
  have hkind := eq_closing_of_ofUnit? hunit
  have hgrounded := (balanced_of_tokens? hown).grounded
  rw [hsplit, List.map_append, List.map_cons, hkind] at hgrounded
  rw [← hdepth]
  exact hgrounded.depth_pos

end Tokens

section Filled

theorem forall_mem_dropLast_cons {P : α → Prop} {a : α} {l : List α} (ha : l ≠ [] → P a)
    (hl : ∀ b ∈ l.dropLast, P b) : ∀ b ∈ (a :: l).dropLast, P b := by
  cases l with
  | nil => simp
  | cons c l =>
      rw [List.dropLast_cons_of_ne_nil (List.cons_ne_nil c l), List.forall_mem_cons]
      exact ⟨ha (List.cons_ne_nil c l), hl⟩

/-- Elements that end with a comma hold code: no comma comes right after another one or right after
what the first element begins behind. -/
theorem filled_elementsFrom {previous : Kind} {ps : List Piece} (depth : Int)
    (h : (previous :: kinds ps).IsChain fun k l => ¬ (k.awaitsElement = true ∧ l = .comma)) :
    (previous.awaitsElement = true → (elementsFrom depth ps).2 ≠ [] →
      (elementsFrom depth ps).1.filter isCode ≠ []) ∧
    ∀ element ∈ (elementsFrom depth ps).2.dropLast, element.filter isCode ≠ [] := by
  induction ps generalizing previous depth with
  | nil => exact ⟨fun _ hne => absurd rfl hne, by simp [elementsFrom]⟩
  | cons p ps ih =>
      cases hkind : p.kind? with
      | none =>
          rw [kinds, List.filterMap_cons_none hkind] at h
          obtain ⟨hfirst, hrest⟩ := ih (depth + p.depthChange) h
          rw [elementsFrom_cons (by simp [hkind]) rfl]
          refine ⟨?_, hrest⟩
          rw [List.filter_cons_of_neg (by simp [isCode, hkind])]
          exact hfirst
      | some kind =>
          rw [kinds, List.filterMap_cons_some hkind, List.isChain_cons_cons] at h
          obtain ⟨hprevious, hchain⟩ := h
          rw [elementsFrom]
          split_ifs with hcomma
          · obtain ⟨hfirst, hrest⟩ := ih depth hchain
            rw [hkind, Option.some.injEq] at hcomma
            refine ⟨fun hawaits => absurd ⟨hawaits, hcomma.1⟩ hprevious, ?_⟩
            exact forall_mem_dropLast_cons (hfirst (by rw [hcomma.1]; rfl)) hrest
          · obtain ⟨-, hrest⟩ := ih (depth + p.depthChange) hchain
            refine ⟨fun _ _ => ?_, hrest⟩
            rw [List.filter_cons_of_pos (by rw [isCode, hkind]; rfl)]
            exact List.cons_ne_nil _ _

theorem forall₂_dropLast {R : α → β → Prop} {l : List α} {l' : List β} (h : List.Forall₂ R l l') :
    List.Forall₂ R l.dropLast l'.dropLast := by
  induction h with
  | nil => exact .nil
  | cons hfirst hrest ih =>
      cases hrest with
      | nil => exact .nil
      | cons _ _ => exact .cons hfirst ih

theorem ne_nil_of_match {elements : List (List Piece)} {parts : List (List Lexeme)}
    (h : List.Forall₂ Match elements parts)
    (hfilled : ∀ element ∈ elements, element.filter isCode ≠ []) : ∀ part ∈ parts, part ≠ [] := by
  induction h with
  | nil => simp
  | cons hmatch _ ih =>
      obtain ⟨start, hmatch⟩ := hmatch
      rw [List.forall_mem_cons] at hfilled ⊢
      exact ⟨fun hnil => hfilled.1 (hmatch.eq_nil_iff.1 hnil).1, ih hfilled.2⟩

theorem filled_parts {source : Text} {ps : List Piece} {previous : Kind}
    (hcut : Source.Piece.cut? source = some ps) (hgrounded : Source.Grounded 0 (kinds ps))
    (hprevious : previous.awaitsElement = true)
    (hchain : (previous :: kinds ps).IsChain fun k l => ¬ (k.awaitsElement = true ∧ l = .comma)) :
    ∀ part ∈ ((partsFrom 0 (lexemes source)).1 :: (partsFrom 0 (lexemes source)).2).dropLast,
      part ≠ [] := by
  obtain ⟨hfirst, hrest⟩ := (rereads_of_cut? hcut 0).parts 0 hgrounded
  have hmatch := forall₂_dropLast (List.Forall₂.cons (R := Match) ⟨0, hfirst⟩ hrest)
  obtain ⟨hfilled, hothers⟩ := filled_elementsFrom 0 hchain
  exact ne_nil_of_match hmatch (forall_mem_dropLast_cons (hfilled hprevious) hothers)

end Filled

theorem arguments_eq_of_parts {source : Text} {groups : List (List Lexeme)} {last : List Lexeme}
    (hparts : (partsFrom 0 (lexemes source)).1 :: (partsFrom 0 (lexemes source)).2 =
      groups ++ [last])
    (hfilled : ∀ group ∈ groups, group ≠ []) :
    arguments source = groups ++ if last = [] then [] else [last] := by
  have hgroups : groups.filter (!·.isEmpty) = groups := by
    refine List.filter_eq_self.2 fun group hgroup => ?_
    simp [hfilled group hgroup]
  rw [arguments]
  change List.filter _ (_ :: _) = _
  rw [hparts, List.filter_append, hgroups]
  cases last with
  | nil => rfl
  | cons l last => rfl

/-- Where an argument list has tokens and no comma comes right after another one or right after what
the list begins behind, the commas at which no bracket is open part it into arguments, of which only
the last may be missing. -/
theorem exists_division {source : Text} {own : List Token} {previous : Kind}
    (hown : tokens? source = some own) (hprevious : previous.awaitsElement = true)
    (hchain : (previous :: own.map (·.kind)).IsChain
      fun k l => ¬ (k.awaitsElement = true ∧ l = .comma)) :
    ∃ (ended : List (List Lexeme × Lexeme)) (last : List Lexeme),
      lexemes source = ended.flatMap (fun e => e.1 ++ [e.2]) ++ last ∧
      arguments source = ended.map Prod.fst ++ (if last = [] then [] else [last]) ∧
      (∀ e ∈ ended, e.1 ≠ []) ∧ ended.map Prod.snd = (tokenCommas own).map commaLexeme := by
  obtain ⟨pieces, hcut, -, hunits, -⟩ := Source.tokens?_eq_some_iff.1 hown
  have hgrounded := (balanced_of_tokens? hown).grounded
  rw [← Source.kinds_eq_of_unmatched hunits] at hchain hgrounded
  obtain ⟨ended, last, hlexemes, hparts, hcommas⟩ := exists_ended 0 (lexemes source)
  have hfilled := filled_parts hcut hgrounded hprevious hchain
  rw [hparts, List.dropLast_concat, List.forall_mem_map] at hfilled
  exact ⟨ended, last, hlexemes, arguments_eq_of_parts hparts (List.forall_mem_map.2 hfilled),
    hfilled, hcommas.trans (lexemeCommas_lexemes hown)⟩

end AllowedValues.Argument
