import AllowedValues.Proofs.Argument.Coverage
import AllowedValues.Proofs.Argument.Structure
import AllowedValues.Proofs.Argument.Elements
import AllowedValues.Proofs.Source.Nesting

/-!
The literals that an argument list has its values from. They come in the order of the list, each of
them is the whole of an argument, and where the argument list has tokens of its own they are
literals among these, at depth zero.
-/

namespace AllowedValues.Argument

open Lexeme (lexFrom)
open Source (Kind Token tokens?)

/-- The literal that an argument has its value from. -/
def valueLexeme? : List Lexeme → Option Lexeme
  | [l] => if (value? [l]).isSome then some l else none
  | _ => none

/-- The literals that an argument list has its values from. -/
def valueLexemes (source : Text) : List Lexeme := (arguments source).filterMap valueLexeme?

/-- A lexeme so many bytes further on. -/
def Lexeme.shift (bytes : Nat) (l : Lexeme) : Lexeme := { l with start := l.start + bytes }

theorem valueLexeme?_eq_some {part : List Lexeme} {l : Lexeme} (h : valueLexeme? part = some l) :
    part = [l] ∧ (l.cls = .interpretedString ∨ l.cls = .rawString) := by
  unfold valueLexeme? at h
  split at h
  · split_ifs at h with hvalue
    obtain rfl := Option.some.inj h
    refine ⟨rfl, ?_⟩
    by_contra hcls
    rw [value?, if_neg hcls] at hvalue
    cases hvalue
  · cases h

theorem map_value_valueLexeme? (part : List Lexeme) :
    (valueLexeme? part).map (fun l => Literal.value l.text) = (value? part).map Except.ok := by
  match part with
  | [] => rfl
  | [l] =>
      rw [valueLexeme?, value?]
      by_cases hcls : l.cls = .interpretedString ∨ l.cls = .rawString
      · rw [if_pos hcls]
        cases hvalue : Literal.value l.text with
        | error fault => rfl
        | ok value => exact congrArg some hvalue
      · rw [if_neg hcls]
        rfl
  | _ :: _ :: _ => rfl

theorem map_value_valueLexemes (source : Text) :
    (valueLexemes source).map (fun l => Literal.value l.text) = (values source).map Except.ok := by
  rw [valueLexemes, values, List.map_filterMap, List.map_filterMap]
  exact List.filterMap_congr fun part _ => map_value_valueLexeme? part

theorem exists_append_partsFrom (depth : Nat) (ls : List Lexeme) :
    ∃ after, ls = (partsFrom depth ls).1 ++ after := by
  induction ls generalizing depth with
  | nil => exact ⟨[], rfl⟩
  | cons l ls ih =>
      rw [partsFrom]
      split_ifs
      · exact ⟨l :: ls, rfl⟩
      · obtain ⟨after, hafter⟩ := ih (depthAfter depth l.cls)
        exact ⟨after, congrArg (l :: ·) hafter⟩

/-- A part behind a comma begins at depth zero. -/
theorem exists_of_mem_partsFrom {depth : Nat} {ls part : List Lexeme}
    (h : part ∈ (partsFrom depth ls).2) : ∃ before after, ls = before ++ (part ++ after) ∧
      (before.map (·.cls)).foldl depthAfter depth = 0 := by
  induction ls generalizing depth with
  | nil => cases h
  | cons l ls ih =>
      rw [partsFrom] at h
      split_ifs at h with hcomma
      · have hzero : depthAfter depth l.cls = 0 := by
          rw [hcomma.1, hcomma.2]
          rfl
        rcases List.mem_cons.1 h with rfl | h
        · obtain ⟨after, hafter⟩ := exists_append_partsFrom 0 ls
          exact ⟨[l], after, congrArg (l :: ·) hafter, hzero⟩
        · obtain ⟨before, after, rfl, hdepth⟩ := ih h
          refine ⟨l :: before, after, rfl, ?_⟩
          rw [List.map_cons, List.foldl_cons, hzero, hdepth]
      · obtain ⟨before, after, rfl, hdepth⟩ := ih h
        exact ⟨l :: before, after, rfl, hdepth⟩

theorem exists_of_mem_valueLexemes {source : Text} {l : Lexeme} (h : l ∈ valueLexemes source) :
    (l.cls = .interpretedString ∨ l.cls = .rawString) ∧
      ∃ before after, lexemes source = before ++ l :: after ∧
        (before.map (·.cls)).foldl depthAfter 0 = 0 := by
  obtain ⟨part, hpart, hl⟩ := List.mem_filterMap.1 h
  obtain ⟨rfl, hcls⟩ := valueLexeme?_eq_some hl
  refine ⟨hcls, ?_⟩
  have hmem : [l] ∈ (partsFrom 0 (lexemes source)).1 :: (partsFrom 0 (lexemes source)).2 :=
    (List.mem_filter.1 hpart).1
  rcases List.mem_cons.1 hmem with hfirst | hlater
  · obtain ⟨after, hafter⟩ := exists_append_partsFrom 0 (lexemes source)
    rw [← hfirst] at hafter
    exact ⟨[], after, hafter, rfl⟩
  · exact exists_of_mem_partsFrom hlater

theorem flatten_partsFrom_sublist (depth : Nat) (ls : List Lexeme) :
    ((partsFrom depth ls).1 ++ (partsFrom depth ls).2.flatten).Sublist ls := by
  induction ls generalizing depth with
  | nil => exact .slnil
  | cons l ls ih =>
      rw [partsFrom]
      split_ifs
      · exact (ih 0).cons l
      · exact (ih _).cons_cons l

theorem valueLexemes_sublist (source : Text) : (valueLexemes source).Sublist (lexemes source) := by
  have hflatten (parts : List (List Lexeme)) :
      (parts.filterMap valueLexeme?).Sublist parts.flatten := by
    induction parts with
    | nil => exact .slnil
    | cons part parts ih =>
        rw [List.flatten_cons, List.filterMap_cons]
        cases hpart : valueLexeme? part with
        | none => exact ih.trans (List.sublist_append_right _ _)
        | some l =>
            rw [(valueLexeme?_eq_some hpart).1]
            exact ih.cons_cons l
  have hparts := flatten_partsFrom_sublist 0 (lexemes source)
  rw [← List.flatten_cons] at hparts
  exact (List.filter_sublist.filterMap valueLexeme?).trans ((hflatten _).trans hparts)

theorem pairwise_valueLexemes (source : Text) :
    (valueLexemes source).Pairwise fun l m => l.start < m.start :=
  ((inTurn_lexFrom 0 source).covers.apart.imp And.left).sublist (valueLexemes_sublist source)

section Depth

theorem depthAfter_of_ofUnit? {kind : Kind} {text : Text} {cls : Lexeme.Class}
    (h : Lexeme.Class.ofUnit? kind text = some cls) (depth : Nat) :
    depthAfter depth cls = kind.depthAfter depth := by
  unfold Lexeme.Class.ofUnit? at h
  split at h <;> cases h <;> rfl

theorem isBracket_of_ofUnit?_eq_none {kind : Kind} {text : Text}
    (h : Lexeme.Class.ofUnit? kind text = none) : kind.isBracket = false := by
  cases kind with
  | opening b => cases h
  | closing b => cases h
  | _ => rfl

theorem foldl_depthAfter_filter (ls : List Lexeme) (depth : Nat) :
    ((ls.filter fun l => !l.cls.isPlain).map (·.cls)).foldl depthAfter depth =
      (ls.map (·.cls)).foldl depthAfter depth := by
  induction ls generalizing depth with
  | nil => rfl
  | cons l ls ih =>
      by_cases hplain : l.cls.isPlain = true
      · rw [List.filter_cons_of_neg (by simp [hplain]), ih, List.map_cons, List.foldl_cons,
          (depthAfter_of_isPlain hplain depth).2]
      · rw [List.filter_cons_of_pos (by simp [hplain]), List.map_cons, List.map_cons,
          List.foldl_cons, List.foldl_cons, ih]

theorem foldl_depthAfter_filterMap (ts : List Token) (depth : Nat) :
    ((ts.filterMap tokenLexeme?).map (·.cls)).foldl depthAfter depth =
      (ts.map (·.kind)).foldl Kind.depthAfter depth := by
  induction ts generalizing depth with
  | nil => rfl
  | cons t ts ih =>
      cases hunit : Lexeme.Class.ofUnit? t.kind t.text with
      | none =>
          have hnone : tokenLexeme? t = none := by rw [tokenLexeme?, hunit, Option.map_none]
          rw [List.filterMap_cons_none hnone, ih, List.map_cons, List.foldl_cons,
            Kind.depthAfter_of_isBracket (isBracket_of_ofUnit?_eq_none hunit)]
      | some cls =>
          have hsome : tokenLexeme? t = some ⟨cls, t.start, t.text⟩ := by
            rw [tokenLexeme?, hunit, Option.map_some]
          rw [List.filterMap_cons_some hsome, List.map_cons, List.map_cons, List.foldl_cons,
            List.foldl_cons, ih, depthAfter_of_ofUnit? hunit]

end Depth

/-- Where an argument list has tokens, a lexeme that is not plain is one of them, at the same
depth. -/
theorem exists_token_of_lexemes_eq {source : Text} {own : List Token} {l : Lexeme}
    {before after : List Lexeme} (hown : tokens? source = some own)
    (hlexemes : lexemes source = before ++ l :: after) (hplain : l.cls.isPlain = false) :
    ∃ head t tail, own = head ++ t :: tail ∧ tokenLexeme? t = some l ∧
      (head.map (·.kind)).foldl Kind.depthAfter 0 = (before.map (·.cls)).foldl depthAfter 0 := by
  have hmarks := (filter_lexemes_eq hown).1
  rw [hlexemes, List.filter_append, List.filter_cons_of_pos (by simp [hplain])] at hmarks
  obtain ⟨front, rest, rfl, hfront, hrest⟩ := List.filterMap_eq_append_iff.1 hmarks.symm
  obtain ⟨plain, t, tail, rfl, hnone, ht, -⟩ := List.filterMap_eq_cons_iff.1 hrest
  refine ⟨front ++ plain, t, tail, by simp, ht, ?_⟩
  rw [← foldl_depthAfter_filterMap, List.filterMap_append, List.filterMap_eq_nil_iff.2 hnone,
    List.append_nil, hfront, foldl_depthAfter_filter]

/-- Where the argument list has tokens, the literals that give values are tokens at depth zero. -/
theorem exists_token_of_mem_valueLexemes {source : Text} {own : List Token} {l : Lexeme}
    (hown : tokens? source = some own) (h : l ∈ valueLexemes source) : ∃ head t tail,
      own = head ++ t :: tail ∧ t.kind = .literal ∧ t.start = l.start ∧ t.text = l.text ∧
        (head.map (·.kind)).foldl Kind.depthAfter 0 = 0 := by
  obtain ⟨hcls, before, after, hlexemes, hdepth⟩ := exists_of_mem_valueLexemes h
  have hplain : l.cls.isPlain = false := by rcases hcls with hcls | hcls <;> rw [hcls] <;> rfl
  obtain ⟨head, t, tail, hsplit, ht, hsame⟩ := exists_token_of_lexemes_eq hown hlexemes hplain
  obtain ⟨cls, hunit, rfl⟩ := Option.map_eq_some_iff.1 ht
  have hkind : t.piece.kind? = some t.kind := rfl
  have hliteral := ((isString_iff hkind hunit).1 hcls).1
  exact ⟨head, t, tail, hsplit, Option.some.inj hliteral, rfl, rfl, hsame.trans hdepth⟩

end AllowedValues.Argument
