import AllowedValues.Argument.List
import AllowedValues.Proofs.Argument.Rereading
import AllowedValues.Proofs.Source.Brackets

/-!
List elements of a piece of source, and the values that an argument list has for them. An element
has its value as an argument exactly if no stray white space stands in it.
-/

namespace AllowedValues.Source

/-- How a code unit changes the bracket depth. -/
def Piece.depthChange (p : Piece) : Int :=
  match p.kind? with
  | some (.opening _) => 1
  | some (.closing _) => -1
  | _ => 0

/-- The parts of a list of pieces between the commas of depth zero, the first one apart, for pieces
that begin at the given depth. -/
def Piece.elementsFrom (depth : Int) : List Piece → List Piece × List (List Piece)
  | [] => ([], [])
  | p :: ps =>
      if p.kind? = some .comma ∧ depth = 0 then
        let (element, elements) := elementsFrom depth ps
        ([], element :: elements)
      else
        let (element, elements) := elementsFrom (depth + p.depthChange) ps
        (p :: element, elements)

/-- The parts of a list of pieces between the commas of depth zero. -/
def Piece.elements (ps : List Piece) : List (List Piece) :=
  let (element, elements) := elementsFrom 0 ps
  element :: elements

/-- The value of units of code, if they are one string literal that can be decoded. -/
def Piece.soleValue? : List Piece → Option Text
  | [p] =>
      if p.kind? = some .literal ∧ (p.text.head? = some '"' ∨ p.text.head? = some '`') then
        (Literal.value p.text).toOption
      else none
  | _ => none

/-- The value of an element is that of its code. -/
def Piece.elementValue? (ps : List Piece) : Option Text := soleValue? (ps.filter isCode)

/-- The value of an element as an argument: none if white space that is no blank stands in it. -/
def Piece.argumentValue? (ps : List Piece) : Option Text :=
  if ps.any isStray then none else elementValue? ps

/-- Whether a piece is seen by one of the two readings of an argument list. -/
def Piece.isSeen (p : Piece) : Bool := p.isCode || p.isStray

/-- Pieces that belong to the element they stand in and leave the bracket depth as it is. -/
def Piece.Stay (ps : List Piece) : Prop := ∀ p ∈ ps, p.kind? ≠ some .comma ∧ p.depthChange = 0

end AllowedValues.Source

namespace AllowedValues.Argument

open Source (Kind Piece Grounded)
open Source.Piece (Stay argumentValue? elementsFrom elements elementValue? isCode isSeen kinds
  soleValue?)

/-- An element and an argument are two readings of one part of a text. -/
def Match (element : List Piece) (argument : List Lexeme) : Prop :=
  ∃ start, Rereads start element argument

theorem elementsFrom_cons {p : Piece} (hp : p.kind? ≠ some .comma) {depth depth' : Int}
    (hdepth : depth + p.depthChange = depth') (ps : List Piece) :
    elementsFrom depth (p :: ps) =
      (p :: (elementsFrom depth' ps).1, (elementsFrom depth' ps).2) := by
  rw [elementsFrom, if_neg (fun h => hp h.1), hdepth]

theorem partsFrom_cons {l : Lexeme} (hl : l.cls ≠ .comma) {depth depth' : Nat}
    (hdepth : depthAfter depth l.cls = depth') (ls : List Lexeme) :
    partsFrom depth (l :: ls) = (l :: (partsFrom depth' ls).1, (partsFrom depth' ls).2) := by
  rw [partsFrom, if_neg (fun h => hl h.1), hdepth]

theorem ne_comma_of_isPlain {p : Piece} {kind : Kind} (hkind : p.kind? = some kind)
    (hplain : kind.isPlain = true) : p.kind? ≠ some .comma ∧ p.depthChange = 0 := by
  rw [Piece.depthChange, hkind]
  cases kind <;> simp_all [Kind.isPlain]

theorem depthAfter_of_isPlain {cls : Lexeme.Class} (h : cls.isPlain = true) (depth : Nat) :
    cls ≠ .comma ∧ depthAfter depth cls = depth := by
  cases cls <;> simp_all [Lexeme.Class.isPlain, depthAfter]

section Filter

variable {seen : Piece → Bool} (hseen : ∀ p, isCode p = true → seen p = true)

include hseen

theorem elementsFrom_filter (depth : Int) (ps : List Piece) :
    elementsFrom depth (ps.filter seen) =
      ((elementsFrom depth ps).1.filter seen,
        (elementsFrom depth ps).2.map (List.filter seen)) := by
  induction ps generalizing depth with
  | nil => rfl
  | cons p ps ih =>
      by_cases hp : seen p = true
      · rw [List.filter_cons_of_pos hp, elementsFrom, elementsFrom]
        split_ifs
        · rw [ih]
          rfl
        · simp only [ih]
          rw [List.filter_cons_of_pos hp]
      · have hkind : p.kind? = none := by
          have hcode : ¬ isCode p = true := fun hcode => hp (hseen p hcode)
          simpa [isCode] using hcode
        have hchange : depth + p.depthChange = depth := by
          rw [Piece.depthChange, hkind, Int.add_zero]
        rw [List.filter_cons_of_neg hp, ih, elementsFrom_cons (by simp [hkind]) hchange,
          List.filter_cons_of_neg hp]

theorem elements_filter_of_code (ps : List Piece) :
    elements (ps.filter seen) = (elements ps).map (List.filter seen) := by
  simp only [elements, elementsFrom_filter hseen, List.map_cons]

end Filter

theorem elementsFrom_append {word : List Piece} (h : Stay word) (depth : Int) (ps : List Piece) :
    elementsFrom depth (word ++ ps) =
      (word ++ (elementsFrom depth ps).1, (elementsFrom depth ps).2) := by
  induction word with
  | nil => rfl
  | cons p word ih =>
      obtain ⟨hcomma, hchange⟩ := h p (by simp)
      rw [List.cons_append, elementsFrom_cons hcomma (by rw [hchange, Int.add_zero]),
        ih fun q hq => h q (List.mem_cons_of_mem _ hq)]
      rfl

theorem partsFrom_of_plain {word : List Lexeme} (h : ∀ l ∈ word, l.cls.isPlain = true)
    (depth : Nat) (ls : List Lexeme) :
    partsFrom depth (word ++ ls) = (word ++ (partsFrom depth ls).1, (partsFrom depth ls).2) := by
  induction word with
  | nil => rfl
  | cons l word ih =>
      obtain ⟨hcomma, hdepth⟩ := depthAfter_of_isPlain (h l (by simp)) depth
      rw [List.cons_append, partsFrom_cons hcomma hdepth,
        ih fun m hm => h m (List.mem_cons_of_mem _ hm)]
      rfl

theorem grounded_of_plain {ks : List Kind} (h : ∀ k ∈ ks, k.isPlain = true) (depth : Nat)
    (ls : List Kind) : Grounded depth (ks ++ ls) ↔ Grounded depth ls := by
  induction ks with
  | nil => rfl
  | cons k ks ih =>
      have hk := h k (by simp)
      rw [← ih fun l hl => h l (List.mem_cons_of_mem _ hl)]
      cases k <;> simp_all [Kind.isPlain, Grounded]

theorem ofUnit?_literal (text : Text) : Lexeme.Class.ofUnit? .literal text =
    some (if text.head? = some '"' then .interpretedString
      else if text.head? = some '`' then .rawString else .rune) := by
  unfold Lexeme.Class.ofUnit?
  split <;> simp_all
  split_ifs <;> simp_all [List.head?_eq_some_iff]

theorem isString_iff {p : Piece} {kind : Kind} {cls : Lexeme.Class} (hkind : p.kind? = some kind)
    (hunit : Lexeme.Class.ofUnit? kind p.text = some cls) :
    cls = .interpretedString ∨ cls = .rawString ↔
      p.kind? = some .literal ∧ (p.text.head? = some '"' ∨ p.text.head? = some '`') := by
  rw [hkind, Option.some.injEq]
  cases kind with
  | literal =>
      rw [ofUnit?_literal, Option.some.injEq] at hunit
      subst hunit
      split_ifs <;> simp_all
  | comma => simp [← Option.some.inj hunit]
  | opening b => simp [← Option.some.inj hunit]
  | closing b => simp [← Option.some.inj hunit]
  | ident => simp [Lexeme.Class.ofUnit?] at hunit
  | number => simp [Lexeme.Class.ofUnit?] at hunit
  | dot => simp [Lexeme.Class.ofUnit?] at hunit
  | punct => simp [Lexeme.Class.ofUnit?] at hunit

theorem exists_depth_of_unit {p : Piece} {kind : Kind} {cls : Lexeme.Class} {depth : Nat}
    {ks : List Kind} (hkind : p.kind? = some kind)
    (hunit : Lexeme.Class.ofUnit? kind p.text = some cls)
    (hcomma : kind ≠ .comma) (hgrounded : Grounded depth (kind :: ks)) :
    cls ≠ .comma ∧ ∃ depth' : Nat, (depth : Int) + p.depthChange = depth' ∧
      depthAfter depth cls = depth' ∧ Grounded depth' ks := by
  rw [Piece.depthChange, hkind]
  cases kind with
  | comma => exact absurd rfl hcomma
  | opening b =>
      obtain rfl := Option.some.inj hunit
      exact ⟨by simp, depth + 1, rfl, rfl, hgrounded⟩
  | closing b =>
      obtain rfl := Option.some.inj hunit
      cases depth with
      | zero => exact hgrounded.elim
      | succ depth =>
          have hdown : ((depth + 1 : Nat) : Int) + -1 = depth := by omega
          exact ⟨by simp, depth, hdown, rfl, hgrounded⟩
  | literal =>
      have hstay : cls ≠ .comma ∧ depthAfter depth cls = depth := by
        rw [ofUnit?_literal, Option.some.injEq] at hunit
        subst hunit
        split_ifs <;> exact ⟨by simp, rfl⟩
      exact ⟨hstay.1, depth, Int.add_zero _, hstay.2, by simpa [Grounded] using hgrounded⟩
  | ident => simp [Lexeme.Class.ofUnit?] at hunit
  | number => simp [Lexeme.Class.ofUnit?] at hunit
  | dot => simp [Lexeme.Class.ofUnit?] at hunit
  | punct => simp [Lexeme.Class.ofUnit?] at hunit

/-- Cutting at commas parts the two readings of a text alike, if its brackets are grounded. -/
theorem Rereads.parts {start : Nat} {ps : List Piece} {ls : List Lexeme} (h : Rereads start ps ls)
    (depth : Nat) (hgrounded : Grounded depth (kinds ps)) :
    Rereads start (elementsFrom depth ps).1 (partsFrom depth ls).1 ∧
      List.Forall₂ Match (elementsFrom depth ps).2 (partsFrom depth ls).2 := by
  induction h generalizing depth with
  | nil => exact ⟨.nil, .nil⟩
  | @layout start p ps ls hkind hstray h ih =>
      have hchange : (depth : Int) + p.depthChange = depth := by
        rw [Piece.depthChange, hkind, Int.add_zero]
      rw [kinds, List.filterMap_cons_none hkind] at hgrounded
      obtain ⟨hfirst, hrest⟩ := ih depth hgrounded
      rw [elementsFrom_cons (by simp [hkind]) hchange]
      exact ⟨.layout hkind hstray hfirst, hrest⟩
  | @stray start p cls ps ls hstray hcls h ih =>
      have hkind := kind?_of_isStray hstray
      have hchange : (depth : Int) + p.depthChange = depth := by
        rw [Piece.depthChange, hkind, Int.add_zero]
      obtain ⟨hcomma, hdepth⟩ := depthAfter_of_isPlain hcls depth
      rw [kinds, List.filterMap_cons_none hkind] at hgrounded
      obtain ⟨hfirst, hrest⟩ := ih depth hgrounded
      rw [elementsFrom_cons (by simp [hkind]) hchange, partsFrom_cons hcomma hdepth]
      exact ⟨.stray hstray hcls hfirst, hrest⟩
  | @unit start p kind cls ps ls hkind hunit h ih =>
      rw [kinds, List.filterMap_cons_some hkind] at hgrounded
      by_cases hcomma : kind = .comma
      · -- A comma of depth zero ends the element in both readings, a deeper one in neither.
        subst hcomma
        obtain rfl := Option.some.inj hunit
        obtain ⟨hfirst, hrest⟩ := ih depth hgrounded
        cases depth with
        | zero =>
            rw [elementsFrom, if_pos ⟨hkind, rfl⟩, partsFrom, if_pos ⟨rfl, rfl⟩]
            exact ⟨.nil, .cons ⟨_, hfirst⟩ hrest⟩
        | succ depth =>
            have hchange : ((depth + 1 : Nat) : Int) + p.depthChange = (depth + 1 : Nat) := by
              rw [Piece.depthChange, hkind, Int.add_zero]
            have hdepth : depthAfter (depth + 1) Lexeme.Class.comma = depth + 1 := rfl
            rw [elementsFrom, if_neg (fun hand => by have := hand.2; omega), hchange, partsFrom,
              if_neg (fun hand => absurd hand.2 (Nat.succ_ne_zero depth)), hdepth]
            exact ⟨.unit hkind hunit hfirst, hrest⟩
      · obtain ⟨hcls, depth', hchange, hdepth, hnext⟩ :=
          exists_depth_of_unit hkind hunit hcomma hgrounded
        obtain ⟨hfirst, hrest⟩ := ih depth' hnext
        rw [elementsFrom_cons (by simpa [hkind] using hcomma) hchange, partsFrom_cons hcls hdepth]
        exact ⟨.unit hkind hunit hfirst, hrest⟩
  | @plain start word ps word' ls hne hword hne' hword' h ih =>
      rw [kinds, List.filterMap_append] at hgrounded
      have hplain : ∀ k ∈ word.filterMap Piece.kind?, k.isPlain = true := by
        intro k hk
        obtain ⟨p, hp, hkind⟩ := List.mem_filterMap.1 hk
        obtain ⟨kind, hkind', hplain⟩ := hword p hp
        rw [hkind, Option.some.injEq] at hkind'
        rwa [hkind']
      obtain ⟨hfirst, hrest⟩ := ih depth ((grounded_of_plain hplain depth _).1 hgrounded)
      have hstay : Stay word := by
        intro p hp
        obtain ⟨kind, hkind, hplain⟩ := hword p hp
        exact ne_comma_of_isPlain hkind hplain
      rw [elementsFrom_append hstay, partsFrom_of_plain hword']
      exact ⟨.plain hne hword hne' hword' hfirst, hrest⟩

theorem value?_eq_none_of_isPlain {l : Lexeme} {ls : List Lexeme} (hl : l ∈ ls)
    (hplain : l.cls.isPlain = true) : value? ls = none := by
  match ls with
  | [] => rfl
  | [m] =>
      obtain rfl := List.mem_singleton.1 hl
      rw [value?, if_neg (by rintro (h | h) <;> simp [h, Lexeme.Class.isPlain] at hplain)]
  | _ :: _ :: _ => rfl

theorem soleValue?_eq_none_of_isPlain {p : Piece} {ps : List Piece} {kind : Kind} (hp : p ∈ ps)
    (hkind : p.kind? = some kind) (hplain : kind.isPlain = true) : soleValue? ps = none := by
  match ps with
  | [] => rfl
  | [q] =>
      obtain rfl := List.mem_singleton.1 hp
      rw [soleValue?, if_neg]
      intro h
      rw [hkind, Option.some.injEq] at h
      simp [h.1, Kind.isPlain] at hplain
  | _ :: _ :: _ => rfl

theorem Rereads.eq_nil_iff {start : Nat} {ps : List Piece} {ls : List Lexeme}
    (h : Rereads start ps ls) :
    ls = [] ↔ ps.filter isCode = [] ∧ ps.any Piece.isStray = false := by
  induction h with
  | nil => simp
  | layout hkind hstray _ ih => simp [ih, isCode, hkind, hstray]
  | stray hstray => simp [hstray]
  | unit hkind => simp [isCode, hkind]
  | @plain start word ps word' ls hne hword hne' =>
      obtain ⟨p, hp⟩ := List.exists_mem_of_ne_nil word hne
      obtain ⟨kind, hkind, -⟩ := hword p hp
      simp only [List.append_eq_nil_iff, hne', false_and, false_iff, not_and]
      intro hcode
      have hmem : p ∈ (word ++ ps).filter isCode :=
        List.mem_filter.2 ⟨List.mem_append_left _ hp, by rw [isCode, hkind]; rfl⟩
      rw [hcode] at hmem
      exact absurd hmem (by simp)

/-- An argument has the value of its element, unless white space is stray in it. -/
theorem Rereads.value?_eq {start : Nat} {ps : List Piece} {ls : List Lexeme}
    (h : Rereads start ps ls) :
    value? ls = argumentValue? ps := by
  unfold argumentValue?
  induction h with
  | nil => rfl
  | @layout start p ps ls hkind hstray _ ih =>
      rw [ih, List.any_cons, hstray, Bool.false_or, elementValue?, elementValue?,
        List.filter_cons_of_neg (by simp [isCode, hkind])]
  | @stray start p cls ps ls hstray hcls =>
      rw [List.any_cons, hstray, Bool.true_or, if_pos rfl]
      exact value?_eq_none_of_isPlain (List.mem_cons_self ..) hcls
  | @unit start p kind cls ps ls hkind hunit h _ =>
      -- Whether the unit stands alone is the same question for the code and for the lexemes.
      have hstray : p.isStray = false := by
        rw [Bool.eq_false_iff]
        intro hstray
        simp [kind?_of_isStray hstray] at hkind
      rw [List.any_cons, hstray, Bool.false_or, elementValue?,
        List.filter_cons_of_pos (by rw [isCode, hkind]; rfl)]
      cases ls with
      | nil =>
          obtain ⟨hcode, hnone⟩ := h.eq_nil_iff.1 rfl
          rw [hcode, hnone, if_neg (by decide), value?, soleValue?]
          exact if_congr (isString_iff hkind hunit) rfl rfl
      | cons l ls =>
          by_cases hany : ps.any Piece.isStray = true
          · rw [if_pos hany]
            rfl
          · have hcode : ps.filter isCode ≠ [] := fun hcode =>
              absurd (h.eq_nil_iff.2 ⟨hcode, Bool.eq_false_iff.2 hany⟩) (by simp)
            obtain ⟨q, qs, hq⟩ := List.exists_cons_of_ne_nil hcode
            rw [if_neg hany, hq]
            rfl
  | @plain start word ps word' ls hne hword hne' hword' =>
      -- One plain unit on either side is enough for both to have no value.
      obtain ⟨p, hp⟩ := List.exists_mem_of_ne_nil word hne
      obtain ⟨kind, hkind, hplain⟩ := hword p hp
      obtain ⟨l, hl⟩ := List.exists_mem_of_ne_nil word' hne'
      have hmem : p ∈ (word ++ ps).filter isCode :=
        List.mem_filter.2 ⟨List.mem_append_left _ hp, by rw [isCode, hkind]; rfl⟩
      rw [value?_eq_none_of_isPlain (List.mem_append_left _ hl) (hword' l hl), elementValue?,
        soleValue?_eq_none_of_isPlain hmem hkind hplain, ite_self]

theorem filterMap_eq_of_match {elements : List (List Piece)} {arguments : List (List Lexeme)}
    (h : List.Forall₂ Match elements arguments) :
    arguments.filterMap value? = elements.filterMap argumentValue? := by
  induction h with
  | nil => rfl
  | cons hmatch _ ih =>
      obtain ⟨start, hmatch⟩ := hmatch
      rw [List.filterMap_cons, List.filterMap_cons, hmatch.value?_eq, ih]

/-- The values of an argument list whose brackets are grounded are those of its elements, the
elements apart in which white space is stray. -/
theorem values_of_cut? {s : Text} {ps : List Piece} (hcut : Source.Piece.cut? s = some ps)
    (hgrounded : Grounded 0 (kinds ps)) :
    values s = (elements ps).filterMap argumentValue? := by
  obtain ⟨hfirst, hrest⟩ := (rereads_of_cut? hcut 0).parts 0 hgrounded
  -- Parts without a lexeme are left out of the arguments, but they have no value anyway.
  have hempty : ∀ parts : List (List Lexeme),
      (parts.filter (!·.isEmpty)).filterMap value? = parts.filterMap value? := by
    intro parts
    rw [List.filterMap_filter]
    refine List.filterMap_congr fun part _ => ?_
    cases part <;> rfl
  rw [values, arguments, lexemes]
  exact (hempty _).trans (filterMap_eq_of_match (.cons ⟨0, hfirst⟩ hrest))

theorem argumentValue?_filter (ps : List Piece) :
    argumentValue? (ps.filter isSeen) = argumentValue? ps := by
  have hstray : (ps.filter isSeen).any Piece.isStray = ps.any Piece.isStray := by
    rw [List.any_filter]
    refine congrArg ps.any (funext fun p => ?_)
    rw [isSeen]
    cases p.isStray <;> simp
  have hcode : (ps.filter isSeen).filter isCode = ps.filter isCode := by
    rw [List.filter_filter]
    refine List.filter_congr fun p _ => ?_
    rw [isSeen]
    cases isCode p <;> simp
  rw [argumentValue?, argumentValue?, hstray, elementValue?, elementValue?, hcode]

theorem values_eq_of_filter {s s' : Text} {ps ps' : List Piece}
    (hcut : Source.Piece.cut? s = some ps) (hcut' : Source.Piece.cut? s' = some ps')
    (hgrounded : Grounded 0 (kinds ps)) (hgrounded' : Grounded 0 (kinds ps'))
    (h : ps.filter isSeen = ps'.filter isSeen) : values s = values s' := by
  have hfilter (ps : List Piece) : (elements (ps.filter isSeen)).filterMap argumentValue? =
      (elements ps).filterMap argumentValue? := by
    rw [elements_filter_of_code (fun p hcode => by rw [isSeen, hcode, Bool.true_or]),
      List.filterMap_map]
    exact List.filterMap_congr fun e _ => argumentValue?_filter e
  rw [values_of_cut? hcut hgrounded, values_of_cut? hcut' hgrounded', ← hfilter ps, h, hfilter ps']

end AllowedValues.Argument
