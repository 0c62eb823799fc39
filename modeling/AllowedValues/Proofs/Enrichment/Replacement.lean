import AllowedValues.Enrichment
import AllowedValues.Proofs.Argument.Layout
import AllowedValues.Proofs.Argument.Structure
import AllowedValues.Proofs.Source.Embedding
import AllowedValues.Proofs.Source.Likeness
import AllowedValues.Proofs.Source.Seam

/-!
Literals and comments with other contents. Nothing that a literal holds takes part in where tokens
begin and end, which brackets belong together or what is a call, and a comment takes no part in
anything that one space does not do as well.
-/

namespace AllowedValues

/-- The text with another one in the place of the part between two byte positions. -/
def Text.replace (s : Text) (start stop : Nat) (t : Text) : Text :=
  takeBytes start s ++ (t ++ dropBytes stop s)

theorem Text.replace_middle (s t u v : Text) :
    replace (s ++ (t ++ u)) (byteSize s) (byteSize s + byteSize t) v = s ++ (v ++ u) := by
  rw [replace, takeBytes_append, ← byteSize_append, ← List.append_assoc s t u, dropBytes_append]

namespace Source

open Piece (CutsBefore cut? goesOn_of_cut? isCode isSeen kinds spelling)

/-- A token behind a place that moves from byte `old` to byte `new`. -/
def Token.move (old new : Nat) (t : Token) : Token := { t with start := t.start - old + new }

theorem locate_move (old new : Nat) (ps : List Piece) :
    (locate old ps).map (Token.move old new) = locate new ps := by
  have hold := locate_add old 0 0 ps
  have hnew := locate_add new 0 0 ps
  rw [Nat.zero_add] at hold hnew
  rw [hold, hnew, List.map_map]
  refine List.map_congr_left fun t _ => ?_
  simp [Token.move, Token.shift]

theorem map_unmatched_move (old new : Nat) (ts : List Token) :
    (ts.map (Token.move old new)).map Token.unmatched =
      (ts.map Token.unmatched).map (Token.move old new) := by
  rw [List.map_map, List.map_map]
  rfl

theorem map_signature_move (old new : Nat) (ts : List Token) :
    (ts.map (Token.move old new)).map Token.signature = ts.map Token.signature := by
  rw [List.map_map]
  rfl

section Pieces

variable {source : Text} {before after : List Piece} {p : Piece}

theorem Piece.eq_spelling_around (hcut : cut? source = some (before ++ p :: after)) :
    source = spelling before ++ (p.text ++ spelling after) := by
  rw [← spelling_of_cut? hcut, spelling_append, spelling_cons]

theorem Piece.replace_eq (hcut : cut? source = some (before ++ p :: after)) (t : Text) :
    source.replace (spelling before).byteSize ((spelling before).byteSize + p.text.byteSize) t =
      spelling before ++ (t ++ spelling after) := by
  refine (congrArg (Text.replace · _ _ _) (eq_spelling_around hcut)).trans ?_
  exact Text.replace_middle _ _ _ _

/-- Where a piece stands, another one can stand that ends there and that the piece before it does
not go on with. -/
theorem Piece.cut?_replace (hcut : cut? source = some (before ++ p :: after)) {c : Char} {s : Text}
    {role : Role} (hnew : CutsBefore (c :: s) [⟨role, c :: s⟩] (spelling after))
    (hend : ∀ q ∈ before.getLast?, q.goesOn c = false) :
    cut? (source.replace (spelling before).byteSize
        ((spelling before).byteSize + p.text.byteSize) (c :: s)) =
      some (before ++ ⟨role, c :: s⟩ :: after) := by
  rw [replace_eq hcut]
  rw [eq_spelling_around hcut] at hcut
  obtain ⟨hbefore, hrest⟩ := cut?_of_append hcut rfl
  rw [← List.singleton_append] at hrest
  obtain ⟨-, hafter⟩ := cut?_of_append hrest (by simp)
  have hnext : CutsBefore (spelling before) before (c :: s ++ spelling after) := by
    refine CutsBefore.of_cut? hbefore fun q hq d hd => ?_
    obtain rfl : c = d := Option.some.inj hd
    exact hend q hq
  rw [hnext, hnew, hafter]
  rfl

theorem Piece.goesOn_head (hcut : cut? source = some (before ++ p :: after)) {c : Char}
    (hhead : p.text.head? = some c) : ∀ q ∈ before.getLast?, q.goesOn c = false := by
  intro q hq
  rw [eq_spelling_around hcut] at hcut
  refine goesOn_of_cut? hcut rfl q hq c ?_
  rw [List.head?_append, hhead]
  rfl

theorem Piece.head?_of_comment {pieces : List Piece} (hcut : cut? source = some pieces)
    (hp : p ∈ pieces) (hrole : p.role = .comment) : p.text.head? = some '/' := by
  obtain ⟨c, s, n, hreach, htext⟩ := exists_reach?_of_mem_cut? hcut hp
  have hreaches := reaches_of_reach? hreach
  rw [hrole] at hreaches
  rw [htext, List.head?_cons]
  cases hreaches with
  | line hslash _ => rw [hslash]
  | block hslash _ _ => rw [hslash]

theorem Piece.goesOn_space (h : p.goesOn '/' = false) : p.goesOn ' ' = false := by
  obtain ⟨role, text⟩ := p
  cases role with
  | space => rfl
  | comment => simpa [goesOn] using h
  | code kind =>
      have hspace : isIdentifierPart ' ' = false := by decide
      cases kind with
      | ident => exact hspace
      | number => simp [goesOn, hspace]
      | punct => simp [goesOn]
      | _ => rfl

end Pieces

variable {source : Text} {ts : List Token}

theorem readAlike_replace_literal {front last : List Token} {t : Token} {quote : Char}
    {body : Text} (hts : tokens? source = some ts) (hsplit : ts = front ++ t :: last)
    (hkind : t.kind = .literal) (hquote : t.text.head? = some quote)
    (hbody : Literal.IsBody quote body) :
    let t' : Token := { t with text := quote :: (body ++ [quote]) }
    ReadAlike source ts (source.replace t.start t.stop t'.text)
      (front ++ t' :: last.map (Token.move t.stop t'.stop)) := by
  intro t'
  obtain ⟨pieces, hcut, -, hunits, -⟩ := tokens?_eq_some_iff.1 hts
  rw [hsplit, List.map_append, List.map_cons] at hunits
  obtain ⟨before, after, rfl, hbefore, hstart, hafter⟩ :=
    exists_of_locate_eq_append_cons hunits.symm
  replace hstart : t.start = (spelling before).byteSize := hstart.trans (Nat.zero_add _)
  have hquotes : quote ∈ ['"', '`', '\''] := by
    obtain ⟨c, hc, hhead⟩ := Argument.exists_quote_of_literal hcut (p := t.unmatched.piece)
      (by simp) (congrArg Piece.Role.code hkind)
    obtain rfl : quote = c := Option.some.inj (hquote.symm.trans hhead)
    exact hc
  have hcut' := Piece.cut?_replace hcut
    (Argument.cutsBefore_body hquotes hbody (spelling after)) (Piece.goesOn_head hcut hquote)
  rw [← hstart] at hcut'
  refine ReadAlike.of_signature hts hcut' ?_ ?_
  · have hunit : t'.unmatched = ⟨.literal, (spelling before).byteSize, t'.text, none⟩ := by
      rw [← hstart, ← hkind]
      rfl
    have hstop : t'.stop = (spelling before).byteSize + t'.text.byteSize := by
      rw [Token.stop, ← hstart]
    have hmoved : (locate t.unmatched.stop after).map (Token.move t.stop t'.stop) =
        locate t'.stop after := locate_move _ _ _
    rw [List.map_append, List.map_cons, map_unmatched_move, ← hbefore, ← hafter, hmoved,
      locate_append, locate_cons_of_code rfl, Nat.zero_add, hunit, hstop]
  · have ht : t.signature = t'.signature := by
      rw [Token.signature_eq_iff]
      exact ⟨rfl, rfl, fun hident => by simp [hkind] at hident⟩
    rw [hsplit, List.map_append, List.map_cons, List.map_append, List.map_cons,
      map_signature_move, ht]

section Comment

variable {before after : List Piece} {comment : Text}

theorem cut?_replace_comment (hcut : cut? source = some (before ++ ⟨.comment, comment⟩ :: after)) :
    cut? (source.replace (spelling before).byteSize
        ((spelling before).byteSize + comment.byteSize) [' ']) =
      some (before ++ ⟨.space, [' ']⟩ :: after) := by
  have hslash := Piece.goesOn_head hcut (Piece.head?_of_comment hcut (by simp) rfl)
  exact Piece.cut?_replace hcut (Argument.cutsBefore_space (by decide) (spelling after))
    fun q hq => Piece.goesOn_space (hslash q hq)

theorem exists_readAlike_replace_comment (hts : tokens? source = some ts)
    (hcut : cut? source = some (before ++ ⟨.comment, comment⟩ :: after)) :
    let start := (spelling before).byteSize
    let stop := start + comment.byteSize
    ∃ front last, ts = front ++ last ∧ (∀ t ∈ front, t.stop ≤ start) ∧
      (∀ t ∈ last, stop ≤ t.start) ∧
      ReadAlike source ts (source.replace start stop [' '])
        (front ++ last.map (Token.move stop (start + 1))) := by
  intro start stop
  obtain ⟨pieces, hcut', -, hunits, -⟩ := tokens?_eq_some_iff.1 hts
  obtain rfl := Option.some.inj (hcut.symm.trans hcut')
  rw [locate_append, Nat.zero_add, locate_cons_of_kind?_eq_none rfl] at hunits
  obtain ⟨front, last, hsplit, hfront, hlast⟩ := List.map_eq_append_iff.1 hunits
  refine ⟨front, last, hsplit, fun t ht => ?_, fun t ht => ?_, ?_⟩
  · have hbound := (bounds_of_mem_locate (mem_locate_of_unmatched hfront ht)).2.2
    rwa [Nat.zero_add] at hbound
  · exact (bounds_of_mem_locate (mem_locate_of_unmatched hlast ht)).2.1
  · refine ReadAlike.of_signature hts (cut?_replace_comment hcut) ?_ ?_
    · rw [List.map_append, map_unmatched_move, hfront, hlast, locate_move, locate_append,
        Nat.zero_add, locate_cons_of_kind?_eq_none rfl]
      rfl
    · rw [hsplit, List.map_append, List.map_append, map_signature_move]

end Comment

section Values

variable {source' package function : Text} {ts' : List Token} {call call' : Call}
  {pieces pieces' : List Piece}

/-- Two lists are cut alike at elements of one kind that come after as many of that kind. -/
theorem append_cons_inj_of_countP {p : α → Bool} {as bs s t : List α} {a b : α}
    (h : as ++ a :: s = bs ++ b :: t) (ha : p a = true) (hb : p b = true)
    (hcount : as.countP p = bs.countP p) : as = bs ∧ a = b ∧ s = t := by
  induction as generalizing bs with
  | nil =>
      cases bs with
      | nil => exact ⟨rfl, List.cons.inj h⟩
      | cons c bs =>
          obtain ⟨rfl, -⟩ := List.cons.inj h
          simp [ha] at hcount
  | cons d as ih =>
      cases bs with
      | nil =>
          obtain ⟨rfl, -⟩ := List.cons.inj h
          simp [hb] at hcount
      | cons c bs =>
          obtain ⟨rfl, hrest⟩ := List.cons.inj h
          rw [List.countP_cons, List.countP_cons, Nat.add_right_cancel_iff] at hcount
          obtain ⟨rfl, hcons⟩ := ih hrest hcount
          exact ⟨rfl, hcons⟩

theorem countP_filter_isSeen {start : Nat} {ps : List Piece}
    (h : locate start ps = ts.map Token.unmatched) :
    (ps.filter isSeen).countP isCode = ts.length := by
  have hlength := congrArg List.length (map_piece_locate start ps)
  rw [h, List.length_map, List.length_map] at hlength
  rw [List.countP_filter, hlength, ← List.countP_eq_length_filter]
  refine List.countP_congr fun p _ => ?_
  rw [isSeen]
  cases isCode p <;> simp

/-- Calls at the same tokens have the same values, if the two texts differ only in what no reading
of an argument list sees. -/
theorem Counterparts.values_eq
    (h : Counterparts package function source source' ts ts' call call')
    (hts : tokens? source = some ts) (hts' : tokens? source' = some ts')
    (hsame : ts.map Token.signature = ts'.map Token.signature) (hcut : cut? source = some pieces)
    (hcut' : cut? source' = some pieces') (hseen : pieces.filter isSeen = pieces'.filter isSeen) :
    Argument.values call.arguments = Argument.values call'.arguments := by
  obtain ⟨-, site, site', hbefore, hbefore', hfront, hinner⟩ := h.exists_sites hts hts' hsame
  obtain rfl := Option.some.inj (site.cut_eq.symm.trans hcut)
  obtain rfl := Option.some.inj (site'.cut_eq.symm.trans hcut')
  have hcode (t : Token) : isCode t.piece = true := rfl
  have hkept (t : Token) : isSeen t.piece = true := rfl
  simp only [List.filter_append, List.filter_cons_of_pos (hkept _)] at hseen
  obtain ⟨-, -, hrest⟩ := append_cons_inj_of_countP hseen (hcode _) (hcode _)
    (by rw [countP_filter_isSeen hbefore, countP_filter_isSeen hbefore', hfront])
  obtain ⟨hbetween, -, -⟩ := append_cons_inj_of_countP hrest (hcode _) (hcode _)
    (by rw [countP_filter_isSeen site.inner_eq, countP_filter_isSeen site'.inner_eq, hinner])
  refine Argument.values_eq_of_filter site.cut?_arguments site'.cut?_arguments ?_ ?_ hbetween
  · rw [site.kinds_between]
    exact site.balanced.grounded
  · rw [site'.kinds_between]
    exact site'.balanced.grounded

theorem valueSets_eq_of_filter (hts : tokens? source = some ts) (hts' : tokens? source' = some ts')
    (hsame : ts.map Token.signature = ts'.map Token.signature) (hcut : cut? source = some pieces)
    (hcut' : cut? source' = some pieces') (hseen : pieces.filter isSeen = pieces'.filter isSeen)
    (settings : Settings) : settings.valueSets source = settings.valueSets source' := by
  rw [Settings.valueSets, Settings.valueSets, ← List.forall₂_eq_eq_eq, List.forall₂_map_left_iff,
    List.forall₂_map_right_iff]
  exact (forall₂_calls hts hts' hsame settings.package settings.function).imp
    fun _ _ hpair => hpair.values_eq hts hts' hsame hcut hcut' hseen

end Values

end Source

open Source

/-- What literals and comments hold takes no part in recognition. A literal can have any other body
that its quote can stand around: the tokens stay the same, moved, and the calls of every function
stand at the same ones. A space can stand for a comment, and then the values that any settings find
stay the same as well. -/
theorem readAlike_replace {source : Text} {ts : List Token} (hts : tokens? source = some ts) :
    (∀ (front last : List Token) (t : Token) (quote : Char) (body : Text),
      ts = front ++ t :: last → t.kind = .literal → t.text.head? = some quote →
        Literal.IsBody quote body →
      let t' : Token := { t with text := quote :: (body ++ [quote]) }
      ReadAlike source ts (source.replace t.start t.stop t'.text)
        (front ++ t' :: last.map (Token.move t.stop t'.stop))) ∧
    ∀ (before after : List Piece) (comment : Text),
      Piece.cut? source = some (before ++ ⟨.comment, comment⟩ :: after) →
      let start := (Piece.spelling before).byteSize
      let stop := start + comment.byteSize
      let source' := source.replace start stop [' ']
      (∃ front last, ts = front ++ last ∧ (∀ t ∈ front, t.stop ≤ start) ∧
        (∀ t ∈ last, stop ≤ t.start) ∧
        ReadAlike source ts source' (front ++ last.map (Token.move stop (start + 1)))) ∧
      ∀ settings : Settings, settings.valueSets source' = settings.valueSets source := by
  refine ⟨fun _ _ _ _ _ hsplit hkind hquote hbody =>
    readAlike_replace_literal hts hsplit hkind hquote hbody, ?_⟩
  intro before after comment hcut start stop source'
  obtain ⟨front, last, hsplit, hfront, hlast, halike⟩ := exists_readAlike_replace_comment hts hcut
  refine ⟨⟨front, last, hsplit, hfront, hlast, halike⟩, fun settings => ?_⟩
  refine (valueSets_eq_of_filter hts halike.tokens_eq ?_ hcut (cut?_replace_comment hcut) ?_
    settings).symm
  · rw [hsplit, List.map_append, List.map_append, map_signature_move]
  · rw [List.filter_append, List.filter_append]
    rfl

/-- A literal that comes to hold a closing parenthesis and a call, and a comment that holds a
parenthesis and a quote. -/
theorem readAlike_replace_call :
    let source : Text := "p.f(\"é\",`b`/*)\"*/)".toList
    let front : List Token := [⟨.ident, 0, ['p'], none⟩, ⟨.dot, 1, ['.'], none⟩,
      ⟨.ident, 2, ['f'], none⟩, ⟨.opening .paren, 3, ['('], some 7⟩]
    let t : Token := ⟨.literal, 4, ['"', 'é', '"'], none⟩
    let last : List Token := [⟨.comma, 8, [','], none⟩, ⟨.literal, 9, ['`', 'b', '`'], none⟩,
      ⟨.closing .paren, 18, [')'], none⟩]
    let body : Text := [')', '\\', '"', 'p', '.', 'f', '(']
    let last' : List Token := [⟨.comma, 13, [','], none⟩, ⟨.literal, 14, ['`', 'b', '`'], none⟩,
      ⟨.closing .paren, 23, [')'], none⟩]
    let before : List Piece := (front ++ t :: last.take 2).map Token.piece
    let comment : Text := ['/', '*', ')', '"', '*', '/']
    let settings : Settings := { package := ['p'], function := ['f'] }
    tokens? source = some (front ++ t :: last) ∧ Literal.IsBody '"' body ∧
      ReadAlike source (front ++ t :: last) "p.f(\")\\\"p.f(\",`b`/*)\"*/)".toList
        (front ++ ⟨.literal, 4, '"' :: (body ++ ['"']), none⟩ :: last') ∧
      Piece.cut? source = some (before ++ ⟨.comment, comment⟩ :: (last.drop 2).map Token.piece) ∧
      (∃ ts', ReadAlike source (front ++ t :: last) "p.f(\"é\",`b` )".toList ts') ∧
      settings.valueSets "p.f(\"é\",`b` )".toList = [[['é'], ['b']]] := by
  intro source front t last body last' before comment settings
  have hts : tokens? source = some (front ++ t :: last) := by decide +kernel
  have hbody : Literal.IsBody '"' body := by
    rw [Literal.IsBody, if_neg (by decide)]
    exact Literal.units_take_bodyLength '"' body
  have hcut : Piece.cut? source =
      some (before ++ ⟨.comment, comment⟩ :: (last.drop 2).map Token.piece) := by decide +kernel
  have hbehind : last.map (Token.move 8 13) = last' := by decide +kernel
  have hother : source.replace 4 8 ('"' :: (body ++ ['"'])) =
      "p.f(\")\\\"p.f(\",`b`/*)\"*/)".toList := by decide +kernel
  have hspace : source.replace 12 18 [' '] = "p.f(\"é\",`b` )".toList := by decide +kernel
  obtain ⟨hliteral, hcomment⟩ := readAlike_replace hts
  obtain ⟨⟨_, _, _, -, -, halike⟩, hvalues⟩ := hcomment _ _ _ hcut
  rw [← hbehind, ← hother, ← hspace]
  refine ⟨hts, hbody, hliteral front last t '"' body rfl rfl rfl hbody, hcut, ⟨_, halike⟩, ?_⟩
  refine (hvalues settings).trans ?_
  decide +kernel

end AllowedValues
