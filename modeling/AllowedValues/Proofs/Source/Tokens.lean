import AllowedValues.Proofs.Source.Brackets
import AllowedValues.Proofs.Source.Cut

/-!
Tokens of a text. They are its code units in their places, where the commas are settled and the
brackets match.
-/

namespace AllowedValues.Source

open Piece (cut? isCode kinds spelling)

/-- The unit of code that a token is. -/
def Token.piece (t : Token) : Piece := ⟨.code t.kind, t.text⟩

/-- A token without what it is matched to. -/
def Token.unmatched (t : Token) : Token := { t with close := none }

theorem locate_cons_of_code {p : Piece} {kind : Kind} (hp : p.role = .code kind) (start : Nat)
    (ps : List Piece) : locate start (p :: ps) =
      { kind, start, text := p.text } :: locate (start + p.text.byteSize) ps := by
  rw [locate, hp]

theorem locate_cons_of_kind?_eq_none {p : Piece} (hp : p.kind? = none) (start : Nat)
    (ps : List Piece) : locate start (p :: ps) = locate (start + p.text.byteSize) ps := by
  rw [locate]
  unfold Piece.kind? at hp
  cases hrole : p.role with
  | code kind => simp [hrole] at hp
  | space => rfl
  | comment => rfl

theorem Piece.role_eq_of_kind? {p : Piece} {kind : Kind} (h : p.kind? = some kind) :
    p.role = .code kind := by
  unfold Piece.kind? at h
  cases hrole : p.role with
  | code kind' =>
      rw [hrole] at h
      cases h
      rfl
  | space => simp [hrole] at h
  | comment => simp [hrole] at h

theorem locate_append (start : Nat) (ps qs : List Piece) :
    locate start (ps ++ qs) =
      locate start ps ++ locate (start + (spelling ps).byteSize) qs := by
  induction ps generalizing start with
  | nil => rfl
  | cons p ps ih =>
      have hsize : start + (spelling (p :: ps)).byteSize =
          start + p.text.byteSize + (spelling ps).byteSize := by
        rw [Piece.spelling_cons, Text.byteSize_append, Nat.add_assoc]
      cases hkind : p.kind? with
      | none =>
          rw [List.cons_append, locate_cons_of_kind?_eq_none hkind,
            locate_cons_of_kind?_eq_none hkind, ih, hsize]
      | some kind =>
          have hrole := Piece.role_eq_of_kind? hkind
          rw [List.cons_append, locate_cons_of_code hrole, locate_cons_of_code hrole, ih, hsize]
          rfl

theorem map_piece_locate (start : Nat) (ps : List Piece) :
    (locate start ps).map Token.piece = ps.filter isCode := by
  induction ps generalizing start with
  | nil => rfl
  | cons p ps ih =>
      cases hkind : p.kind? with
      | none =>
          rw [locate_cons_of_kind?_eq_none hkind, ih, List.filter_cons_of_neg]
          simp [isCode, hkind]
      | some kind =>
          have hrole := Piece.role_eq_of_kind? hkind
          have hpiece : p = ⟨.code kind, p.text⟩ := by rw [← hrole]
          rw [locate_cons_of_code hrole, List.map_cons, ih, List.filter_cons_of_pos,
            Token.piece, ← hpiece]
          rw [isCode, hkind]
          rfl

theorem kinds_eq_map_locate (start : Nat) (ps : List Piece) :
    kinds ps = (locate start ps).map (·.kind) := by
  induction ps generalizing start with
  | nil => rfl
  | cons p ps ih =>
      cases hkind : p.kind? with
      | none =>
          rw [locate_cons_of_kind?_eq_none hkind, kinds, List.filterMap_cons_none hkind, ← ih]
          rfl
      | some kind =>
          rw [locate_cons_of_code (Piece.role_eq_of_kind? hkind), kinds,
            List.filterMap_cons_some hkind, List.map_cons, ← ih]
          rfl

/-- A token stands where the pieces before it end. -/
theorem exists_of_locate_eq_append_cons {start : Nat} {ps : List Piece} {front rest : List Token}
    {t : Token} (h : locate start ps = front ++ t :: rest) : ∃ before after,
      ps = before ++ t.piece :: after ∧ locate start before = front ∧
        t.start = start + (spelling before).byteSize ∧ locate t.stop after = rest := by
  induction ps generalizing start front with
  | nil => simp [locate] at h
  | cons p ps ih =>
      cases hkind : p.kind? with
      | none =>
          rw [locate_cons_of_kind?_eq_none hkind] at h
          obtain ⟨before, after, rfl, hfront, hstart, hrest⟩ := ih h
          refine ⟨p :: before, after, rfl, ?_, ?_, hrest⟩
          · rw [locate_cons_of_kind?_eq_none hkind, hfront]
          · rw [hstart, Piece.spelling_cons, Text.byteSize_append, Nat.add_assoc]
      | some kind =>
          have hrole := Piece.role_eq_of_kind? hkind
          rw [locate_cons_of_code hrole] at h
          cases front with
          | nil =>
              obtain ⟨rfl, rfl⟩ := List.cons.inj h
              refine ⟨[], ps, ?_, rfl, rfl, rfl⟩
              rw [List.nil_append, Token.piece, ← hrole]
          | cons u front =>
              obtain ⟨rfl, hnext⟩ := List.cons.inj h
              obtain ⟨before, after, rfl, hfront, hstart, hrest⟩ := ih hnext
              refine ⟨p :: before, after, rfl, ?_, ?_, hrest⟩
              · rw [locate_cons_of_code hrole, hfront]
              · rw [hstart, Piece.spelling_cons, Text.byteSize_append, Nat.add_assoc]

theorem bounds_of_mem_locate {start : Nat} {ps : List Piece} {t : Token} (h : t ∈ locate start ps) :
    t.piece ∈ ps ∧ start ≤ t.start ∧ t.stop ≤ start + (spelling ps).byteSize := by
  obtain ⟨front, rest, h⟩ := List.append_of_mem h
  obtain ⟨before, after, rfl, -, hstart, -⟩ := exists_of_locate_eq_append_cons h
  refine ⟨by simp, by omega, ?_⟩
  have htext : t.piece.text = t.text := rfl
  rw [Token.stop, hstart, Piece.spelling_append, Piece.spelling_cons, Text.byteSize_append,
    Text.byteSize_append, htext]
  omega

theorem pairwise_locate (start : Nat) (ps : List Piece) :
    (locate start ps).Pairwise fun t u => t.stop ≤ u.start := by
  induction ps generalizing start with
  | nil => exact .nil
  | cons p ps ih =>
      cases hkind : p.kind? with
      | none =>
          rw [locate_cons_of_kind?_eq_none hkind]
          exact ih _
      | some kind =>
          rw [locate_cons_of_code (Piece.role_eq_of_kind? hkind), List.pairwise_cons]
          exact ⟨fun u hu => (bounds_of_mem_locate hu).2.1, ih _⟩

theorem pairwise_of_unmatched {ts : List Token} {start : Nat} {ps : List Piece}
    (h : ts.map Token.unmatched = locate start ps) : ts.Pairwise fun t u => t.stop ≤ u.start := by
  have hunits := pairwise_locate start ps
  rwa [← h, List.pairwise_map] at hunits

theorem mem_locate_of_unmatched {ts : List Token} {start : Nat} {ps : List Piece} {t : Token}
    (h : ts.map Token.unmatched = locate start ps) (ht : t ∈ ts) :
    t.unmatched ∈ locate start ps := by
  rw [← h]
  exact List.mem_map_of_mem ht

theorem start_lt_stop {source : Text} {pieces : List Piece} {ts : List Token} {t : Token}
    (hcut : cut? source = some pieces) (h : ts.map Token.unmatched = locate 0 pieces)
    (ht : t ∈ ts) : t.start < t.stop := by
  obtain ⟨c, rest, n, -, htext⟩ := Piece.exists_reach?_of_mem_cut? hcut
    (bounds_of_mem_locate (mem_locate_of_unmatched h ht)).1
  have hpos := c.utf8Size_pos
  have hsize : t.text.byteSize = c.utf8Size + Text.byteSize (rest.take n) :=
    congrArg Text.byteSize htext
  rw [Token.stop]
  omega

theorem kinds_eq_of_unmatched {ts : List Token} {start : Nat} {ps : List Piece}
    (h : ts.map Token.unmatched = locate start ps) : kinds ps = ts.map (·.kind) := by
  rw [kinds_eq_map_locate start, ← h, List.map_map]
  rfl

theorem map_unmatched_locate (start : Nat) (ps : List Piece) :
    (locate start ps).map Token.unmatched = locate start ps := by
  induction ps generalizing start with
  | nil => rfl
  | cons p ps ih =>
      cases hkind : p.kind? with
      | none => rw [locate_cons_of_kind?_eq_none hkind, ih]
      | some kind =>
          rw [locate_cons_of_code (Piece.role_eq_of_kind? hkind), List.map_cons, ih]
          rfl

section Matching

/-- Gives every token what it is matched to. -/
def settle (ts : List Token) (closes : List (Option Nat)) : List Token :=
  ts.zipWith (fun t close => { t with close }) closes

theorem settle_self (ts : List Token) :
    settle (ts.map Token.unmatched) (ts.map (·.close)) = ts := by
  induction ts with
  | nil => rfl
  | cons t ts ih =>
      rw [settle] at ih
      rw [settle, List.map_cons, List.map_cons, List.zipWith_cons_cons, ih]
      rfl

/-- Tokens are what they are by their units and by what they are matched to. -/
theorem eq_of_unmatched {ts us : List Token} (h : ts.map Token.unmatched = us.map Token.unmatched)
    (hcloses : ts.map (·.close) = us.map (·.close)) : ts = us := by
  rw [← settle_self ts, h, hcloses, settle_self]

theorem map_settle {ts : List Token} {closes : List (Option Nat)}
    (h : closes.length = ts.length) : (settle ts closes).map (·.close) = closes ∧
      (settle ts closes).map Token.unmatched = ts.map Token.unmatched := by
  induction ts generalizing closes with
  | nil =>
      obtain rfl := List.length_eq_zero_iff.1 h
      exact ⟨rfl, rfl⟩
  | cons t ts ih =>
      cases closes with
      | nil => simp at h
      | cons close closes =>
          obtain ⟨hcloses, htokens⟩ := ih (Nat.succ.inj h)
          rw [settle] at hcloses htokens
          rw [settle, List.zipWith_cons_cons, List.map_cons, List.map_cons, hcloses, htokens]
          exact ⟨rfl, rfl⟩

end Matching

theorem commasSettled_iff_isChain {ks : List Kind} : commasSettled ks = true ↔
    ks.IsChain fun k l => ¬ (k.awaitsElement = true ∧ l = .comma) := by
  induction ks with
  | nil => simp [commasSettled]
  | cons k ks ih =>
      cases ks with
      | nil => simp [commasSettled]
      | cons l ks =>
          rw [commasSettled, Bool.and_eq_true, ih, List.isChain_cons_cons]
          refine and_congr_left fun _ => ?_
          cases k.awaitsElement <;> simp

theorem bracketMatches?_eq_some_iff {ks : List Kind} {closes : List (Option Nat)} :
    bracketMatches? ks = some closes ↔ matchFrom 0 ks = some (closes, []) := by
  rw [bracketMatches?]
  split
  · simp_all
  · simp_all

/-- The tokens of a text are its code units in their places, with brackets that match. -/
theorem tokens?_eq_some_iff {source : Text} {ts : List Token} :
    tokens? source = some ts ↔ ∃ pieces, cut? source = some pieces ∧
      commasSettled (kinds pieces) = true ∧ ts.map Token.unmatched = locate 0 pieces ∧
        matchFrom 0 (kinds pieces) = some (ts.map (·.close), []) := by
  constructor
  · intro h
    unfold tokens? at h
    cases hcut : cut? source with
    | none => simp [hcut] at h
    | some pieces =>
        simp only [hcut, ← kinds_eq_map_locate] at h
        split_ifs at h with hcommas
        obtain ⟨closes, hmatch, heq⟩ := Option.map_eq_some_iff.1 h
        rw [bracketMatches?_eq_some_iff] at hmatch
        have hlength : closes.length = (locate 0 pieces).length := by
          rw [length_of_matchFrom hmatch, kinds_eq_map_locate 0, List.length_map]
        obtain ⟨hcloses, htokens⟩ := map_settle hlength
        rw [settle, heq] at hcloses htokens
        rw [map_unmatched_locate] at htokens
        exact ⟨pieces, rfl, hcommas, htokens, by rw [hcloses, hmatch]⟩
  · rintro ⟨pieces, hcut, hcommas, htokens, hmatch⟩
    have hself := settle_self ts
    rw [settle, htokens] at hself
    unfold tokens?
    simp only [hcut, ← kinds_eq_map_locate]
    rw [if_pos hcommas, bracketMatches?_eq_some_iff.2 hmatch, Option.map_some, hself]

theorem matchFrom_of_tokens? {source : Text} {ts : List Token} (h : tokens? source = some ts) :
    matchFrom 0 (ts.map (·.kind)) = some (ts.map (·.close), []) := by
  obtain ⟨pieces, -, -, hunits, hmatch⟩ := tokens?_eq_some_iff.1 h
  rwa [kinds_eq_of_unmatched hunits] at hmatch

theorem exists_tokens? {source : Text} {pieces : List Piece} {closes : List (Option Nat)}
    (hcut : cut? source = some pieces) (hcommas : commasSettled (kinds pieces) = true)
    (hmatch : matchFrom 0 (kinds pieces) = some (closes, [])) : ∃ ts, tokens? source = some ts ∧
      ts.map Token.unmatched = locate 0 pieces ∧ ts.map (·.close) = closes := by
  have hlength : closes.length = (locate 0 pieces).length := by
    rw [length_of_matchFrom hmatch, kinds_eq_map_locate 0, List.length_map]
  obtain ⟨hcloses, htokens⟩ := map_settle hlength
  rw [map_unmatched_locate] at htokens
  refine ⟨settle (locate 0 pieces) closes, ?_, htokens, hcloses⟩
  exact tokens?_eq_some_iff.2 ⟨pieces, hcut, hcommas, htokens, by rw [hcloses, hmatch]⟩

end AllowedValues.Source
