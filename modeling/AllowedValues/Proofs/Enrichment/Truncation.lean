import AllowedValues.Enrichment
import AllowedValues.Proofs.Source.Calls
import AllowedValues.Proofs.Source.Seam

/-!
Source texts that are cut short. Where a text ends between a bracket and the one that closes it,
nothing is found in it, however many complete calls come before the end.
-/

namespace AllowedValues

namespace Source

open Piece (CutsBefore cut? goesOn kinds spelling)

theorem Piece.isBracket_of_goesOn {p : Piece} {kind : Kind} {d : Char} (hkind : p.kind? = some kind)
    (h : p.goesOn d = true) : kind.isBracket = false := by
  rw [goesOn, Piece.role_eq_of_kind? hkind] at h
  cases kind with
  | opening b => cases h
  | closing b => cases h
  | _ => rfl

theorem matchFrom_ne_of_truncated {before : List Piece} {opening : Piece} {b : Bracket}
    {inner common tail more : List Piece} (hopening : opening.kind? = some (.opening b))
    (hbalanced : Balanced (kinds inner)) (hinner : inner = common ++ more)
    (htail : ∀ p ∈ tail, ∃ d, p.goesOn d = true) (closes : List (Option Nat)) :
    matchFrom 0 (kinds (before ++ opening :: (common ++ tail))) ≠ some (closes, []) := by
  intro hmatch
  have hunits : ∀ k ∈ kinds tail, k.isBracket = false := by
    intro k hk
    obtain ⟨p, hp, hkind⟩ := List.mem_filterMap.1 hk
    obtain ⟨d, hd⟩ := htail p hp
    exact Piece.isBracket_of_goesOn hkind hd
  have hgrounded : Grounded 0 (kinds (common ++ tail)) := by
    have hwhole := hbalanced.grounded
    rw [hinner, Piece.kinds_append] at hwhole
    rw [Piece.kinds_append]
    exact hwhole.of_append hunits
  have hkinds : kinds (before ++ opening :: (common ++ tail)) =
      kinds before ++ .opening b :: kinds (common ++ tail) := by
    rw [Piece.kinds_append, kinds, kinds, List.filterMap_cons_some hopening]
    rfl
  rw [hkinds] at hmatch
  obtain ⟨waiting, hrest⟩ := exists_matchFrom_of_append hmatch
  obtain ⟨j, closes', hopened, -⟩ := matchFrom_opening_eq_some_iff.1 hrest
  exact waiting_ne_cons_of_grounded hgrounded hopened

variable {source s rest : Text} {ts : List Token} {opening close : Token} {j : Nat}

/-- What is left of a text that ends between a bracket and the one that closes it: the pieces
through the bracket, and a part of what the two enclose. -/
theorem exists_of_truncated (hts : tokens? source = some ts) (hopening : opening ∈ ts)
    (hclose : opening.close = some j) (hget : ts[j]? = some close) (hsource : source = s ++ rest)
    (hfrom : opening.stop ≤ s.byteSize) (hto : s.byteSize ≤ close.start) :
    ∃ b before inner part others, opening.kind = .opening b ∧ Balanced (kinds inner) ∧
      s = spelling (before ++ [opening.piece]) ++ part ∧
      cut? (spelling (before ++ [opening.piece])) = some (before ++ [opening.piece]) ∧
      cut? (part ++ others) = some inner := by
  obtain ⟨pieces, hcut, -, htokens, -⟩ := tokens?_eq_some_iff.1 hts
  obtain ⟨head, tail, hsplit⟩ := List.append_of_mem hopening
  obtain ⟨mid, last, rfl, hbalanced, -, b, hkind, -⟩ :=
    exists_of_close (matchFrom_of_tokens? hts) hsplit hclose hget
  rw [hsplit] at htokens
  obtain ⟨before, inner, after, rfl, -, hstart, hinner, hcloseStart, -⟩ :=
    exists_pieces_around htokens
  rw [← kinds_eq_of_unmatched hinner.symm] at hbalanced
  have hstop : opening.stop = Text.byteSize (spelling (before ++ [opening.piece])) := by
    rw [Token.stop, hstart, Piece.spelling_append, Text.byteSize_append, Piece.spelling_cons,
      Piece.spelling_nil, List.append_nil]
    rfl
  have hwhole : source = spelling (before ++ [opening.piece]) ++
      (spelling inner ++ spelling (close.piece :: after)) := by
    rw [← Piece.spelling_of_cut? hcut]
    simp
  rw [List.append_cons, hwhole] at hcut
  obtain ⟨hfront, hbehind⟩ := Piece.cut?_of_append hcut rfl
  -- The text ends behind the one bracket and not behind what is closed by the other.
  obtain ⟨part, rfl⟩ := Text.exists_append_of_byteSize_le (hsource.symm.trans hwhole)
    (hstop ▸ hfrom)
  have hpart : part.byteSize ≤ (spelling inner).byteSize := by
    rw [hcloseStart, hstop, Text.byteSize_append] at hto
    omega
  rw [hwhole, List.append_assoc] at hsource
  obtain ⟨others, hothers⟩ :=
    Text.exists_append_of_byteSize_le (List.append_cancel_left hsource) hpart
  refine ⟨b, before, inner, part, others, hkind, hbalanced, rfl, hfront, ?_⟩
  rw [← hothers]
  exact (Piece.cut?_of_append hbehind rfl).1

theorem tokens?_eq_none_of_truncated (hts : tokens? source = some ts) (hopening : opening ∈ ts)
    (hclose : opening.close = some j) (hget : ts[j]? = some close) (hsource : source = s ++ rest)
    (hfrom : opening.stop ≤ s.byteSize) (hto : s.byteSize ≤ close.start) : tokens? s = none := by
  obtain ⟨b, before, inner, part, others, hkind, hbalanced, rfl, hfront, hinner⟩ :=
    exists_of_truncated hts hopening hclose hget hsource hfrom hto
  have hopens : ∀ p ∈ (before ++ [opening.piece]).getLast?, ∀ d ∈ part.head?,
      p.goesOn d = false := by
    intro p hp d _
    rw [List.getLast?_concat, Option.mem_some_iff] at hp
    rw [← hp, goesOn, Token.piece, hkind]
  rw [Option.eq_none_iff_forall_ne_some]
  intro ts' hts'
  obtain ⟨ps, hps, -, -, hmatch⟩ := tokens?_eq_some_iff.1 hts'
  rw [CutsBefore.of_cut? hfront hopens] at hps
  obtain ⟨qs, hqs, rfl⟩ := Option.map_eq_some_iff.1 hps
  obtain ⟨common, tail, more, rfl, hcommon, htail⟩ := Piece.exists_cut?_of_append hqs hinner
  rw [List.append_assoc, List.singleton_append] at hmatch
  have hopened : opening.piece.kind? = some (.opening b) := congrArg some hkind
  exact matchFrom_ne_of_truncated hopened hbalanced hcommon htail _ hmatch

end Source

open Source

/-- A text that ends between a bracket and the one that closes it has no tokens, so no call of any
function is found in it, it gives no suffix line, and enriching with it leaves every description,
an absent one included, as it was. -/
theorem enrich_of_truncated {source s rest : Text} {ts : List Token} {opening close : Token}
    {j : Nat} (hts : tokens? source = some ts) (hopening : opening ∈ ts)
    (hclose : opening.close = some j) (hget : ts[j]? = some close) (hsource : source = s ++ rest)
    (hfrom : opening.stop ≤ s.byteSize) (hto : s.byteSize ≤ close.start) :
    tokens? s = none ∧ (∀ package function, calls package function s = []) ∧
      ∀ settings : Settings, settings.suffixLines s = [] ∧
        ∀ d : Description, d.enrich settings [s] = d := by
  have hnone := tokens?_eq_none_of_truncated hts hopening hclose hget hsource hfrom hto
  have hcalls : ∀ package function, calls package function s = [] := by
    intro package function
    rw [calls, hnone]
  have hlines : ∀ settings : Settings, settings.suffixLines s = [] := by
    intro settings
    rw [Settings.suffixLines, Settings.valueSets, hcalls]
    rfl
  refine ⟨hnone, hcalls, fun settings => ⟨hlines settings, fun d => ?_⟩⟩
  rw [Description.enrich, List.flatMap_singleton, hlines]
  rfl

/-- A complete call, and after it one that ends with a line comment in it, before its newline. -/
theorem enrich_of_truncated_comment :
    let s : Text := ['p', '.', 'f', '(', '"', 'a', '"', ')', ';', 'p', '.', 'f', '(', '`', 'b', '`',
      '/', '/', ')']
    let source : Text := s ++ ['\n', ')']
    let opening : Token := ⟨.opening .paren, 12, ['('], some 12⟩
    let close : Token := ⟨.closing .paren, 20, [')'], none⟩
    let settings : Settings := { package := ['p'], function := ['f'] }
    (∃ ts, tokens? source = some ts ∧ opening ∈ ts ∧ ts[12]? = some close) ∧
      opening.stop ≤ s.byteSize ∧ s.byteSize ≤ close.start ∧
      settings.valueSets source = [[['a']], [['b']]] ∧
      tokens? s = none ∧ calls ['p'] ['f'] s = [] ∧ settings.suffixLines s = [] ∧
      ({} : Description).enrich settings [s] = {} := by
  intro s source opening close settings
  obtain ⟨ts, hts, hopening, hget⟩ :
      ∃ ts, tokens? source = some ts ∧ opening ∈ ts ∧ ts[12]? = some close := by
    have htokens : (tokens? source).any (fun ts => opening ∈ ts ∧ ts[12]? = some close) = true := by
      decide +kernel
    simpa [Option.any_eq_true] using htokens
  have hfrom : opening.stop ≤ s.byteSize := by decide
  have hto : s.byteSize ≤ close.start := by decide
  have hvalues : settings.valueSets source = [[['a']], [['b']]] := by decide +kernel
  obtain ⟨hnone, hcalls, hsettings⟩ := enrich_of_truncated hts hopening rfl hget rfl hfrom hto
  obtain ⟨hlines, henrich⟩ := hsettings settings
  exact ⟨⟨ts, hts, hopening, hget⟩, hfrom, hto, hvalues, hnone, hcalls _ _, hlines, henrich _⟩

end AllowedValues
