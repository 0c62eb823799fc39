import AllowedValues.Proofs.Source.Calls

/-!
A source text that is made of one call, with neither brackets nor names among its arguments: that
call is all that is found in it.
-/

namespace AllowedValues.Source

open Piece (cut? isCode kinds spelling)

variable {source package function : Text} {all ts : List Token}

theorem callAtHead?_of_ne_ident {t : Token} (h : t.kind ≠ .ident) :
    callAtHead? source package function all (t :: ts) = none := by
  unfold callAtHead?
  split
  · rename_i heq
    cases heq
    rw [if_neg fun hand => h hand.1]
  · rfl

theorem callsAfter_cons_of_ne_ident {t : Token} (h : t.kind ≠ .ident) (previous : Option Kind) :
    callsAfter source package function all previous (t :: ts) =
      callsAfter source package function all (some t.kind) ts := by
  rw [callsAfter, callAtHead?_of_ne_ident h]
  simp

theorem callsAfter_eq_nil (h : ∀ t ∈ ts, t.kind ≠ .ident) (previous : Option Kind) :
    callsAfter source package function all previous ts = [] := by
  induction ts generalizing previous with
  | nil => rfl
  | cons t ts ih =>
      rw [callsAfter_cons_of_ne_ident (h t (by simp)),
        ih fun u hu => h u (List.mem_cons_of_mem _ hu)]

theorem callsAfter_eq_singleton {pkg dot name opening : Token} {call : Call}
    (hcall : callAtHead? source package function all (pkg :: dot :: name :: opening :: ts) =
      some call)
    (hpkg : pkg.kind = .ident) (hdot : dot.kind = .dot)
    (hrest : ∀ t ∈ opening :: ts, t.kind ≠ .ident) :
    callsAfter source package function all none (pkg :: dot :: name :: opening :: ts) =
      [call] := by
  have hname : callsAfter source package function all (some .dot)
      (name :: opening :: ts) = [] := by
    rw [callsAfter, callsAfter_eq_nil hrest]
    simp
  have hdots : callsAfter source package function all (some .ident)
      (dot :: name :: opening :: ts) = [] := by
    rw [callsAfter_cons_of_ne_ident (by simp [hdot]), hdot, hname]
  rw [callsAfter, hpkg, hdots, hcall]
  simp

theorem matchFrom_call {ks : List Kind} (h : ∀ k ∈ ks, k.isBracket = false) :
    matchFrom 0 (.ident :: .dot :: .ident :: .opening .paren :: (ks ++ [.closing .paren])) =
      some (none :: none :: none :: some (4 + ks.length) ::
        (List.replicate ks.length none ++ [none]), []) := by
  have hinner : matchFrom 4 (ks ++ [.closing .paren]) =
      some (List.replicate ks.length none ++ [none], [(.paren, 4 + ks.length)]) := by
    rw [matchFrom_append h, matchFrom_closing]
    rfl
  have hcall := matchFrom_opening_eq_some_iff.2 ⟨_, _, hinner, rfl⟩
  rw [matchFrom_cons rfl, matchFrom_cons rfl, matchFrom_cons rfl, hcall]
  rfl

theorem kinds_filter (ps : List Piece) : kinds (ps.filter isCode) = kinds ps := by
  induction ps with
  | nil => rfl
  | cons p ps ih =>
      cases hkind : p.kind? with
      | none =>
          rw [List.filter_cons_of_neg (by simp [isCode, hkind]), ih, kinds, kinds,
            List.filterMap_cons_none hkind]
      | some kind =>
          rw [kinds] at ih
          rw [List.filter_cons_of_pos (by simp [isCode, hkind]), kinds, kinds,
            List.filterMap_cons_some hkind, List.filterMap_cons_some hkind, ih]
          rfl

section OneCall

variable {before inner after : List Piece}
  (hcut : cut? source = some (before ++ ⟨.code (.opening .paren), ['(']⟩ ::
    (inner ++ ⟨.code (.closing .paren), [')']⟩ :: after)))
  (hbefore : before.filter isCode =
    [⟨.code .ident, package⟩, ⟨.code .dot, ['.']⟩, ⟨.code .ident, function⟩])
  (hafter : after.filter isCode = [])
  (hinner : ∀ k ∈ kinds inner, k.isBracket = false ∧ k ≠ .ident)
  (hcommas : commasSettled (.opening .paren :: (kinds inner ++ [.closing .paren])) = true)

include hcut hbefore hafter hinner hcommas

theorem exists_tokens_of_call : ∃ pkg dot name opening mid close,
    tokens? source = some (pkg :: dot :: name :: opening :: (mid ++ [close])) ∧
      pkg.piece = ⟨.code .ident, package⟩ ∧ dot.piece = ⟨.code .dot, ['.']⟩ ∧
      name.piece = ⟨.code .ident, function⟩ ∧
      opening.unmatched = ⟨.opening .paren, (spelling before).byteSize, ['('], none⟩ ∧
      opening.close = some (4 + mid.length) ∧ mid.map (·.kind) = kinds inner ∧
      close.unmatched = ⟨.closing .paren,
        (spelling before).byteSize + Text.byteSize ['('] + (spelling inner).byteSize,
        [')'], none⟩ := by
  have hkinds : kinds (before ++ ⟨.code (.opening .paren), ['(']⟩ ::
      (inner ++ ⟨.code (.closing .paren), [')']⟩ :: after)) =
        .ident :: .dot :: .ident :: .opening .paren :: (kinds inner ++ [.closing .paren]) := by
    simp only [Piece.kinds_append, Piece.kinds_cons_code, ← kinds_filter before, hbefore,
      ← kinds_filter after, hafter]
    rfl
  have hmatch := matchFrom_call fun k hk => (hinner k hk).1
  rw [← hkinds] at hmatch
  obtain ⟨ts, hts, hunits, hcloses⟩ := exists_tokens? hcut (by rw [hkinds]; exact hcommas) hmatch
  -- The tokens, part by part: before the parentheses, between them and after them.
  rw [locate_append, Nat.zero_add, locate_cons_of_code rfl, locate_append,
    locate_cons_of_code rfl] at hunits
  obtain ⟨head, tail, rfl, hhead, htail⟩ := List.map_eq_append_iff.1 hunits
  obtain ⟨opening, rest, rfl, hopening, hrest⟩ := List.map_eq_cons_iff.1 htail
  obtain ⟨mid, last, rfl, hmid, hlast⟩ := List.map_eq_append_iff.1 hrest
  obtain ⟨close, nothing, rfl, hclose, hnothing⟩ := List.map_eq_cons_iff.1 hlast
  have hnil : nothing = [] := by
    have hpieces := congrArg (List.map Token.piece) hnothing
    rw [map_piece_locate, hafter, List.map_map, List.map_eq_nil_iff] at hpieces
    exact hpieces
  subst hnil
  have hpieces : head.map Token.piece =
      [⟨.code .ident, package⟩, ⟨.code .dot, ['.']⟩, ⟨.code .ident, function⟩] := by
    rw [← hbefore, ← map_piece_locate 0, ← hhead, List.map_map]
    rfl
  obtain ⟨pkg, others, rfl, hpkg, hothers⟩ := List.map_eq_cons_iff.1 hpieces
  obtain ⟨dot, names, rfl, hdot, hnames⟩ := List.map_eq_cons_iff.1 hothers
  obtain ⟨name, noNames, rfl, hname, hnoNames⟩ := List.map_eq_cons_iff.1 hnames
  obtain rfl := List.map_eq_nil_iff.1 hnoNames
  have hmidKinds : mid.map (·.kind) = kinds inner := (kinds_eq_of_unmatched hmid).symm
  have hindex : opening.close = some (4 + mid.length) := by
    simp only [List.map_append, List.map_cons, List.map_nil, List.cons_append, List.nil_append,
      List.cons.injEq, ← hmidKinds, List.length_map] at hcloses
    exact hcloses.2.2.2.1
  exact ⟨pkg, dot, name, opening, mid, close, hts, hpkg, hdot, hname, hopening, hindex, hmidKinds,
    hclose⟩

/-- A text whose code is one call of the function, with neither brackets nor names among the
arguments, has that call alone. -/
theorem exists_calls_eq_singleton :
    ∃ call, calls package function source = [call] ∧ call.arguments = spelling inner := by
  obtain ⟨pkg, dot, name, opening, mid, close, hts, hpkg, hdot, hname, hopening, hindex, hmid,
    hclose⟩ := exists_tokens_of_call hcut hbefore hafter hinner hcommas
  have hopeningKind : opening.kind = .opening .paren := congrArg Token.kind hopening
  have hcloseKind : close.kind = .closing .paren := congrArg Token.kind hclose
  have hstop : opening.stop = Text.byteSize (spelling before ++ ['(']) := by
    rw [Text.byteSize_append]
    exact congrArg Token.stop hopening
  have hcloseStart : close.start =
      Text.byteSize (spelling before ++ ['(']) + (spelling inner).byteSize := by
    rw [Text.byteSize_append]
    exact congrArg Token.start hclose
  have hsource : source = spelling before ++ ['('] ++
      (spelling inner ++ ')' :: spelling after) := by
    rw [← Piece.spelling_of_cut? hcut]
    simp
  have harguments : source.slice opening.stop close.start = spelling inner := by
    rw [hstop, hcloseStart, hsource, Text.slice_middle]
  have hpkgIdent : pkg.kind = .ident ∧ pkg.text = package := by
    simpa [Token.piece] using hpkg
  have hdotKind : dot.kind = .dot := by
    simpa [Token.piece] using congrArg Piece.role hdot
  have hnameIdent : name.kind = .ident ∧ name.text = function := by
    simpa [Token.piece] using hname
  have hget : (pkg :: dot :: name :: opening :: (mid ++ [close]))[4 + mid.length]? =
      some close := by
    simp [Nat.add_comm 4]
  have hcall : callAtHead? source package function
      (pkg :: dot :: name :: opening :: (mid ++ [close]))
      (pkg :: dot :: name :: opening :: (mid ++ [close])) =
        some ⟨pkg.start, close.stop, source.slice opening.stop close.start⟩ := by
    rw [callAtHead?, if_pos ⟨hpkgIdent.1, hpkgIdent.2, hdotKind, hnameIdent.1, hnameIdent.2,
      hopeningKind⟩, hindex, Option.bind_some, hget]
    rfl
  have hnoNames : ∀ t ∈ opening :: (mid ++ [close]), t.kind ≠ .ident := by
    intro t ht
    rw [List.mem_cons, List.mem_append, List.mem_singleton] at ht
    rcases ht with rfl | ht | rfl
    · simp [hopeningKind]
    · have hmem : t.kind ∈ kinds inner := by
        rw [← hmid]
        exact List.mem_map_of_mem ht
      exact (hinner t.kind hmem).2
    · simp [hcloseKind]
  refine ⟨⟨pkg.start, close.stop, source.slice opening.stop close.start⟩, ?_, harguments⟩
  rw [calls, hts]
  exact callsAfter_eq_singleton hcall hpkgIdent.1 hdotKind hnoNames

end OneCall

end AllowedValues.Source
