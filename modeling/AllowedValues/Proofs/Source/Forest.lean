import AllowedValues.Proofs.Source.Matching
import AllowedValues.Proofs.Source.Nesting

/-!
How the calls in a text lie to each other. A call is found wherever its head stands, it reaches
through the parenthesis that closes its arguments, and of two calls the later one lies behind the
earlier one or among its arguments. In the order in which they are found the calls are a forest
that is read from the roots on.
-/

namespace AllowedValues.Source

open Piece (spelling)

/-- The tokens from index `i` on begin a call: the name of the package, which is not selected from
anything, a dot, the name of the function and an opening parenthesis. -/
structure BeginsCall (package function : Text) (ts : List Token) (i : Nat) : Prop where
  pkg : ts[i]?.map Token.piece = some ⟨.code .ident, package⟩
  dot : ts[i + 1]?.map Token.kind = some .dot
  name : ts[i + 2]?.map Token.piece = some ⟨.code .ident, function⟩
  opening : ts[i + 3]?.map Token.kind = some (.opening .paren)
  unselected : ∀ k, i = k + 1 → ts[k]?.map Token.kind ≠ some .dot

/-- A call is made up of the tokens of the indices `i` to `j`. The last one closes the parenthesis
behind the name of the function, with balanced tokens between the two, and the arguments are the
text between them. -/
structure Call.Occupies (call : Call) (source : Text) (ts : List Token) (i j : Nat) : Prop where
  spans : call.Spans ts i j
  pair : Pair ts (i + 3) j
  balanced : Balanced (((ts.take j).drop (i + 4)).map Token.kind)
  closing : ts[j]?.map Token.kind = some (.closing .paren)
  arguments_start : ts[i + 3]?.map Token.stop = some call.argumentsStart
  arguments_stop : ts[j]?.map Token.start = some (call.argumentsStart + call.arguments.byteSize)
  arguments_eq : ∃ before after, source = before ++ (call.arguments ++ after) ∧
    before.byteSize = call.argumentsStart

variable {source package function : Text} {all ts : List Token} {call call' : Call}
  {i j i' j' : Nat}

section Places

theorem lt_of_start_lt (hts : tokens? source = some ts) {k k' a a' : Nat}
    (hk : ts[k]?.map Token.start = some a) (hk' : ts[k']?.map Token.start = some a')
    (hlt : a < a') : k < k' := by
  obtain ⟨t, ht, rfl⟩ := Option.map_eq_some_iff.1 hk
  obtain ⟨t', ht', rfl⟩ := Option.map_eq_some_iff.1 hk'
  rcases Nat.lt_trichotomy k k' with hlow | rfl | hhigh
  · exact hlow
  · obtain rfl := Option.some.inj (ht.symm.trans ht')
    exact absurd hlt (Nat.lt_irrefl _)
  · have hback := rel_of_pairwise (pairwise_start hts) hhigh ht' ht
    omega

theorem stop_le_start (hts : tokens? source = some ts) {k k' a a' : Nat} (hlt : k < k')
    (hk : ts[k]?.map Token.stop = some a) (hk' : ts[k']?.map Token.start = some a') : a ≤ a' := by
  obtain ⟨pieces, -, -, hunits, -⟩ := tokens?_eq_some_iff.1 hts
  obtain ⟨t, ht, rfl⟩ := Option.map_eq_some_iff.1 hk
  obtain ⟨t', ht', rfl⟩ := Option.map_eq_some_iff.1 hk'
  exact rel_of_pairwise (pairwise_of_unmatched hunits) hlt ht ht'

theorem map_kind_of_map_piece {t? : Option Token} {k : Kind} {text : Text}
    (h : t?.map Token.piece = some ⟨.code k, text⟩) : t?.map Token.kind = some k := by
  obtain ⟨t, rfl, ht⟩ := Option.map_eq_some_iff.1 h
  rw [Token.piece, Piece.mk.injEq, Piece.Role.code.injEq] at ht
  rw [Option.map_some, ht.1]

end Places

section Recognition

theorem mem_callsAfter_cons_iff {t : Token} {previous : Option Kind} :
    call ∈ callsAfter source package function all previous (t :: ts) ↔
      (previous ≠ some .dot ∧ callAtHead? source package function all (t :: ts) = some call) ∨
        call ∈ callsAfter source package function all (some t.kind) ts := by
  rw [callsAfter]
  by_cases hdot : previous = some .dot
  · simp [hdot]
  · simp [hdot]

/-- A call is found where one begins, unless a dot comes right before it. -/
theorem mem_callsAfter_iff {previous : Option Kind} :
    call ∈ callsAfter source package function all previous ts ↔ ∃ front rest, ts = front ++ rest ∧
      callAtHead? source package function all rest = some call ∧
        (front.getLast?.map Token.kind).or previous ≠ some .dot := by
  induction ts generalizing previous with
  | nil =>
      constructor
      · intro h
        cases h
      · rintro ⟨front, rest, hnil, hhead, -⟩
        obtain ⟨-, rfl⟩ := List.append_eq_nil_iff.1 hnil.symm
        cases hhead
  | cons t ts ih =>
      -- Once a token is passed, what came before it is not looked at.
      have hlast (front : List Token) : ((t :: front).getLast?.map Token.kind).or previous =
          (front.getLast?.map Token.kind).or (some t.kind) := by
        rw [List.getLast?_cons]
        cases front.getLast? <;> rfl
      rw [mem_callsAfter_cons_iff, ih]
      constructor
      · rintro (⟨hprevious, hhead⟩ | ⟨front, rest, rfl, hhead, hdot⟩)
        · exact ⟨[], t :: ts, rfl, hhead, hprevious⟩
        · exact ⟨t :: front, rest, rfl, hhead, by rwa [hlast]⟩
      · rintro ⟨front, rest, hsplit, hhead, hdot⟩
        cases front with
        | nil =>
            obtain rfl : t :: ts = rest := hsplit
            exact Or.inl ⟨hdot, hhead⟩
        | cons u front =>
            obtain ⟨rfl, rfl⟩ := List.cons.inj hsplit
            rw [hlast] at hdot
            exact Or.inr ⟨front, rest, rfl, hhead, hdot⟩

theorem mem_calls_iff (hts : tokens? source = some ts) :
    call ∈ calls package function source ↔ ∃ front rest, ts = front ++ rest ∧
      callAtHead? source package function ts rest = some call ∧
        front.getLast?.map Token.kind ≠ some .dot := by
  simp only [calls, hts, mem_callsAfter_iff, Option.or_none]

theorem beginsCall_of_callAtHead? {front rest : List Token} (hsplit : ts = front ++ rest)
    (hhead : callAtHead? source package function all rest = some call)
    (hdot : front.getLast?.map Token.kind ≠ some .dot) :
    BeginsCall package function ts front.length := by
  obtain ⟨pkg, dot, name, opening, later, j, close, rfl, ⟨hpkg, hpackage⟩, hdots,
    ⟨hname, hfunction⟩, hopening, -⟩ := exists_of_callAtHead? hhead
  subst hsplit
  exact {
    pkg := by simp [Token.piece, hpkg, hpackage]
    dot := by simp [hdots]
    name := by simp [Token.piece, hname, hfunction]
    opening := by simp [hopening]
    unselected := by
      intro k hk
      rw [List.getLast?_eq_getElem?, hk, Nat.add_sub_cancel] at hdot
      rwa [List.getElem?_append_left (by omega)] }

theorem drop_eq_cons {l : List α} {a : α} {n : Nat} (h : l[n]? = some a) :
    l.drop n = a :: l.drop (n + 1) := by
  rw [List.drop_eq_getElem?_toList_append, h]
  rfl

theorem BeginsCall.exists_callAtHead? (hts : tokens? source = some ts)
    (h : BeginsCall package function ts i) :
    ∃ call, callAtHead? source package function ts (ts.drop i) = some call := by
  obtain ⟨pkg, hpkg, hpackage⟩ := Option.map_eq_some_iff.1 h.pkg
  obtain ⟨dot, hdot, hdotKind⟩ := Option.map_eq_some_iff.1 h.dot
  obtain ⟨name, hname, hfunction⟩ := Option.map_eq_some_iff.1 h.name
  obtain ⟨opening, hopening, hparen⟩ := Option.map_eq_some_iff.1 h.opening
  obtain ⟨j, hpair⟩ := exists_pair_of_opening hts hopening hparen
  obtain ⟨opening', close, b, hopening', -, hclose, hget, -⟩ := exists_of_pair hts hpair
  obtain rfl := Option.some.inj (hopening.symm.trans hopening')
  have hpkgIdent : pkg.kind = .ident ∧ pkg.text = package := by
    simpa [Token.piece] using hpackage
  have hnameIdent : name.kind = .ident ∧ name.text = function := by
    simpa [Token.piece] using hfunction
  rw [drop_eq_cons hpkg, drop_eq_cons hdot, drop_eq_cons hname, drop_eq_cons hopening,
    callAtHead?, if_pos ⟨hpkgIdent.1, hpkgIdent.2, hdotKind, hnameIdent.1, hnameIdent.2, hparen⟩,
    hclose, Option.bind_some, hget]
  exact ⟨_, rfl⟩

theorem BeginsCall.lt_length (h : BeginsCall package function ts i) : i < ts.length := by
  obtain ⟨pkg, hpkg, -⟩ := Option.map_eq_some_iff.1 h.pkg
  exact (List.getElem?_eq_some_iff.1 hpkg).1

theorem BeginsCall.getLast?_take_ne_dot (h : BeginsCall package function ts i) :
    (ts.take i).getLast?.map Token.kind ≠ some .dot := by
  cases i with
  | zero => simp
  | succ k =>
      rw [List.getLast?_eq_getElem?, List.length_take_of_le h.lt_length.le, Nat.add_sub_cancel,
        List.getElem?_take_of_lt (Nat.lt_succ_self k)]
      exact h.unselected k rfl

end Recognition

section Occupation

theorem Call.Site.getElem?_opening (site : call.Site source ts) :
    ts[site.front.length]? = some site.opening := by
  refine (congrArg (·[site.front.length]?) site.tokens_eq).trans ?_
  simp

theorem Call.Site.getElem?_close (site : call.Site source ts) :
    ts[site.front.length + 1 + site.inner.length]? = some site.close := by
  refine (congrArg (·[site.front.length + 1 + site.inner.length]?) site.tokens_eq).trans ?_
  rw [← List.cons_append, ← List.append_assoc, List.getElem?_append_right]
  · simp only [List.length_append, List.length_cons]
    rw [show site.front.length + 1 + site.inner.length -
      (site.front.length + (site.inner.length + 1)) = 0 by omega]
    rfl
  · simp only [List.length_append, List.length_cons]
    omega

theorem exists_occupies_of_callAtHead? {front rest : List Token} (hts : tokens? source = some ts)
    (hsplit : ts = front ++ rest)
    (hhead : callAtHead? source package function ts rest = some call) :
    ∃ j, call.Occupies source ts front.length j := by
  obtain ⟨site, hfront, -, hclose, hspans⟩ := exists_site_of_callAtHead? hts hsplit hhead
  have hopening := site.getElem?_opening
  have hclosing := site.getElem?_close
  rw [hfront] at hopening hclosing
  have hpair := pair_iff.2 ⟨_, hopening, hclose⟩
  obtain ⟨-, -, -, -, -, -, -, -, -, hbalanced⟩ := exists_of_pair hts hpair
  exact ⟨_, {
    spans := hspans
    pair := hpair
    balanced := hbalanced
    closing := by rw [hclosing, Option.map_some, site.close_kind]
    arguments_start := by rw [hopening, Option.map_some, site.argumentsStart_eq]
    arguments_stop := by rw [hclosing, Option.map_some, site.argumentsStart_add, site.stop_sub_one]
    arguments_eq := by
      refine ⟨spelling site.before ++ site.opening.text, site.close.text ++ spelling site.after, ?_,
        ?_⟩
      · rw [site.arguments_eq_spelling]
        exact site.source_eq
      · rw [site.argumentsStart_eq, site.opening_stop] }⟩

theorem BeginsCall.exists_occupies (hts : tokens? source = some ts)
    (h : BeginsCall package function ts i) : ∃ call,
      callAtHead? source package function ts (ts.drop i) = some call ∧
        ∃ j, call.Occupies source ts i j := by
  obtain ⟨call, hhead⟩ := h.exists_callAtHead? hts
  obtain ⟨j, hoccupies⟩ :=
    exists_occupies_of_callAtHead? hts (List.take_append_drop i ts).symm hhead
  rw [List.length_take_of_le h.lt_length.le] at hoccupies
  exact ⟨call, hhead, j, hoccupies⟩

theorem Call.Occupies.eq (h : call.Occupies source ts i j) (h' : call'.Occupies source ts i j') :
    call = call' := by
  obtain rfl : j = j' := Option.some.inj (h.pair.symm.trans h'.pair)
  have hstart := Option.some.inj (h.spans.1.symm.trans h'.spans.1)
  have hstop := Option.some.inj (h.spans.2.symm.trans h'.spans.2)
  have hbegin := Option.some.inj (h.arguments_start.symm.trans h'.arguments_start)
  have hend := Option.some.inj (h.arguments_stop.symm.trans h'.arguments_stop)
  obtain ⟨before, after, hsource, hbefore⟩ := h.arguments_eq
  obtain ⟨before', after', hsource', hbefore'⟩ := h'.arguments_eq
  have harguments : call.arguments = call'.arguments := by
    rw [← Text.slice_middle before call.arguments after, ← hsource, hbefore, hend, hbegin,
      ← hbefore', hsource', Text.slice_middle]
  obtain ⟨start, stop, arguments⟩ := call
  obtain ⟨start', stop', arguments'⟩ := call'
  obtain rfl : start = start' := hstart
  obtain rfl : stop = stop' := hstop
  obtain rfl : arguments = arguments' := harguments
  rfl

/-- The calls in a text are those that its tokens begin, through the closing parenthesis. -/
theorem mem_calls_iff_occupies (hts : tokens? source = some ts) :
    call ∈ calls package function source ↔
      ∃ i j, BeginsCall package function ts i ∧ call.Occupies source ts i j := by
  rw [mem_calls_iff hts]
  constructor
  · rintro ⟨front, rest, hsplit, hhead, hdot⟩
    obtain ⟨j, hoccupies⟩ := exists_occupies_of_callAtHead? hts hsplit hhead
    exact ⟨front.length, j, beginsCall_of_callAtHead? hsplit hhead hdot, hoccupies⟩
  · rintro ⟨i, j, hbegins, hoccupies⟩
    obtain ⟨call', hhead, j', hoccupies'⟩ := hbegins.exists_occupies hts
    obtain rfl := hoccupies.eq hoccupies'
    exact ⟨ts.take i, ts.drop i, (List.take_append_drop i ts).symm, hhead,
      hbegins.getLast?_take_ne_dot⟩

end Occupation

section Forest

/-- The heads of two calls do not overlap. -/
theorem BeginsCall.add_four_le (h : BeginsCall package function ts i)
    (h' : BeginsCall package function ts i') (hlt : i < i') : i + 4 ≤ i' := by
  by_contra hnear
  have hident := map_kind_of_map_piece h'.pkg
  obtain rfl | rfl | rfl : i' = i + 1 ∨ i' = i + 2 ∨ i' = i + 3 := by omega
  · rw [h.dot] at hident
    cases hident
  · exact h'.unselected (i + 1) rfl h.dot
  · rw [h.opening] at hident
    cases hident

theorem BeginsCall.lt_of_closing (h : BeginsCall package function ts i) {b : Bracket}
    (hj : ts[j]?.map Token.kind = some (.closing b)) (hlt : j < i + 3) : j < i := by
  by_contra hle
  have hpkg := map_kind_of_map_piece h.pkg
  have hname := map_kind_of_map_piece h.name
  obtain rfl | rfl | rfl : j = i ∨ j = i + 1 ∨ j = i + 2 := by omega
  · rw [hpkg] at hj
    cases hj
  · rw [h.dot] at hj
    cases hj
  · rw [hname] at hj
    cases hj

/-- A call that begins later lies behind another one or among its arguments. -/
theorem Call.Occupies.behind_or_within (hts : tokens? source = some ts)
    (h : call.Occupies source ts i j) (h' : call'.Occupies source ts i' j')
    (hbegins : BeginsCall package function ts i') (hle : i + 4 ≤ i') :
    call.stop ≤ call'.start ∨ call.argumentsStart ≤ call'.start ∧
      call'.stop ≤ call.argumentsStart + call.arguments.byteSize := by
  rcases h.pair.uncrossed hts h'.pair (by omega) with hbehind | hwithin
  · left
    exact stop_le_start hts (hbegins.lt_of_closing h.closing hbehind) h.spans.2 h'.spans.1
  · right
    exact ⟨stop_le_start hts (by omega) h.arguments_start h'.spans.1,
      stop_le_start hts hwithin h'.spans.2 h.arguments_stop⟩

/-- The calls of a text are a forest in the order of their beginnings: each one begins behind the
beginning of the one before, and lies behind all of it or among its arguments. In a text with tokens
they are exactly what its tokens begin, and reach through the closing parenthesis, which no call
lacks. -/
theorem calls_forest (package function source : Text) :
    let found := calls package function source
    found.Pairwise (fun c c' => c.start < c'.start ∧ (c.stop ≤ c'.start ∨
      c.argumentsStart ≤ c'.start ∧ c'.stop ≤ c.argumentsStart + c.arguments.byteSize)) ∧
    ∀ ts, tokens? source = some ts →
      (∀ call, call ∈ found ↔
        ∃ i j, BeginsCall package function ts i ∧ call.Occupies source ts i j) ∧
      ∀ i, BeginsCall package function ts i → ∃ call ∈ found, ∃ j, call.Occupies source ts i j := by
  intro found
  constructor
  · cases hts : tokens? source with
    | none =>
        have hnone : found = [] := by
          change calls package function source = []
          rw [calls, hts]
        rw [hnone]
        exact .nil
    | some ts =>
        refine (pairwise_calls hts package function).imp_of_mem fun {c c'} hc hc' hstart => ?_
        obtain ⟨i, j, hbegins, hoccupies⟩ := (mem_calls_iff_occupies hts).1 hc
        obtain ⟨i', j', hbegins', hoccupies'⟩ := (mem_calls_iff_occupies hts).1 hc'
        have hlt := lt_of_start_lt hts hoccupies.spans.1 hoccupies'.spans.1 hstart
        exact ⟨hstart, hoccupies.behind_or_within hts hoccupies' hbegins'
          (hbegins.add_four_le hbegins' hlt)⟩
  · intro ts hts
    refine ⟨fun call => mem_calls_iff_occupies hts, fun i hbegins => ?_⟩
    obtain ⟨call, -, j, hoccupies⟩ := hbegins.exists_occupies hts
    exact ⟨call, (mem_calls_iff_occupies hts).2 ⟨i, j, hbegins, hoccupies⟩, j, hoccupies⟩

/-- A call in square brackets among the arguments of another one, and a function of the same name
that is selected from what the outer call gives. -/
theorem calls_forest_brackets :
    let source : Text := ['p', '.', 'f', '(', '[', 'p', '.', 'f', '(', ')', ']', ')', '.', 'p', '.',
      'f', '(', ')']
    let outer : Call := ⟨0, 12, ['[', 'p', '.', 'f', '(', ')', ']']⟩
    let inner : Call := ⟨5, 10, []⟩
    let ts : List Token := [⟨.ident, 0, ['p'], none⟩, ⟨.dot, 1, ['.'], none⟩,
      ⟨.ident, 2, ['f'], none⟩, ⟨.opening .paren, 3, ['('], some 11⟩,
      ⟨.opening .square, 4, ['['], some 10⟩, ⟨.ident, 5, ['p'], none⟩, ⟨.dot, 6, ['.'], none⟩,
      ⟨.ident, 7, ['f'], none⟩, ⟨.opening .paren, 8, ['('], some 9⟩,
      ⟨.closing .paren, 9, [')'], none⟩, ⟨.closing .square, 10, [']'], none⟩,
      ⟨.closing .paren, 11, [')'], none⟩, ⟨.dot, 12, ['.'], none⟩, ⟨.ident, 13, ['p'], none⟩,
      ⟨.dot, 14, ['.'], none⟩, ⟨.ident, 15, ['f'], none⟩,
      ⟨.opening .paren, 16, ['('], some 17⟩, ⟨.closing .paren, 17, [')'], none⟩]
    calls ['p'] ['f'] source = [outer, inner] ∧ tokens? source = some ts ∧
      BeginsCall ['p'] ['f'] ts 5 ∧ (∃ call ∈ [outer, inner], ∃ j, call.Occupies source ts 5 j) ∧
      ∃ i j, BeginsCall ['p'] ['f'] ts i ∧ outer.Occupies source ts i j := by
  intro source outer inner ts
  have hcalls : calls ['p'] ['f'] source = [outer, inner] := by decide +kernel
  have hts : tokens? source = some ts := by decide +kernel
  have hbegins : BeginsCall ['p'] ['f'] ts 5 := by
    refine ⟨rfl, rfl, rfl, rfl, fun k hk => ?_⟩
    obtain rfl : k = 4 := by omega
    decide
  obtain ⟨-, hfound⟩ := calls_forest ['p'] ['f'] source
  obtain ⟨hmem, hall⟩ := hfound ts hts
  rw [hcalls] at hmem hall
  exact ⟨hcalls, hts, hbegins, hall 5 hbegins, (hmem outer).1 List.mem_cons_self⟩

end Forest

end AllowedValues.Source
