import AllowedValues.Proofs.Argument.Commas
import AllowedValues.Proofs.Source.Forest

/-!
The arguments of a call and the list elements of the whole text. The commas that part the arguments
are the tokens of the text whose innermost bracket is the parenthesis of the call, and the arguments
are the lexemes between them.
-/

namespace AllowedValues.Source

open Argument (Lexeme commaLexeme depthAfter lexemes tokenCommas)
open Piece (kinds)

/-- The arguments of a call are parted at the tokens `commas`, where `m` is the index of its opening
parenthesis. Each part of `ended` goes with the comma that it ends with. -/
structure Call.Divides (call : Call) (ts : List Token) (m : Nat) (commas : List Token)
    (ended : List (List Lexeme × Lexeme)) (last : List Lexeme) : Prop where
  sublist : commas.Sublist ts
  mem_iff : ∀ k t, ts[k]? = some t → (t ∈ commas ↔ t.kind = .comma ∧ Innermost ts m k)
  commas_eq : commas.map commaLexeme = ended.map fun e => e.2.shift call.argumentsStart
  lexemes_eq : lexemes call.arguments = ended.flatMap (fun e => e.1 ++ [e.2]) ++ last
  arguments_eq : Argument.arguments call.arguments =
    ended.map Prod.fst ++ if last = [] then [] else [last]
  filled : ∀ e ∈ ended, e.1 ≠ []
  length_eq : (Argument.arguments call.arguments).length =
    commas.length + if last = [] then 0 else 1
  depth_pos : ∀ before l after b, lexemes call.arguments = before ++ l :: after →
    l.cls = .closing b → 0 < (before.map (·.cls)).foldl depthAfter 0
  depth_eq : ((lexemes call.arguments).map (·.cls)).foldl depthAfter 0 = 0

variable {source text package function : Text} {ts own front last : List Token} {opening : Token}
  {bytes : Nat} {call : Call}

section Commas

variable (h : Embedded source ts text own (front ++ [opening]) last bytes)

include h

/-- The commas of an argument list at which no bracket is open are those of the whole text whose
innermost bracket is the parenthesis. -/
theorem Embedded.mem_map_tokenCommas_iff (hts : tokens? source = some ts)
    (hclose : opening.close = some (front.length + 1 + own.length)) {k : Nat} {t : Token}
    (hk : ts[k]? = some t) :
    t ∈ (tokenCommas own).map (Token.shift bytes (front ++ [opening]).length) ↔
      t.kind = .comma ∧ Innermost ts front.length k := by
  constructor
  · intro hmem
    obtain ⟨u, hu, rfl⟩ := List.mem_map.1 hmem
    obtain ⟨head, tail, hsplit, hcomma, hdepth⟩ := Argument.mem_commasFrom_iff.1 hu
    rw [← List.foldl_map (f := Token.kind) (g := Kind.depthAfter)] at hdepth
    have hget := h.getElem?_add (m := head.length) (by simp [hsplit])
    have hown : own[head.length]? = some u := by simp [hsplit]
    rw [hown, Option.map_some] at hget
    obtain rfl := eq_of_start_eq (pairwise_start hts) hget hk rfl
    have hinnermost := h.innermost hclose hsplit hdepth
    rw [Nat.add_comm, List.length_append, List.length_singleton]
    exact ⟨by simpa using hcomma, hinnermost⟩
  · rintro ⟨hcomma, hinnermost⟩
    obtain ⟨head, u, tail, hsplit, rfl, hget⟩ := h.exists_of_encloses hclose hinnermost.1
    obtain rfl := Option.some.inj (hget.symm.trans hk)
    rw [Token.shift_kind] at hcomma
    have hdepth := h.depth_eq_zero hsplit (by simp [hcomma]) hinnermost
    refine List.mem_map.2 ⟨u, Argument.mem_commasFrom_iff.2 ⟨head, tail, hsplit, ?_, ?_⟩, rfl⟩
    · simpa using hcomma
    · rwa [← List.foldl_map (f := Token.kind) (g := Kind.depthAfter)]

omit h in
theorem Embedded.map_tokenCommas_sublist (h : Embedded source ts text own front last bytes) :
    ((tokenCommas own).map (Token.shift bytes front.length)).Sublist ts := by
  have howns : (tokenCommas own).Sublist own := Argument.commasFrom_sublist 0 own
  rw [h.tokens_eq]
  exact ((howns.map _).trans (List.sublist_append_left _ _)).trans (List.sublist_append_right _ _)

end Commas

theorem exists_tokens?_of_mem_calls (hcall : call ∈ calls package function source) :
    ∃ ts, tokens? source = some ts := by
  cases hts : tokens? source with
  | none => simp [calls, hts] at hcall
  | some ts => exact ⟨ts, rfl⟩

/-- No comma stands right behind the opening parenthesis of a call, nor right behind another comma
among the arguments. -/
theorem Call.Site.isChain (site : call.Site source ts) (hts : tokens? source = some ts) :
    (.opening .paren :: site.inner.map (·.kind)).IsChain
      fun k l => ¬ (k.awaitsElement = true ∧ l = .comma) := by
  obtain ⟨pieces, hcut, hcommas, -, -⟩ := tokens?_eq_some_iff.1 hts
  obtain rfl := Option.some.inj (site.cut_eq.symm.trans hcut)
  have hopening : site.opening.piece.kind? = some (.opening .paren) :=
    congrArg some site.opening_kind
  rw [commasSettled_iff_isChain, kinds, List.filterMap_append, List.filterMap_cons_some hopening,
    List.filterMap_append] at hcommas
  rw [← site.kinds_between]
  exact hcommas.infix ⟨_, _, List.append_assoc _ _ _⟩

/-- The arguments of a call are its list elements in the whole text. They are parted at the commas
whose innermost bracket is the parenthesis of the call, only behind the last of these there may be
nothing, and no bracket is closed among them that is not open. -/
theorem arguments_divide (hcall : call ∈ calls package function source) :
    ∃ ts i j commas ended last, tokens? source = some ts ∧ call.Occupies source ts i j ∧
      call.Divides ts (i + 3) commas ended last := by
  obtain ⟨ts, hts⟩ := exists_tokens?_of_mem_calls hcall
  obtain ⟨done, rest, hsplit, hhead, -⟩ := (mem_calls_iff hts).1 hcall
  obtain ⟨j, hoccupies⟩ := exists_occupies_of_callAtHead? hts hsplit hhead
  obtain ⟨site, hfront, -, hclose, -⟩ := exists_site_of_callAtHead? hts hsplit hhead
  obtain ⟨own, hembedded, hinner⟩ := site.exists_embedded hts
  have hown := hembedded.tokens_own
  have hchain := site.isChain hts
  have hkinds : site.inner.map (·.kind) = own.map (·.kind) := by
    rw [hinner, List.map_map]
    rfl
  rw [hkinds] at hchain
  rw [hinner, List.length_map, ← Nat.add_right_comm done.length 3, ← hfront] at hclose
  obtain ⟨ended, last, hlexemes, harguments, hfilled, hcommas⟩ :=
    Argument.exists_division hown rfl hchain
  refine ⟨ts, done.length, j, (tokenCommas own).map
    (Token.shift call.argumentsStart (site.front ++ [site.opening]).length), ended, last, hts,
    hoccupies, {
      sublist := hembedded.map_tokenCommas_sublist
      mem_iff := ?_
      commas_eq := ?_
      lexemes_eq := hlexemes
      arguments_eq := harguments
      filled := hfilled
      length_eq := ?_
      depth_pos := fun _ _ _ _ hlexemes hl => Argument.depth_pos_of_closing hown hlexemes hl
      depth_eq := Argument.depth_lexemes hown }⟩
  · intro k t hk
    rw [← hfront]
    exact hembedded.mem_map_tokenCommas_iff hts hclose hk
  · have hshift := congrArg (List.map (Lexeme.shift call.argumentsStart)) hcommas
    rw [List.map_map, List.map_map] at hshift
    rw [List.map_map]
    exact hshift.symm
  · have hcount := congrArg List.length hcommas
    rw [List.length_map, List.length_map] at hcount
    rw [harguments, List.length_append, List.length_map, List.length_map, hcount]
    split_ifs
    · rfl
    · rfl

/-- A comma in brackets, one in a comment, and nothing behind the last comma but white space that is
no blank, which is an argument nevertheless. -/
theorem arguments_divide_stray :
    let source : Text := ['p', '.', 'f', '(', '[', '1', ',', '2', ']', ',', '/', '*', ',', '*', '/',
      '"', 'a', '"', ',', Char.ofNat 160, ')']
    let call : Call := ⟨0, 22, ['[', '1', ',', '2', ']', ',', '/', '*', ',', '*', '/', '"', 'a',
      '"', ',', Char.ofNat 160]⟩
    let groups : List (List Lexeme) := [[⟨.opening .square, 0, ['[']⟩, ⟨.number, 1, ['1']⟩,
      ⟨.comma, 2, [',']⟩, ⟨.number, 3, ['2']⟩, ⟨.closing .square, 4, [']']⟩],
      [⟨.interpretedString, 11, ['"', 'a', '"']⟩], [⟨.unknown, 15, [Char.ofNat 160]⟩]]
    call ∈ calls ['p'] ['f'] source ∧ Argument.arguments call.arguments = groups ∧
      ∃ ts i j commas ended last, tokens? source = some ts ∧ call.Occupies source ts i j ∧
        call.Divides ts (i + 3) commas ended last := by
  intro source call groups
  have hcalls : calls ['p'] ['f'] source = [call] := by decide +kernel
  have hcall : call ∈ calls ['p'] ['f'] source := by
    rw [hcalls]
    exact List.mem_singleton_self call
  have hgroups : Argument.arguments call.arguments = groups := by decide +kernel
  exact ⟨hcall, hgroups, arguments_divide hcall⟩

end AllowedValues.Source
