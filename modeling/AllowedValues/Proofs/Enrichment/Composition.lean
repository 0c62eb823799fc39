import AllowedValues.Enrichment
import AllowedValues.Proofs.Argument.Layout
import AllowedValues.Proofs.Source.Embedding
import AllowedValues.Proofs.Source.OneCall
import AllowedValues.Proofs.Source.Seam
import AllowedValues.Proofs.Text.Join

/-!
Source texts put together from others. Where texts become the arguments of a name, each with a line
break after it, the calls of the whole are those of the parts in order, and nothing is found across
the places where the parts meet.
-/

namespace AllowedValues.Source

open Argument (cutsBefore_mark cutsBefore_name cutsBefore_space)
open Piece (CutsBefore cut? kinds spelling)

/-- A name with texts as its arguments. A line break comes after each of them. -/
def combine (name : Text) (parts : List Text) : Text :=
  name ++ '(' :: (Text.join ['\n', ','] parts ++ ['\n', ')'])

/-- A text that can be a list element: it is well formed, it has code, and its code neither begins
nor ends with a comma. -/
def IsElement (s : Text) : Prop :=
  ∃ ts, tokens? s = some ts ∧ ts ≠ [] ∧ (∀ t ∈ ts.head?, t.kind ≠ .comma) ∧
    ∀ t ∈ ts.getLast?, t.kind ≠ .comma

/-- The calls of texts that come one after the other with two characters between them, the first of
them at byte `start`. -/
def callsInTurn (package function : Text) (start : Nat) : List Text → List Call
  | [] => []
  | s :: parts =>
      (calls package function s).map (Call.shift start) ++
        callsInTurn package function (start + Text.byteSize (s ++ ['\n', ','])) parts

theorem map_values_callsInTurn (package function : Text) (start : Nat) (parts : List Text) :
    (callsInTurn package function start parts).map (Argument.values ·.arguments) =
      parts.flatMap fun s => (calls package function s).map (Argument.values ·.arguments) := by
  induction parts generalizing start with
  | nil => rfl
  | cons s parts ih =>
      rw [callsInTurn, List.map_append, ih, List.map_map, List.flatMap_cons]
      rfl

/-- The pieces of a list element. -/
structure ElementPieces (s : Text) (ps : List Piece) : Prop where
  cut_eq : cut? s = some ps
  balanced : Balanced (kinds ps)
  settled : commasSettled (kinds ps) = true
  ne_nil : kinds ps ≠ []
  head : ∀ k ∈ (kinds ps).head?, k ≠ .comma
  last : ∀ k ∈ (kinds ps).getLast?, k.awaitsElement = false

theorem IsElement.exists_pieces {s : Text} (h : IsElement s) : ∃ ps, ElementPieces s ps := by
  obtain ⟨ts, hts, hne, hhead, hlast⟩ := h
  obtain ⟨pieces, hcut, hcommas, hunits, hmatch⟩ := tokens?_eq_some_iff.1 hts
  have hkinds := kinds_eq_of_unmatched hunits
  have hbalanced := balanced_of_matchFrom hmatch
  refine ⟨pieces, hcut, hbalanced, hcommas, ?_, ?_, ?_⟩
  · rw [hkinds]
    simpa using hne
  · rw [hkinds, List.head?_map]
    intro k hk
    obtain ⟨t, ht, rfl⟩ := Option.map_eq_some_iff.1 hk
    exact hhead t ht
  · intro k hk
    have hopening := hbalanced.getLast?_ne_opening k hk
    rw [hkinds, List.getLast?_map] at hk
    obtain ⟨t, ht, rfl⟩ := Option.map_eq_some_iff.1 hk
    have hcomma := hlast t ht
    cases hkind : t.kind with
    | comma => exact absurd hkind hcomma
    | opening b => exact absurd hkind (hopening b)
    | _ => rfl

/-- What list elements are cut into, from the first of them through the closing parenthesis. -/
inductive ListPieces : List Text → List Piece → Prop
  | last {s : Text} {ps : List Piece} : ElementPieces s ps →
      ListPieces [s] (ps ++ [⟨.space, ['\n']⟩, ⟨.code (.closing .paren), [')']⟩])
  | cons {s : Text} {ps qs : List Piece} {parts : List Text} : ElementPieces s ps →
      ListPieces parts qs →
      ListPieces (s :: parts) (ps ++ ⟨.space, ['\n']⟩ :: ⟨.code .comma, [',']⟩ :: qs)

theorem exists_listPieces {parts : List Text} (hne : parts ≠ []) (h : ∀ s ∈ parts, IsElement s) :
    ∃ ps, ListPieces parts ps := by
  induction parts with
  | nil => exact absurd rfl hne
  | cons s parts ih =>
      obtain ⟨ps, hps⟩ := (h s (by simp)).exists_pieces
      cases parts with
      | nil => exact ⟨_, .last hps⟩
      | cons s' parts =>
          obtain ⟨qs, hqs⟩ := ih (by simp) fun u hu => h u (List.mem_cons_of_mem _ hu)
          exact ⟨_, .cons hps hqs⟩

theorem ElementPieces.cutsBefore {s : Text} {ps : List Piece} (h : ElementPieces s ps) {c : Char}
    (hc : c ∈ ['.', ',', '(', ')']) (rest : Text) : CutsBefore (s ++ ['\n', c])
      (ps ++ [⟨.space, ['\n']⟩, ⟨.code (Kind.ofChar c), [c]⟩]) rest := by
  have hmark := (cutsBefore_space (c := '\n') (by decide) (c :: rest)).append
    (cutsBefore_mark hc rest)
  exact (CutsBefore.of_cut?_newline h.cut_eq (c :: rest)).append hmark

namespace ListPieces

variable {parts : List Text} {ps : List Piece}

theorem cut?_eq (h : ListPieces parts ps) :
    cut? (Text.join ['\n', ','] parts ++ ['\n', ')']) = some ps := by
  induction h with
  | @last s ps hps =>
      rw [Text.join_cons, List.flatMap_nil, List.append_nil]
      exact (hps.cutsBefore (c := ')') (by decide) []).cut?_eq
  | @cons s ps qs parts hps hqs ih =>
      obtain ⟨next, parts, rfl⟩ : ∃ next others, parts = next :: others := by
        cases hqs with
        | last => exact ⟨_, _, rfl⟩
        | cons => exact ⟨_, _, rfl⟩
      have hcut := hps.cutsBefore (c := ',') (by decide)
        (Text.join ['\n', ','] (next :: parts) ++ ['\n', ')'])
      rw [CutsBefore, ih, Option.map_some, List.append_assoc] at hcut
      rw [Text.join_cons_cons, List.append_assoc, List.append_assoc, hcut, List.append_assoc]
      rfl

/-- The elements are balanced, and the parenthesis that closes the list comes last. -/
theorem exists_kinds_eq (h : ListPieces parts ps) :
    ∃ ks, kinds ps = ks ++ [.closing .paren] ∧ Balanced ks := by
  induction h with
  | @last s ps hps => exact ⟨kinds ps, Piece.kinds_append _ _, hps.balanced⟩
  | @cons s ps qs parts hps _ ih =>
      obtain ⟨ks, hks, hbalanced⟩ := ih
      refine ⟨kinds ps ++ .comma :: ks, ?_, hps.balanced.append (.unit rfl hbalanced)⟩
      rw [Piece.kinds_append, List.append_assoc, List.cons_append, ← hks]
      rfl

theorem commasSettled (h : ListPieces parts ps) (k : Kind) :
    Source.commasSettled (k :: kinds ps) = true := by
  have hstart {ps : List Piece} {ls : List Kind} {s : Text} (hps : ElementPieces s ps) (k : Kind) :
      ∀ l ∈ (kinds ps ++ ls).head?, ¬ (k.awaitsElement = true ∧ l = .comma) := by
    intro l hl
    rw [List.head?_append_of_ne_nil _ hps.ne_nil] at hl
    exact fun hand => hps.head l hl hand.2
  rw [commasSettled_iff_isChain]
  induction h generalizing k with
  | @last s ps hps =>
      rw [Piece.kinds_append, List.isChain_cons, List.isChain_append,
        ← commasSettled_iff_isChain]
      refine ⟨hstart hps k, hps.settled, List.isChain_singleton _, ?_⟩
      intro l _ m hm
      obtain rfl : Kind.closing .paren = m := Option.some.inj hm
      simp
  | @cons s ps qs parts hps _ ih =>
      rw [Piece.kinds_append, List.isChain_cons, List.isChain_append,
        ← commasSettled_iff_isChain]
      refine ⟨hstart hps k, hps.settled, ih .comma, ?_⟩
      intro l hl m _
      simp [hps.last l hl]

end ListPieces

section Combine

variable {name package function : Text} {parts : List Text}

theorem cut?_combine (hname : name.isIdentifier = true) {ps : List Piece}
    (h : ListPieces parts ps) : cut? (combine name parts) =
      some ([⟨.code .ident, name⟩, ⟨.code (.opening .paren), ['(']⟩] ++ ps) := by
  have hident : CutsBefore name [⟨.code .ident, name⟩]
      ('(' :: (Text.join ['\n', ','] parts ++ ['\n', ')'])) := by
    refine cutsBefore_name hname fun d hd => ?_
    obtain rfl := Option.some.inj hd
    decide
  have hcut := hident.append (cutsBefore_mark (c := '(') (by decide)
    (Text.join ['\n', ','] parts ++ ['\n', ')']))
  rw [CutsBefore, h.cut?_eq, Option.map_some, List.append_assoc] at hcut
  exact hcut

theorem exists_tokens?_combine (hname : name.isIdentifier = true) {ps : List Piece}
    (h : ListPieces parts ps) : ∃ ts, tokens? (combine name parts) = some ts := by
  obtain ⟨ks, hks, hbalanced⟩ := h.exists_kinds_eq
  have hkinds : kinds ([⟨.code .ident, name⟩, ⟨.code (.opening .paren), ['(']⟩] ++ ps) =
      .ident :: .opening .paren :: kinds ps := rfl
  have hcommas : Source.commasSettled (.ident :: .opening .paren :: kinds ps) = true := by
    rw [Source.commasSettled, h.commasSettled]
    rfl
  have hwhole : Balanced (.ident :: .opening .paren :: kinds ps) := by
    rw [hks]
    exact .unit rfl (.bracket hbalanced .nil)
  obtain ⟨closes, hcloses⟩ := hwhole.exists_matchFrom_eq 0
  rw [← hkinds] at hcommas hcloses
  obtain ⟨ts, hts, -, -⟩ := exists_tokens? (cut?_combine hname h) hcommas hcloses
  exact ⟨ts, hts⟩

variable {source : Text} {ts : List Token}

/-- Read on from where a list element begins, a text has the calls of the element and then those
that begin behind it. -/
theorem exists_callsAfter_element {s : Text} {before ps after : List Piece} {mark : Token}
    {front inner last : List Token} (hps : ElementPieces s ps) (hts : tokens? source = some ts)
    (hcut : cut? source = some (before ++ (ps ++ after)))
    (hsplit : ts = front ++ (inner ++ mark :: last))
    (hinner : inner.map Token.unmatched = locate (spelling before).byteSize ps)
    (hmark : mark.kind = .comma ∨ ∃ b, mark.kind = .closing b) {previous : Option Kind}
    (hprevious : previous ≠ some .dot) :
    callsAfter source package function ts previous (inner ++ mark :: last) =
      (calls package function s).map (Call.shift (spelling before).byteSize) ++
        callsAfter source package function ts (some mark.kind) last := by
  have hbalanced : Balanced (inner.map (·.kind)) := by
    rw [← kinds_eq_of_unmatched hinner]
    exact hps.balanced
  have hlast : ∀ t ∈ (mark :: last).head?, t.kind = .comma ∨ ∃ b, t.kind = .closing b := by
    intro t ht
    rwa [← Option.some.inj ht]
  obtain ⟨own, hembedded, rfl⟩ :=
    exists_embedded_of_split hts hsplit hcut hinner hbalanced hlast
  obtain ⟨previous', hcalls⟩ := @Embedded.exists_callsAfter_eq _ _ package function _ _ _ _ _
    hembedded [] own (List.nil_append own).symm previous none (by simp [hprevious])
  have hown := hembedded.tokens_own
  rw [Piece.spelling_of_cut? hps.cut_eq] at hcalls hown
  have hident : mark.kind ≠ .ident := by
    rcases hmark with hmark | ⟨b, hmark⟩ <;> simp [hmark]
  rw [hcalls, callsAfter_cons_of_ne_ident hident, calls, hown]

theorem callsAfter_of_listPieces {qs before : List Piece} {front tail : List Token}
    (h : ListPieces parts qs) (hts : tokens? source = some ts)
    (hcut : cut? source = some (before ++ qs)) (hsplit : ts = front ++ tail)
    (htail : tail.map Token.unmatched = locate (spelling before).byteSize qs)
    {previous : Option Kind} (hprevious : previous ≠ some .dot) :
    callsAfter source package function ts previous tail =
      callsInTurn package function (spelling before).byteSize parts := by
  induction h generalizing before front tail previous with
  | @last s ps hps =>
      rw [locate_append] at htail
      obtain ⟨inner, last, rfl, hinner, hlast⟩ := List.map_eq_append_iff.1 htail
      obtain ⟨mark, nothing, rfl, hmark, hnothing⟩ := List.map_eq_cons_iff.1 hlast
      obtain rfl := List.map_eq_nil_iff.1 hnothing
      have hkind : mark.kind = .closing .paren := congrArg Token.kind hmark
      rw [exists_callsAfter_element hps hts hcut hsplit hinner (Or.inr ⟨_, hkind⟩) hprevious]
      rfl
  | @cons s ps qs parts hps _ ih =>
      rw [locate_append] at htail
      obtain ⟨inner, last, rfl, hinner, hlast⟩ := List.map_eq_append_iff.1 htail
      obtain ⟨mark, others, rfl, hmark, hothers⟩ := List.map_eq_cons_iff.1 hlast
      have hkind : mark.kind = .comma := congrArg Token.kind hmark
      have hstart :
          (spelling (before ++ (ps ++ [⟨.space, ['\n']⟩, ⟨.code .comma, [',']⟩]))).byteSize =
            (spelling before).byteSize + Text.byteSize (s ++ ['\n', ',']) := by
        rw [Piece.spelling_append, Text.byteSize_append, Piece.spelling_append,
          Piece.spelling_of_cut? hps.cut_eq]
        rfl
      -- The next element begins behind the comma, so no dot comes right before it.
      have hrest : callsAfter source package function ts (some .comma) others =
          callsInTurn package function
            ((spelling before).byteSize + Text.byteSize (s ++ ['\n', ','])) parts := by
        rw [← hstart]
        refine @ih _ (front ++ (inner ++ [mark])) others ?_ ?_ ?_ (some .comma) (by simp)
        · simpa using hcut
        · simpa using hsplit
        · rw [hothers, hstart, ← Piece.spelling_of_cut? hps.cut_eq, Text.byteSize_append]
          rfl
      rw [exists_callsAfter_element hps hts hcut hsplit hinner (Or.inl hkind) hprevious, hkind,
        hrest]
      rfl

theorem calls_combine (hname : name.isIdentifier = true) {ps : List Piece}
    (h : ListPieces parts ps) : calls package function (combine name parts) =
      callsInTurn package function (Text.byteSize (name ++ ['('])) parts := by
  have hcut := cut?_combine hname h
  obtain ⟨ts, hts⟩ := exists_tokens?_combine hname h
  obtain ⟨pieces, hcut', -, hunits, -⟩ := tokens?_eq_some_iff.1 hts
  obtain rfl := Option.some.inj (hcut.symm.trans hcut')
  rw [locate_append, List.map_eq_append_iff] at hunits
  obtain ⟨callee, tail, hsplit, hcallee, htail⟩ := hunits
  obtain ⟨ident, rest, rfl, hident, hrest⟩ := List.map_eq_cons_iff.1 hcallee
  obtain ⟨opening, nothing, rfl, hopening, hnothing⟩ := List.map_eq_cons_iff.1 hrest
  obtain rfl := List.map_eq_nil_iff.1 hnothing
  have hkind : opening.kind = .opening .paren := congrArg Token.kind hopening
  -- The name is no package, for no dot comes after it.
  have hhead : callAtHead? (combine name parts) package function ts
      (ident :: opening :: tail) = none := by
    rw [Option.eq_none_iff_forall_ne_some]
    intro call hcall
    obtain ⟨pkg, dot, _, _, _, _, _, heq, -, hdot, -⟩ := exists_of_callAtHead? hcall
    rw [← (List.cons.inj (List.cons.inj heq).2).1, hkind] at hdot
    cases hdot
  rw [Nat.zero_add] at htail
  have hlist := @callsAfter_of_listPieces package function _ _ _ _ _ [ident, opening] tail h hts
    hcut hsplit htail (some opening.kind) (by simp [hkind])
  rw [calls, hts]
  calc callsAfter (combine name parts) package function ts none ts
      = callsAfter (combine name parts) package function ts none (ident :: opening :: tail) :=
        congrArg _ hsplit
    _ = callsAfter (combine name parts) package function ts (some opening.kind) tail := by
        rw [callsAfter, hhead, callsAfter_cons_of_ne_ident (by simp [hkind])]
        simp
    _ = callsInTurn package function (Text.byteSize (name ++ ['('])) parts := by
        rw [hlist]
        rfl

end Combine

end AllowedValues.Source

namespace AllowedValues

open Source

/-- Texts that become the arguments of a name, each with a line break after it, make up a text that
is well formed. Its calls are those of the texts in order, each moved to where its text begins, and
so its value sets are those of the texts in order. -/
theorem valueSets_combine {name : Text} {parts : List Text} (hname : name.isIdentifier = true)
    (hne : parts ≠ []) (hparts : ∀ s ∈ parts, IsElement s) :
    (∃ ts, tokens? (combine name parts) = some ts) ∧
      (∀ package function, calls package function (combine name parts) =
        callsInTurn package function (Text.byteSize (name ++ ['('])) parts) ∧
      ∀ settings : Settings, settings.valueSets (combine name parts) =
        parts.flatMap settings.valueSets := by
  obtain ⟨ps, hps⟩ := exists_listPieces hne hparts
  refine ⟨exists_tokens?_combine hname hps, fun _ _ => calls_combine hname hps, fun settings => ?_⟩
  rw [Settings.valueSets, calls_combine hname hps, map_values_callsInTurn]
  rfl

/-- The package as the name, a part that ends in a line comment, a slash, a selection without its
package, and a call with a slash behind it. -/
theorem valueSets_combine_comment :
    let parts : List Text :=
      [['p', '.', 'f', '(', '"', 'é', '"', ')', '/', '/', ')'], ['/'],
        ['.', 'f', '(', ')'], ['p', '.', 'f', '(', '`', 'b', '`', ')', '/']]
    let settings : Settings := { package := ['p'], function := ['f'] }
    Text.isIdentifier ['p'] = true ∧ parts ≠ [] ∧ (∀ s ∈ parts, IsElement s) ∧
      combine ['p'] parts = "p(p.f(\"é\")//)\n,/\n,.f()\n,p.f(`b`)/\n)".toList ∧
      calls ['p'] ['f'] (combine ['p'] parts) =
        [⟨2, 11, ['"', 'é', '"']⟩, ⟨25, 33, ['`', 'b', '`']⟩] ∧
      settings.valueSets (combine ['p'] parts) = [[['é']], [['b']]] := by
  intro parts settings
  have hname : Text.isIdentifier ['p'] = true := by decide
  have hparts : ∀ s ∈ parts, IsElement s := by
    have hall : parts.all (fun s => (tokens? s).any fun ts => ts ≠ [] ∧
        (∀ t ∈ ts.head?, t.kind ≠ .comma) ∧ ∀ t ∈ ts.getLast?, t.kind ≠ .comma) = true := by
      decide +kernel
    intro s hs
    simpa [IsElement, Option.any_eq_true] using List.all_eq_true.1 hall s hs
  obtain ⟨-, hcalls, hvalues⟩ := valueSets_combine hname (by decide) hparts
  refine ⟨hname, by decide, hparts, by decide, ?_, ?_⟩
  · rw [hcalls]
    decide +kernel
  · rw [hvalues]
    decide +kernel

end AllowedValues
