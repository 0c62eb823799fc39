import AllowedValues.Enrichment
import AllowedValues.Proofs.Argument.Literals
import Mathlib.Data.List.Nodup

/-!
Which call a value belongs to. A call has its values from literals, and each of them is a token of
the whole text that stands directly between the parentheses of the call and in no bracket within
them. So no literal counts for two calls, however they are nested.
-/

namespace AllowedValues

namespace Source

open Argument (Lexeme valueLexemes)

/-- The literals that a call has its values from, where they stand in the whole text. -/
def Call.literals (call : Call) : List Lexeme :=
  (valueLexemes call.arguments).map (Lexeme.shift call.argumentsStart)

/-- A lexeme is the token of index `k`, a literal, and the innermost bracket around it is the one
that opens the arguments of a call that the tokens of the indices `i` to `j` make up. -/
structure Call.OwnsAt (call : Call) (ts : List Token) (l : Lexeme) (i j k : Nat) : Prop where
  spans : call.Spans ts i j
  exists_opening : ∃ opening, ts[i + 3]? = some opening ∧ opening.kind = .opening .paren ∧
    opening.stop = call.argumentsStart ∧ opening.close = some j
  exists_literal : ∃ t, ts[k]? = some t ∧ t.kind = .literal ∧ t.start = l.start ∧ t.text = l.text
  innermost : Innermost ts (i + 3) k

def Call.Owns (call : Call) (ts : List Token) (l : Lexeme) : Prop :=
  ∃ i j k, call.OwnsAt ts l i j k

variable {source package function : Text} {ts : List Token} {call call' : Call} {l l' : Lexeme}

theorem owns_of_mem_literals (hts : tokens? source = some ts)
    (hcall : call ∈ calls package function source) (hl : l ∈ call.literals) : call.Owns ts l := by
  rw [calls, hts] at hcall
  obtain ⟨done, rest, hsplit, hhead⟩ := exists_of_mem_callsAfter hcall
  obtain ⟨site, hfront, -, hclose, hspans⟩ := exists_site_of_callAtHead? hts hsplit hhead
  obtain ⟨own, hembedded, hinner⟩ := site.exists_embedded hts
  obtain ⟨l, hmem, rfl⟩ := List.mem_map.1 hl
  obtain ⟨head, t, tail, rfl, hkind, hstart, htext, hdepth⟩ :=
    Argument.exists_token_of_mem_valueLexemes hembedded.tokens_own hmem
  have hlength : site.inner.length = (head ++ t :: tail).length := by rw [hinner, List.length_map]
  have hopening := hembedded.getElem?_opening
  have htoken : ts[head.length + (site.front ++ [site.opening]).length]? =
      some (t.shift call.argumentsStart (site.front ++ [site.opening]).length) := by
    rw [hembedded.getElem?_add (by simp)]
    simp
  have hinnermost := hembedded.innermost (by rw [hclose, hfront, hlength]) rfl hdepth
  rw [hfront] at hopening hinnermost
  have hindex : done.length + 3 + 1 + head.length =
      head.length + (site.front ++ [site.opening]).length := by
    rw [List.length_append, List.length_singleton, hfront]
    omega
  rw [← hindex] at htoken
  have hplace : (t.shift call.argumentsStart (site.front ++ [site.opening]).length).start =
      (l.shift call.argumentsStart).start := by
    rw [Token.shift_start, hstart]
    rfl
  exact ⟨_, _, _, {
    spans := hspans
    exists_opening := ⟨_, hopening, site.opening_kind, site.argumentsStart_eq.symm, hclose⟩
    exists_literal := ⟨_, htoken, hkind, hplace, htext⟩
    innermost := hinnermost }⟩

/-- A literal is owned by one call only: the innermost bracket around it tells which. -/
theorem Call.Owns.start_eq (hts : tokens? source = some ts) (h : call.Owns ts l)
    (h' : call'.Owns ts l') (hstart : l.start = l'.start) : call.start = call'.start := by
  obtain ⟨i, j, k, h⟩ := h
  obtain ⟨i', j', k', h'⟩ := h'
  obtain ⟨t, hget, -, hl, -⟩ := h.exists_literal
  obtain ⟨t', hget', -, hl', -⟩ := h'.exists_literal
  obtain rfl := eq_of_start_eq (pairwise_start hts) hget hget' (by rw [hl, hl', hstart])
  obtain rfl : i = i' := Nat.add_right_cancel (h.innermost.eq h'.innermost)
  exact Option.some.inj (h.spans.1.symm.trans h'.spans.1)

theorem nodup_literals (hts : tokens? source = some ts) (package function : Text) :
    ((calls package function source).flatMap fun call =>
      call.literals.map fun l => (l.start, l.stop)).Nodup := by
  rw [List.nodup_flatMap]
  constructor
  · intro call _
    rw [Call.literals, List.map_map, List.Nodup, List.pairwise_map]
    refine (Argument.pairwise_valueLexemes call.arguments).imp fun {l m} horder heq => ?_
    have hstart : l.start + call.argumentsStart = m.start + call.argumentsStart :=
      congrArg Prod.fst heq
    omega
  · refine (pairwise_calls hts package function).imp_of_mem fun {c c'} hc hc' horder => ?_
    intro range hrange hrange'
    obtain ⟨l, hl, rfl⟩ := List.mem_map.1 hrange
    obtain ⟨l', hl', heq⟩ := List.mem_map.1 hrange'
    have hstart := (owns_of_mem_literals hts hc hl).start_eq hts
      (owns_of_mem_literals hts hc' hl') (congrArg Prod.fst heq).symm
    omega

end Source

open Argument (Lexeme)
open Source

/-- Every value comes from a literal of its own. The values of each call are those of its literals,
each of these is a token of the text for which the parenthesis of the call is the innermost bracket
around it, and no part of the text is a literal of two values. -/
theorem valueSets_eq_literals (settings : Settings) (source : Text) :
    let found := calls settings.package settings.function source
    (settings.valueSets source).map (List.map Except.ok) =
        found.map (fun call => call.literals.map fun l => Literal.value l.text) ∧
      (∀ call ∈ found, ∀ l ∈ call.literals, ∃ ts, tokens? source = some ts ∧ call.Owns ts l) ∧
      (found.flatMap fun call => call.literals.map fun l => (l.start, l.stop)).Nodup := by
  intro found
  refine ⟨?_, ?_⟩
  · rw [Settings.valueSets, List.map_map]
    refine List.map_congr_left fun call _ => ?_
    rw [Function.comp_apply, ← Argument.map_value_valueLexemes, Call.literals, List.map_map]
    rfl
  · cases hts : tokens? source with
    | none =>
        have hnone : found = [] := by
          change calls settings.package settings.function source = []
          rw [calls, hts]
        rw [hnone]
        simp
    | some ts =>
        exact ⟨fun call hcall l hl => ⟨ts, rfl, owns_of_mem_literals hts hcall hl⟩,
          nodup_literals hts _ _⟩

/-- The same literal in a call and in a call among its arguments, where another one stands in square
brackets. -/
theorem valueSets_eq_literals_nested :
    let source : Text := ['p', '.', 'f', '(', '"', 'a', '"', ',', 'p', '.', 'f', '(', '"', 'a', '"',
      ',', '[', '`', 'b', '`', ']', ')', ')']
    let settings : Settings := { package := ['p'], function := ['f'] }
    let outer : Call := ⟨0, 23, ['"', 'a', '"', ',', 'p', '.', 'f', '(', '"', 'a', '"', ',', '[',
      '`', 'b', '`', ']', ')']⟩
    let inner : Call := ⟨8, 22, ['"', 'a', '"', ',', '[', '`', 'b', '`', ']']⟩
    let first : Lexeme := ⟨.interpretedString, 4, ['"', 'a', '"']⟩
    let second : Lexeme := ⟨.interpretedString, 12, ['"', 'a', '"']⟩
    calls ['p'] ['f'] source = [outer, inner] ∧ settings.valueSets source = [[['a']], [['a']]] ∧
      outer.literals = [first] ∧ inner.literals = [second] ∧
      ∃ ts, tokens? source = some ts ∧ outer.Owns ts first ∧ inner.Owns ts second := by
  intro source settings outer inner first second
  have hcalls : calls ['p'] ['f'] source = [outer, inner] := by decide +kernel
  have hvalues : settings.valueSets source = [[['a']], [['a']]] := by decide +kernel
  have houter : outer.literals = [first] := by decide +kernel
  have hinner : inner.literals = [second] := by decide +kernel
  obtain ⟨-, howns, -⟩ := valueSets_eq_literals settings source
  obtain ⟨ts, hts, hfirst⟩ := howns outer (by rw [hcalls]; simp) first (by simp [houter])
  obtain ⟨ts', hts', hsecond⟩ := howns inner (by rw [hcalls]; simp) second (by simp [hinner])
  obtain rfl := Option.some.inj (hts.symm.trans hts')
  exact ⟨hcalls, hvalues, houter, hinner, ts, hts, hfirst, hsecond⟩

end AllowedValues
