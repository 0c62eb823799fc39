import AllowedValues.Proofs.Source.Embedding

/-!
The arguments of a call as a text of their own. Their tokens are those between the parentheses of
the call, and their calls are those of the whole text that lie between the parentheses, both
counted from the first character after the opening parenthesis.
-/

namespace AllowedValues.Source

open Piece (spelling)

variable {source package function : Text} {all ts : List Token} {call : Call}

theorem exists_start_eq_of_mem_callsAfter {previous : Option Kind}
    (h : call ∈ callsAfter source package function all previous ts) :
    ∃ t ∈ ts, call.start = t.start := by
  obtain ⟨front, rest, rfl, hhead⟩ := exists_of_mem_callsAfter h
  cases rest with
  | nil => cases hhead
  | cons t rest => exact ⟨t, by simp, start_eq_of_callAtHead? hhead⟩

theorem exists_callsAfter_append (front : List Token) (t : Token) (previous : Option Kind) :
    ∃ first, callsAfter source package function all previous (front ++ t :: ts) =
        first ++ callsAfter source package function all (some t.kind) ts ∧
      ∀ call ∈ first, ∃ u ∈ front ++ [t], call.start = u.start := by
  induction front generalizing previous with
  | nil =>
      rw [List.nil_append, callsAfter]
      split_ifs
      · exact ⟨[], rfl, by simp⟩
      · refine ⟨_, rfl, fun call hcall => ⟨t, by simp, ?_⟩⟩
        exact start_eq_of_callAtHead? (Option.mem_toList.1 hcall)
  | cons u front ih =>
      obtain ⟨first, hfirst, hbegin⟩ := ih (some u.kind)
      have hlater : ∀ call ∈ first, ∃ v ∈ u :: front ++ [t], call.start = v.start := by
        intro call hcall
        obtain ⟨v, hv, heq⟩ := hbegin call hcall
        exact ⟨v, List.mem_cons_of_mem _ hv, heq⟩
      rw [List.cons_append, callsAfter, hfirst]
      split_ifs
      · exact ⟨first, rfl, hlater⟩
      · refine ⟨_, (List.append_assoc _ _ _).symm, fun call hcall => ?_⟩
        rcases List.mem_append.1 hcall with hcall | hcall
        · exact ⟨u, by simp, start_eq_of_callAtHead? (Option.mem_toList.1 hcall)⟩
        · exact hlater call hcall

namespace Call.Site

variable (site : call.Site source ts)

include site

/-- The arguments stand in the text with tokens of their own. -/
theorem exists_embedded (hts : tokens? source = some ts) : ∃ own,
    Embedded source ts call.arguments own (site.front ++ [site.opening])
      (site.close :: site.last) call.argumentsStart ∧
    site.inner =
      own.map (Token.shift call.argumentsStart (site.front ++ [site.opening]).length) := by
  have hbefore : (spelling (site.before ++ [site.opening.piece])).byteSize =
      call.argumentsStart := by
    rw [site.argumentsStart_eq, site.opening_stop]
    simp [Token.piece]
  have hcut := site.cut_eq
  rw [List.append_cons] at hcut
  have hsplit := site.tokens_eq
  rw [List.append_cons] at hsplit
  have hinner := site.inner_eq.symm
  rw [← site.argumentsStart_eq, ← hbefore] at hinner
  have hclose : ∀ t ∈ (site.close :: site.last).head?,
      t.kind = .comma ∨ ∃ b, t.kind = .closing b := by
    intro t ht
    obtain rfl : site.close = t := by simpa using ht
    exact Or.inr ⟨.paren, site.close_kind⟩
  rw [site.arguments_eq_spelling, ← hbefore]
  exact exists_embedded_of_split hts hsplit hcut hinner site.balanced hclose

/-- The calls of the text come in three parts: those that begin before the arguments, those of the
arguments, and those that begin behind the arguments. -/
theorem exists_calls_eq (hts : tokens? source = some ts) (package' function' : Text) :
    ∃ first later, calls package' function' source =
        first ++ ((calls package' function' call.arguments).map
          (Call.shift call.argumentsStart) ++ later) ∧
      (∀ c ∈ first, c.start < call.argumentsStart) ∧ ∀ c ∈ later, call.stop - 1 ≤ c.start := by
  obtain ⟨own, hembedded, hinner⟩ := site.exists_embedded hts
  obtain ⟨first, hfirst, hbegin⟩ : ∃ first, calls package' function' source = first ++
      callsAfter source package' function' ts (some site.opening.kind)
        (site.inner ++ site.close :: site.last) ∧
      ∀ c ∈ first, ∃ t ∈ site.front ++ [site.opening], c.start = t.start := by
    have hcalls : calls package' function' source = callsAfter source package' function' ts none
        (site.front ++ site.opening :: (site.inner ++ site.close :: site.last)) := by
      rw [calls, hts]
      exact congrArg (callsAfter source package' function' ts none) site.tokens_eq
    rw [hcalls]
    exact exists_callsAfter_append site.front site.opening none
  obtain ⟨previous, hmiddle⟩ : ∃ previous, callsAfter source package' function' ts
      (some site.opening.kind) (site.inner ++ site.close :: site.last) =
        (calls package' function' call.arguments).map (Call.shift call.argumentsStart) ++
          callsAfter source package' function' ts previous (site.close :: site.last) := by
    rw [calls, hembedded.tokens_own, hinner]
    exact hembedded.exists_callsAfter_eq (List.nil_append own).symm (by simp [site.opening_kind])
  refine ⟨first, _, hfirst.trans (by rw [hmiddle]), ?_, ?_⟩
  · intro c hc
    obtain ⟨t, ht, hstart⟩ := hbegin c hc
    rw [hstart]
    exact site.start_lt_argumentsStart ht
  · intro c hc
    obtain ⟨t, ht, hstart⟩ := exists_start_eq_of_mem_callsAfter hc
    rw [hstart]
    exact site.stop_sub_one_le_start ht

theorem filter_calls (hts : tokens? source = some ts) (package' function' : Text) :
    (calls package' function' source).filter
        (fun c => call.argumentsStart ≤ c.start ∧ c.stop ≤ call.stop - 1) =
      (calls package' function' call.arguments).map (Call.shift call.argumentsStart) := by
  obtain ⟨own, hembedded, -⟩ := site.exists_embedded hts
  obtain ⟨first, later, hcalls, hfirst, hlater⟩ := site.exists_calls_eq hts package' function'
  rw [hcalls]
  apply filter_append_append
  · intro c hc
    have hbefore := hfirst c hc
    simp only [decide_eq_false_iff_not, not_and]
    omega
  · intro c hc
    obtain ⟨c', hc', rfl⟩ := List.mem_map.1 hc
    have hbound := (bounds_of_mem_calls hembedded.tokens_own hc').2
    rw [decide_eq_true_eq, ← site.argumentsStart_add, Call.shift_start, Call.shift_stop]
    omega
  · -- A call behind the arguments has to end after it begins.
    intro c hc
    have hmem : c ∈ calls package' function' source := by
      rw [hcalls]
      simp [hc]
    have hself := (bounds_of_mem_calls hts hmem).1
    have hbehind := hlater c hc
    simp only [decide_eq_false_iff_not, not_and]
    omega

end Call.Site

/-- The arguments of a call can be read by themselves: their tokens are those that the text has
between the parentheses, and the calls in them, of any function, are those of the text that lie
between the parentheses, all of them counted from where the arguments begin. -/
theorem tokens_calls_arguments (hcall : call ∈ calls package function source) :
    ∃ ts front own last, tokens? source = some ts ∧ tokens? call.arguments = some own ∧
      source.slice call.argumentsStart (call.stop - 1) = call.arguments ∧
      ts = front ++ (own.map (Token.shift call.argumentsStart front.length) ++ last) ∧
      call.inner ts = own.map (Token.shift call.argumentsStart front.length) ∧
      ∀ package' function', (calls package' function' source).filter
          (fun c => call.argumentsStart ≤ c.start ∧ c.stop ≤ call.stop - 1) =
        (calls package' function' call.arguments).map (Call.shift call.argumentsStart) := by
  obtain ⟨ts, hts⟩ : ∃ ts, tokens? source = some ts := by
    cases hts : tokens? source with
    | none => simp [calls, hts] at hcall
    | some ts => exact ⟨ts, rfl⟩
  obtain ⟨site⟩ := nonempty_site hts hcall
  obtain ⟨own, hembedded, hinner⟩ := site.exists_embedded hts
  refine ⟨ts, site.front ++ [site.opening], own, site.close :: site.last, hts,
    hembedded.tokens_own, ?_, hembedded.tokens_eq, ?_, site.filter_calls hts⟩
  · rw [site.arguments_eq, site.argumentsStart_eq, site.stop_sub_one]
  · rw [site.inner_eq_filter, hinner]

/-- A call in the arguments of another one, behind a character of two bytes. -/
theorem tokens_calls_arguments_nested :
    let source : Text := ['p', '.', 'f', '(', '"', 'é', '"', ',', 'p', '.', 'f', '(', '[', '1', ']',
      ',', '`', 'b', '`', ')', ')']
    let call : Call := ⟨0, 22, ['"', 'é', '"', ',', 'p', '.', 'f', '(', '[', '1', ']', ',', '`',
      'b', '`', ')']⟩
    let nested : Call := ⟨5, 17, ['[', '1', ']', ',', '`', 'b', '`']⟩
    call ∈ calls ['p'] ['f'] source ∧ calls ['p'] ['f'] call.arguments = [nested] ∧
      (calls ['p'] ['f'] source).filter
        (fun c => call.argumentsStart ≤ c.start ∧ c.stop ≤ call.stop - 1) = [nested.shift 4] ∧
      ∃ ts front own last, tokens? source = some ts ∧ tokens? call.arguments = some own ∧
        ts = front ++ (own.map (Token.shift 4 front.length) ++ last) ∧
        call.inner ts = own.map (Token.shift 4 front.length) := by
  intro source call nested
  have hcall : call ∈ calls ['p'] ['f'] source := by
    have hcalls : calls ['p'] ['f'] source = [call, nested.shift 4] := by decide +kernel
    rw [hcalls]
    exact List.mem_cons_self
  have hnested : calls ['p'] ['f'] call.arguments = [nested] := by decide +kernel
  obtain ⟨ts, front, own, last, hts, hown, -, htokens, hinner, hfilter⟩ :=
    tokens_calls_arguments hcall
  have hinside := hfilter ['p'] ['f']
  rw [hnested] at hinside
  exact ⟨hcall, hnested, hinside, ts, front, own, last, hts, hown, htokens, hinner⟩

end AllowedValues.Source
