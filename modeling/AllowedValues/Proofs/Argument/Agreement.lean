import AllowedValues.Proofs.Argument.Elements
import AllowedValues.Proofs.Source.Calls

/-!
The values of a call against its tokens. Both readings of the arguments give the same values,
unless white space that is no blank stands in an element that has one.
-/

namespace AllowedValues.Argument

open Source (Call Piece Token tokens? calls)
open Source.Piece (argumentValue? cut? elements elementValue? isCode soleValue?)

/-- The values of tokens: those of the elements between their commas of depth zero. -/
def tokenValues (ts : List Token) : List Text :=
  (elements (ts.map Token.piece)).filterMap soleValue?

theorem elements_filter (ps : List Piece) :
    elements (ps.filter isCode) = (elements ps).map (List.filter isCode) :=
  elements_filter_of_code (fun _ hcode => hcode) ps

section Guard

variable {α β : Type} {p : α → Bool} {f : α → Option β}

theorem length_filterMap_guard_le (l : List α) :
    (l.filterMap fun a => if p a then none else f a).length ≤ (l.filterMap f).length := by
  induction l with
  | nil => exact le_rfl
  | cons a l ih =>
      rw [List.filterMap_cons, List.filterMap_cons]
      by_cases hp : p a = true
      · rw [if_pos hp]
        cases f a with
        | none => exact ih
        | some b => exact ih.trans (Nat.le_succ _)
      · rw [if_neg hp]
        cases f a with
        | none => exact ih
        | some b => exact Nat.succ_le_succ ih

/-- A guard loses no result exactly if it lets everything through that has one. -/
theorem filterMap_guard_eq_iff {l : List α} :
    (l.filterMap fun a => if p a then none else f a) = l.filterMap f ↔
      ∀ a ∈ l, (f a).isSome = true → p a = false := by
  induction l with
  | nil => simp
  | cons a l ih =>
      rw [List.filterMap_cons, List.filterMap_cons, List.forall_mem_cons, ← ih]
      by_cases hp : p a = true
      · rw [if_pos hp]
        cases hf : f a with
        | none => simp
        | some b =>
            -- The result that the guard drops is missed: the other list is longer.
            have hlength := length_filterMap_guard_le (p := p) (f := f) l
            constructor
            · intro h
              replace h : (l.filterMap fun a => if p a then none else f a) = b :: l.filterMap f := h
              rw [h, List.length_cons] at hlength
              omega
            · rintro ⟨hguard, -⟩
              rw [hguard rfl] at hp
              exact absurd hp (by decide)
      · rw [if_neg hp]
        rw [Bool.not_eq_true] at hp
        cases f a with
        | none => simp
        | some b => simp [hp]

end Guard

/-- The values of a call are those of its tokens, the elements apart in which white space is stray.
So the two agree exactly if no element that has a value has stray white space in it. -/
theorem values_arguments {source package function : Text} {ts : List Token} {call : Call}
    (hts : tokens? source = some ts) (hcall : call ∈ calls package function source) :
    ∃ pieces, cut? call.arguments = some pieces ∧
      (call.inner ts).map Token.piece = pieces.filter isCode ∧
      values call.arguments = (elements pieces).filterMap argumentValue? ∧
      (values call.arguments = tokenValues (call.inner ts) ↔
        ∀ e ∈ elements pieces, (elementValue? e).isSome = true → e.any Piece.isStray = false) := by
  obtain ⟨pieces, hcut, hbalanced, hinner⟩ := Source.exists_cut?_arguments hts hcall
  have hvalues := values_of_cut? hcut hbalanced.grounded
  have htokens : tokenValues (call.inner ts) = (elements pieces).filterMap elementValue? := by
    rw [tokenValues, hinner, elements_filter, List.filterMap_map]
    rfl
  refine ⟨pieces, hcut, hinner, hvalues, ?_⟩
  rw [hvalues, htokens]
  exact filterMap_guard_eq_iff

/-- A no-break space before a literal. -/
theorem values_arguments_noBreakSpace :
    let source : Text :=
      ['p', '.', 'f', '(', Char.ofNat 160, '"', 'a', '"', ',', '"', 'b', '"', ')']
    let ts : List Token :=
      [⟨.ident, 0, ['p'], none⟩, ⟨.dot, 1, ['.'], none⟩, ⟨.ident, 2, ['f'], none⟩,
        ⟨.opening .paren, 3, ['('], some 7⟩, ⟨.literal, 6, ['"', 'a', '"'], none⟩,
        ⟨.comma, 9, [','], none⟩, ⟨.literal, 10, ['"', 'b', '"'], none⟩,
        ⟨.closing .paren, 13, [')'], none⟩]
    let call : Call := ⟨0, 14, [Char.ofNat 160, '"', 'a', '"', ',', '"', 'b', '"']⟩
    tokens? source = some ts ∧ call ∈ calls ['p'] ['f'] source ∧
      values call.arguments = [['b']] ∧ tokenValues (call.inner ts) = [['a'], ['b']] ∧
      ∃ pieces, cut? call.arguments = some pieces ∧ ∃ e ∈ elements pieces,
        (elementValue? e).isSome = true ∧ e.any Piece.isStray = true := by
  intro source ts call
  have hts : tokens? source = some ts := by decide +kernel
  have hcall : call ∈ calls ['p'] ['f'] source := by
    have hcalls : calls ['p'] ['f'] source = [call] := by decide +kernel
    rw [hcalls]
    exact List.mem_singleton.2 rfl
  have hvalues : values call.arguments = [['b']] := by decide +kernel
  have htokens : tokenValues (call.inner ts) = [['a'], ['b']] := by decide +kernel
  obtain ⟨pieces, hcut, -, -, hagree⟩ := values_arguments hts hcall
  have hdiffer : ¬ values call.arguments = tokenValues (call.inner ts) := by
    rw [hvalues, htokens]
    decide
  rw [hagree] at hdiffer
  refine ⟨hts, hcall, hvalues, htokens, pieces, hcut, ?_⟩
  simpa using hdiffer

end AllowedValues.Argument
