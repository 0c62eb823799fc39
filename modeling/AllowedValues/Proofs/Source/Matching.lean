import AllowedValues.Proofs.Source.Calls

/-!
Which bracket closes which. The indices that tokens carry pair every bracket with one of its own
shape further on, what stands between the two is balanced, and of two pairs the one lies within the
other or beside it.
-/

namespace AllowedValues.Source

def Kind.isOpening : Kind → Bool
  | .opening _ => true
  | _ => false

theorem Kind.isOpening_of_isBracket {k : Kind} (h : k.isBracket = false) : k.isOpening = false := by
  cases k <;> first | rfl | cases h

section Indices

variable {i : Nat} {ks : List Kind} {closes : List (Option Nat)} {waiting : List (Bracket × Nat)}

theorem map_isSome_of_matchFrom (h : matchFrom i ks = some (closes, waiting)) :
    closes.map Option.isSome = ks.map Kind.isOpening := by
  induction ks generalizing i closes waiting with
  | nil =>
      obtain ⟨rfl, -⟩ := Prod.mk.inj (Option.some.inj h)
      rfl
  | cons k ks ih =>
      obtain ⟨closes', waiting', h', hcases⟩ := matchFrom_cons_cases h
      have hrest := ih h'
      rcases hcases with ⟨b, j, rfl, rfl, -⟩ | ⟨b, rfl, rfl, -⟩ | ⟨hk, rfl, -⟩
      · simp [hrest, Kind.isOpening]
      · simp [hrest, Kind.isOpening]
      · simp [hrest, Kind.isOpening_of_isBracket hk]

/-- A closing bracket is left over, or one of the units is matched to it. -/
theorem mem_waiting_or_exists_of_matchFrom (h : matchFrom i ks = some (closes, waiting))
    {m : Nat} {b : Bracket} (hm : ks[m]? = some (.closing b)) :
    (b, i + m) ∈ waiting ∨ ∃ n : Nat, closes[n]? = some (some (i + m)) := by
  induction ks generalizing i m closes waiting with
  | nil => simp at hm
  | cons k ks ih =>
      obtain ⟨closes', waiting', h', hcases⟩ := matchFrom_cons_cases h
      cases m with
      | zero =>
          obtain rfl : k = .closing b := Option.some.inj hm
          rcases hcases with ⟨b', j, hk, -⟩ | ⟨b', hk, -, rfl⟩ | ⟨hk, -⟩
          · cases hk
          · cases hk
            exact Or.inl List.mem_cons_self
          · cases hk
      | succ m =>
          have hindex : i + 1 + m = i + (m + 1) := by omega
          rw [← hindex]
          rcases ih h' hm with hwaiting | ⟨n, hn⟩
          · rcases hcases with ⟨b', j, -, rfl, rfl⟩ | ⟨b', -, -, rfl⟩ | ⟨-, -, rfl⟩
            · -- What was left over last is closed by the bracket that opens here.
              rcases List.mem_cons.1 hwaiting with heq | hwaiting
              · cases heq
                exact Or.inr ⟨0, rfl⟩
              · exact Or.inl hwaiting
            · exact Or.inl (List.mem_cons_of_mem _ hwaiting)
            · exact Or.inl hwaiting
          · right
            refine ⟨n + 1, ?_⟩
            rcases hcases with ⟨b', j, -, rfl, -⟩ | ⟨b', -, rfl, -⟩ | ⟨-, rfl, -⟩ <;> exact hn

/-- A bracket that opens before another one is closed is closed before it as well. -/
theorem close_lt_close {m j m' j' : Nat} (h : matchFrom 0 ks = some (closes, []))
    (hm : closes[m]? = some (some j)) (hm' : closes[m']? = some (some j')) (hlt : m < m')
    (hbefore : m' < j) : j' < j := by
  obtain ⟨before, b, inner, after, rfl, rfl, hinner, rfl⟩ := exists_closing_of_getElem? h hm
  rw [List.append_cons] at h
  -- The brackets between the two are matched among themselves.
  obtain ⟨own, hown, hcloses⟩ := hinner.exists_matchFrom_infix h
  rw [List.length_append, List.length_singleton] at hcloses
  obtain ⟨n, rfl⟩ := Nat.exists_eq_add_of_le (Nat.succ_le_of_lt hlt)
  have hn : n < inner.length := by omega
  have hget := congrArg (·[n]?) hcloses
  simp only [List.getElem?_take_of_lt hn, List.getElem?_drop, List.getElem?_map] at hget
  rw [hm', eq_comm] at hget
  obtain ⟨close, hclose, hshift⟩ := Option.map_eq_some_iff.1 hget
  obtain ⟨j'', rfl, rfl⟩ := Option.map_eq_some_iff.1 hshift
  obtain ⟨front, b', part, rest, rfl, rfl, -, rfl⟩ := exists_closing_of_getElem? hown hclose
  simp only [List.length_append, List.length_cons]
  omega

end Indices

/-- The token of index `i` is a bracket that the token of index `j` closes. -/
def Pair (ts : List Token) (i j : Nat) : Prop := ts[i]?.bind Token.close = some j

/-- The indices of closing brackets are the matching of all brackets. -/
structure BracketMatching (ts : List Token) : Prop where
  opening : ∀ {i : Nat} {t : Token} {b : Bracket}, ts[i]? = some t → t.kind = .opening b →
    ∃ (j : Nat) (u : Token), t.close = some j ∧ i < j ∧ ts[j]? = some u ∧ u.kind = .closing b ∧
      Balanced (((ts.take j).drop (i + 1)).map Token.kind)
  closing : ∀ {j : Nat} {u : Token} {b : Bracket}, ts[j]? = some u → u.kind = .closing b →
    ∃ (i : Nat) (t : Token), ts[i]? = some t ∧ t.kind = .opening b ∧ t.close = some j ∧
      ∀ i', Pair ts i' j → i' = i
  other : ∀ t ∈ ts, (∀ b, t.kind ≠ .opening b) → t.close = none
  uncrossed : ∀ {i j i' j' : Nat}, Pair ts i j → Pair ts i' j' → i < i' → j < i' ∨ j' < j

section Tokens

variable {source : Text} {ts : List Token} {i j i' j' : Nat}

theorem pair_iff : Pair ts i j ↔ ∃ t, ts[i]? = some t ∧ t.close = some j :=
  Option.bind_eq_some_iff

theorem Pair.getElem?_map (h : Pair ts i j) : (ts.map Token.close)[i]? = some (some j) := by
  obtain ⟨t, ht, hclose⟩ := pair_iff.1 h
  rw [List.getElem?_map, ht, Option.map_some, hclose]

theorem isSome_close_eq (hts : tokens? source = some ts) {t : Token} (ht : t ∈ ts) :
    t.close.isSome = t.kind.isOpening := by
  have hmap := map_isSome_of_matchFrom (matchFrom_of_tokens? hts)
  rw [List.map_map, List.map_map] at hmap
  exact List.map_inj_left.1 hmap t ht

theorem exists_of_pair (hts : tokens? source = some ts) (h : Pair ts i j) :
    ∃ t u b, ts[i]? = some t ∧ t.kind = .opening b ∧ t.close = some j ∧ ts[j]? = some u ∧
      u.kind = .closing b ∧ i < j ∧ Balanced (((ts.take j).drop (i + 1)).map Token.kind) := by
  obtain ⟨t, ht, hclose⟩ := pair_iff.1 h
  have hmatch := matchFrom_of_tokens? hts
  obtain ⟨hi, rfl⟩ := List.getElem?_eq_some_iff.1 ht
  have hsplit : ts = ts.take i ++ ts[i] :: ts.drop (i + 1) := by
    rw [List.cons_getElem_drop_succ, List.take_append_drop]
  have hlength : (ts.take i).length = i := List.length_take_of_le hi.le
  obtain ⟨u, hu⟩ := exists_getElem?_of_close hmatch hsplit hclose
  obtain ⟨mid, last, hrest, hmid, hj, b, hopening, hclosing⟩ :=
    exists_of_close hmatch hsplit hclose hu
  rw [hlength] at hj
  have hbetween : (ts.take j).drop (i + 1) = mid := by
    rw [List.drop_take, hrest, hj, Nat.add_sub_cancel_left, List.take_left]
  exact ⟨ts[i], u, b, ht, hopening, hclose, hu, hclosing, by omega, by rw [hbetween]; exact hmid⟩

theorem exists_pair_of_opening (hts : tokens? source = some ts) {t : Token} {b : Bracket}
    (ht : ts[i]? = some t) (hkind : t.kind = .opening b) : ∃ j, Pair ts i j := by
  have hsome := isSome_close_eq hts (List.mem_of_getElem? ht)
  rw [hkind, Kind.isOpening, Option.isSome_iff_exists] at hsome
  obtain ⟨j, hj⟩ := hsome
  exact ⟨j, pair_iff.2 ⟨t, ht, hj⟩⟩

theorem Pair.uncrossed (hts : tokens? source = some ts) (h : Pair ts i j) (h' : Pair ts i' j')
    (hlt : i < i') : j < i' ∨ j' < j := by
  obtain ⟨t, u, b, -, -, -, hu, hclosing, -⟩ := exists_of_pair hts h
  obtain ⟨t', u', b', ht', hopening', -⟩ := exists_of_pair hts h'
  rcases Nat.lt_trichotomy i' j with hbefore | rfl | hafter
  · exact Or.inr (close_lt_close (matchFrom_of_tokens? hts) h.getElem?_map h'.getElem?_map hlt
      hbefore)
  · obtain rfl := Option.some.inj (hu.symm.trans ht')
    rw [hclosing] at hopening'
    cases hopening'
  · exact Or.inl hafter

theorem Pair.eq (hts : tokens? source = some ts) (h : Pair ts i j) (h' : Pair ts i' j) :
    i = i' := by
  obtain ⟨-, -, -, -, -, -, -, -, hlt, -⟩ := exists_of_pair hts h
  obtain ⟨-, -, -, -, -, -, -, -, hlt', -⟩ := exists_of_pair hts h'
  rcases Nat.lt_trichotomy i i' with hlow | heq | hhigh
  · have hcross := h.uncrossed hts h' hlow
    omega
  · exact heq
  · have hcross := h'.uncrossed hts h hhigh
    omega

/-- The indices that the tokens of a text carry match its brackets: every bracket is one half of
exactly one pair, with balanced tokens within, and no two pairs cross. -/
theorem bracketMatching_of_tokens? (hts : tokens? source = some ts) : BracketMatching ts where
  opening := by
    intro i t b ht hkind
    obtain ⟨j, hpair⟩ := exists_pair_of_opening hts ht hkind
    obtain ⟨t', u, b', ht', hopening, hclose, hu, hclosing, hlt, hbalanced⟩ :=
      exists_of_pair hts hpair
    obtain rfl := Option.some.inj (ht.symm.trans ht')
    obtain rfl : b = b' := by simpa [hkind] using hopening
    exact ⟨j, u, hclose, hlt, hu, hclosing, hbalanced⟩
  closing := by
    intro j u b hu hkind
    have hget : (ts.map Token.kind)[j]? = some (.closing b) := by
      rw [List.getElem?_map, hu, Option.map_some, hkind]
    rcases mem_waiting_or_exists_of_matchFrom (matchFrom_of_tokens? hts) hget with
      hwaiting | ⟨i, hi⟩
    · cases hwaiting
    · rw [Nat.zero_add, List.getElem?_map, Option.map_eq_some_iff] at hi
      have hpair : Pair ts i j := pair_iff.2 hi
      obtain ⟨t, u', b', ht, hopening, hclose, hu', hclosing, -⟩ := exists_of_pair hts hpair
      obtain rfl := Option.some.inj (hu.symm.trans hu')
      obtain rfl : b = b' := by simpa [hkind] using hclosing
      exact ⟨i, t, ht, hopening, hclose, fun i' hi' => hi'.eq hts hpair⟩
  other := by
    intro t ht hkind
    have hsome := isSome_close_eq hts ht
    rw [← Option.not_isSome_iff_eq_none, hsome]
    cases hk : t.kind with
    | opening b => exact absurd hk (hkind b)
    | _ => simp [Kind.isOpening]
  uncrossed := fun h h' hlt => h.uncrossed hts h' hlt

/-- All three shapes, side by side and within each other, and a bracket in a literal. -/
theorem bracketMatching_of_tokens?_shapes :
    let source : Text := ['f', '(', '[', '{', '}', ']', ',', '\'', ')', '\'', ')', '(', ')']
    let ts : List Token := [⟨.ident, 0, ['f'], none⟩, ⟨.opening .paren, 1, ['('], some 8⟩,
      ⟨.opening .square, 2, ['['], some 5⟩, ⟨.opening .curly, 3, ['{'], some 4⟩,
      ⟨.closing .curly, 4, ['}'], none⟩, ⟨.closing .square, 5, [']'], none⟩,
      ⟨.comma, 6, [','], none⟩, ⟨.literal, 7, ['\'', ')', '\''], none⟩,
      ⟨.closing .paren, 10, [')'], none⟩, ⟨.opening .paren, 11, ['('], some 10⟩,
      ⟨.closing .paren, 12, [')'], none⟩]
    tokens? source = some ts ∧ BracketMatching ts := by
  intro source ts
  have hts : tokens? source = some ts := by decide +kernel
  exact ⟨hts, bracketMatching_of_tokens? hts⟩

end Tokens

end AllowedValues.Source
