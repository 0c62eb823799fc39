import AllowedValues.Proofs.Source.Arguments

/-!
Which bracket a token stands in. Of the brackets around a token the last to open is the innermost
one. Where the arguments of a call have closed every bracket that they opened, it is the parenthesis
of the call.
-/

namespace AllowedValues.Source

/-- The bracket depth after a unit. Closing brackets that nothing opened count for nothing. -/
def Kind.depthAfter (depth : Nat) : Kind → Nat
  | .opening _ => depth + 1
  | .closing _ => depth - 1
  | _ => depth

theorem Kind.depthAfter_of_isBracket {k : Kind} (h : k.isBracket = false) (depth : Nat) :
    k.depthAfter depth = depth := by
  cases k <;> first | rfl | cases h

theorem le_foldl_depthAfter {ks : List Kind} {above : Nat} (h : Grounded above ks) (depth : Nat) :
    depth ≤ ks.foldl Kind.depthAfter (depth + above) := by
  induction ks generalizing above with
  | nil => exact Nat.le_add_right _ _
  | cons k ks ih =>
      rw [List.foldl_cons]
      rcases k.bracket_cases with ⟨b, rfl⟩ | ⟨b, rfl⟩ | hk
      · exact @ih (above + 1) h
      · cases above with
        | zero => exact h.elim
        | succ above => exact @ih above h
      · rw [grounded_cons hk] at h
        rw [Kind.depthAfter_of_isBracket hk]
        exact ih h

theorem Balanced.foldl_depthAfter {ks : List Kind} (h : Balanced ks) (depth : Nat) :
    ks.foldl Kind.depthAfter depth = depth := by
  induction h generalizing depth with
  | nil => rfl
  | unit hk _ ih => rw [List.foldl_cons, Kind.depthAfter_of_isBracket hk, ih]
  | bracket _ _ ihinner ihnext =>
      rw [List.foldl_cons, List.foldl_append, ihinner, List.foldl_cons]
      exact ihnext depth

theorem Grounded.depth_pos {above : Nat} {front rest : List Kind} {b : Bracket}
    (h : Grounded above (front ++ .closing b :: rest)) :
    0 < front.foldl Kind.depthAfter above := by
  induction front generalizing above with
  | nil =>
      cases above with
      | zero => exact h.elim
      | succ above => exact Nat.succ_pos above
  | cons k front ih =>
      rw [List.foldl_cons]
      rcases k.bracket_cases with ⟨b', rfl⟩ | ⟨b', rfl⟩ | hk
      · exact @ih (above + 1) h
      · cases above with
        | zero => exact h.elim
        | succ above => exact @ih above h
      · rw [List.cons_append, grounded_cons hk] at h
        rw [Kind.depthAfter_of_isBracket hk]
        exact ih h

/-- Where the first of balanced units end at a depth, one of their brackets is not closed before. -/
theorem Balanced.exists_open {ks front rest : List Kind} (h : Balanced ks)
    (hsplit : ks = front ++ rest) (hdepth : front.foldl Kind.depthAfter 0 ≠ 0) :
    ∃ before b inner after, ks = before ++ .opening b :: (inner ++ .closing b :: after) ∧
      Balanced inner ∧ before.length < front.length ∧
        front.length ≤ before.length + 1 + inner.length := by
  induction h generalizing front rest with
  | nil =>
      obtain ⟨rfl, -⟩ := List.append_eq_nil_iff.1 hsplit.symm
      exact absurd rfl hdepth
  | @unit k ks hk _ ih =>
      cases front with
      | nil => exact absurd rfl hdepth
      | cons k' front =>
          rw [List.cons_append] at hsplit
          obtain ⟨rfl, hks⟩ := List.cons.inj hsplit
          rw [List.foldl_cons, Kind.depthAfter_of_isBracket hk] at hdepth
          obtain ⟨before, b, inner, after, rfl, hinner, hlow, hhigh⟩ := ih hks hdepth
          refine ⟨k :: before, b, inner, after, rfl, hinner, Nat.succ_lt_succ hlow, ?_⟩
          simp only [List.length_cons]
          omega
  | @bracket b inner next hinner _ _ ih =>
      cases front with
      | nil => exact absurd rfl hdepth
      | cons k front =>
          rw [List.cons_append] at hsplit
          obtain ⟨rfl, hrest⟩ := List.cons.inj hsplit
          by_cases hwithin : front.length ≤ inner.length
          · refine ⟨[], b, inner, next, rfl, hinner, Nat.succ_pos _, ?_⟩
            simp only [List.length_cons, List.length_nil]
            omega
          · -- The first bracket is closed again, so the open one comes behind it.
            rw [List.append_cons] at hrest
            obtain ⟨part, rfl⟩ : inner ++ [.closing b] <+: front := by
              refine List.prefix_of_prefix_length_le (List.prefix_append _ next)
                (hrest ▸ List.prefix_append front rest) ?_
              rw [List.length_append, List.length_singleton]
              omega
            rw [List.append_assoc (inner ++ [Kind.closing b])] at hrest
            rw [List.foldl_cons, List.foldl_append, List.foldl_append,
              hinner.foldl_depthAfter] at hdepth
            obtain ⟨before, b', inner', after, rfl, hinner', hlow, hhigh⟩ :=
              ih (List.append_cancel_left hrest) hdepth
            refine ⟨.opening b :: (inner ++ .closing b :: before), b', inner', after, by simp,
              hinner', ?_, ?_⟩
            · simp only [List.length_cons, List.length_append, List.length_nil]
              omega
            · simp only [List.length_cons, List.length_append, List.length_nil]
              omega

theorem Balanced.getElem?_closes {before inner after : List Kind} {b : Bracket}
    {closes : List (Option Nat)} {waiting : List (Bracket × Nat)} (hinner : Balanced inner)
    (h : matchFrom 0 (before ++ .opening b :: (inner ++ .closing b :: after)) =
      some (closes, waiting)) :
    closes[before.length]? = some (some (before.length + 1 + inner.length)) := by
  obtain ⟨waiting', hrest⟩ := exists_matchFrom_of_append h
  obtain ⟨j, closes', hbehind, hcloses⟩ := matchFrom_opening_eq_some_iff.1 hrest
  obtain ⟨own, hown⟩ := hinner.exists_matchFrom (0 + before.length + 1)
  rw [hown, matchFrom_closing, Option.map_map] at hbehind
  obtain ⟨m, -, heq⟩ := Option.map_eq_some_iff.1 hbehind
  have hj : 0 + before.length + 1 + inner.length = j :=
    congrArg Prod.snd (List.cons.inj (congrArg Prod.snd heq)).1
  rw [← Nat.add_zero before.length, ← List.getElem?_drop, hcloses, List.getElem?_cons_zero, ← hj]
  simp only [Nat.add_zero, Nat.zero_add]

/-- At depth zero every bracket that was opened before is closed. -/
theorem close_lt_of_depth {ks front rest : List Kind} {closes : List (Option Nat)} {m j : Nat}
    (hmatch : matchFrom 0 ks = some (closes, [])) (hsplit : ks = front ++ rest)
    (hdepth : front.foldl Kind.depthAfter 0 = 0) (hclose : closes[m]? = some (some j))
    (hm : m < front.length) : j < front.length := by
  obtain ⟨before, b, inner, after, hks, rfl, hinner, hj⟩ := exists_closing_of_getElem? hmatch hclose
  by_contra hle
  rw [hks, List.append_cons] at hsplit
  -- The bracket is still open at the end of the front part, which ends within what it encloses.
  obtain ⟨part, rfl⟩ : before ++ [.opening b] <+: front := by
    refine List.prefix_of_prefix_length_le (List.prefix_append _ _)
      (hsplit ▸ List.prefix_append front rest) ?_
    rw [List.length_append, List.length_singleton]
    omega
  rw [List.append_assoc (before ++ [Kind.opening b])] at hsplit
  obtain ⟨others, rfl⟩ : part <+: inner := by
    refine List.prefix_of_prefix_length_le (List.append_cancel_left hsplit ▸
      List.prefix_append part rest) (List.prefix_append _ _) ?_
    simp only [List.length_append, List.length_singleton] at hle
    omega
  have hpart : Grounded 0 part := by
    have hgrounded := @Grounded.of_append 0 part others [] hinner.grounded (by simp)
    rwa [List.append_nil] at hgrounded
  have hopen := le_foldl_depthAfter hpart (before.foldl Kind.depthAfter 0 + 1)
  rw [List.foldl_append, List.foldl_append] at hdepth
  have hsame : part.foldl Kind.depthAfter (before.foldl Kind.depthAfter 0 + 1) = 0 := hdepth
  rw [Nat.add_zero, hsame] at hopen
  omega

/-- The token of index `m` is a bracket, and that of index `k` stands before the one that closes
it. -/
def Encloses (ts : List Token) (m k : Nat) : Prop :=
  ∃ j, ts[m]?.bind Token.close = some j ∧ m < k ∧ k < j

/-- The last bracket to open of those around a token. -/
def Innermost (ts : List Token) (m k : Nat) : Prop :=
  Encloses ts m k ∧ ∀ m', Encloses ts m' k → m' ≤ m

theorem Innermost.eq {ts : List Token} {m m' k : Nat} (h : Innermost ts m k)
    (h' : Innermost ts m' k) : m = m' :=
  Nat.le_antisymm (h'.2 m h.1) (h.2 m' h'.1)

section Order

variable {source package function : Text} {all ts : List Token}

theorem pairwise_start (hts : tokens? source = some ts) :
    ts.Pairwise fun t u => t.start < u.start := by
  obtain ⟨pieces, hcut, -, hunits, -⟩ := tokens?_eq_some_iff.1 hts
  refine (pairwise_of_unmatched hunits).imp_of_mem fun {t u} ht _ horder => ?_
  exact Nat.lt_of_lt_of_le (start_lt_stop hcut hunits ht) horder

theorem rel_of_pairwise {R : α → α → Prop} {l : List α} (h : l.Pairwise R) {k k' : Nat} {a b : α}
    (hlt : k < k') (ha : l[k]? = some a) (hb : l[k']? = some b) : R a b := by
  obtain ⟨hk, rfl⟩ := List.getElem?_eq_some_iff.1 ha
  obtain ⟨hk', rfl⟩ := List.getElem?_eq_some_iff.1 hb
  exact List.pairwise_iff_getElem.1 h k k' hk hk' hlt

theorem eq_of_start_eq (h : ts.Pairwise fun t u => t.start < u.start) {k k' : Nat} {t t' : Token}
    (hk : ts[k]? = some t) (hk' : ts[k']? = some t') (hstart : t.start = t'.start) : k = k' := by
  rcases Nat.lt_trichotomy k k' with hlow | heq | hhigh
  · have horder := rel_of_pairwise h hlow hk hk'
    omega
  · exact heq
  · have horder := rel_of_pairwise h hhigh hk' hk
    omega

theorem pairwise_callsAfter (h : ts.Pairwise fun t u => t.start < u.start)
    (previous : Option Kind) : (callsAfter source package function all previous ts).Pairwise
      fun c c' => c.start < c'.start := by
  induction ts generalizing previous with
  | nil => exact .nil
  | cons t ts ih =>
      obtain ⟨hfirst, hrest⟩ := List.pairwise_cons.1 h
      rw [callsAfter]
      split_ifs
      · exact ih hrest _
      · refine List.pairwise_append.2 ⟨?_, ih hrest _, fun c hc c' hc' => ?_⟩
        · cases callAtHead? source package function all (t :: ts) with
          | none => exact .nil
          | some call => exact List.pairwise_singleton _ _
        · obtain ⟨u, hu, hstart⟩ := exists_start_eq_of_mem_callsAfter hc'
          rw [start_eq_of_callAtHead? (Option.mem_toList.1 hc), hstart]
          exact hfirst u hu

theorem pairwise_calls (hts : tokens? source = some ts) (package function : Text) :
    (calls package function source).Pairwise fun c c' => c.start < c'.start := by
  rw [calls, hts]
  exact pairwise_callsAfter (pairwise_start hts) none

end Order

section Parenthesis

variable {source text : Text} {ts own front last head tail : List Token} {opening t : Token}
  {bytes : Nat} (h : Embedded source ts text own (front ++ [opening]) last bytes)

include h

theorem Embedded.getElem?_opening : ts[front.length]? = some opening := by
  rw [h.tokens_eq]
  simp

/-- Where the arguments of a call are at depth zero, its parenthesis is the innermost bracket. -/
theorem Embedded.innermost (hclose : opening.close = some (front.length + 1 + own.length))
    (hsplit : own = head ++ t :: tail) (hdepth : (head.map (·.kind)).foldl Kind.depthAfter 0 = 0) :
    Innermost ts front.length (front.length + 1 + head.length) := by
  have hlength : own.length = head.length + 1 + tail.length := by
    rw [hsplit, List.length_append, List.length_cons]
    omega
  refine ⟨⟨_, by rw [h.getElem?_opening]; exact hclose, by omega, by omega⟩, ?_⟩
  rintro m ⟨j, hj, hm, hbehind⟩
  by_contra hlater
  -- A bracket that opens behind the parenthesis is one of the arguments, and closed there.
  obtain ⟨i, rfl⟩ : ∃ i, m = i + (front ++ [opening]).length :=
    ⟨m - (front.length + 1), by simp only [List.length_append, List.length_singleton]; omega⟩
  simp only [List.length_append, List.length_singleton] at hm hlater
  rw [h.getElem?_add (by omega)] at hj
  obtain ⟨u, hu, hshift⟩ := Option.bind_eq_some_iff.1 hj
  obtain ⟨u, hget, rfl⟩ := Option.map_eq_some_iff.1 hu
  obtain ⟨j', hj', rfl⟩ := Option.map_eq_some_iff.1 hshift
  have hcloses : (own.map (·.close))[i]? = some (some j') := by
    rw [List.getElem?_map, hget, Option.map_some, hj']
  have hbefore := close_lt_of_depth (matchFrom_of_tokens? h.tokens_own)
    (by rw [hsplit, List.map_append]) hdepth hcloses
    (by rw [List.length_map]; omega)
  rw [List.length_map] at hbefore
  simp only [List.length_append, List.length_singleton] at hbehind
  omega

theorem Embedded.exists_of_encloses (hclose : opening.close = some (front.length + 1 + own.length))
    {k : Nat} (hk : Encloses ts front.length k) :
    ∃ head t tail, own = head ++ t :: tail ∧ k = front.length + 1 + head.length ∧
      ts[k]? = some (t.shift bytes (front ++ [opening]).length) := by
  obtain ⟨j, hj, hlow, hhigh⟩ := hk
  rw [h.getElem?_opening, Option.bind_some, hclose, Option.some.injEq] at hj
  obtain ⟨n, rfl⟩ := Nat.exists_eq_add_of_le (Nat.succ_le_of_lt hlow)
  have hn : n < own.length := by omega
  refine ⟨own.take n, own[n], own.drop (n + 1), ?_, ?_, ?_⟩
  · rw [List.cons_getElem_drop_succ, List.take_append_drop]
  · rw [List.length_take_of_le hn.le]
  · have hget := h.getElem?_add hn
    rw [List.length_append, List.length_singleton, Nat.add_comm, List.getElem?_eq_getElem hn,
      Option.map_some] at hget
    rw [hget, List.length_append, List.length_singleton]

/-- The parenthesis of a call is innermost only where the arguments are at depth zero. -/
theorem Embedded.depth_eq_zero (hsplit : own = head ++ t :: tail) (ht : ∀ b, t.kind ≠ .closing b)
    (hinnermost : Innermost ts front.length (front.length + 1 + head.length)) :
    (head.map (·.kind)).foldl Kind.depthAfter 0 = 0 := by
  by_contra hdepth
  have hmatch := matchFrom_of_tokens? h.tokens_own
  have hkinds : own.map (·.kind) = head.map (·.kind) ++ t.kind :: tail.map (·.kind) := by
    rw [hsplit, List.map_append, List.map_cons]
  -- A bracket of the arguments is open where the token stands, and opens behind the parenthesis.
  obtain ⟨before, b, inner, after, hopen, hinner, hlow, hhigh⟩ :=
    (balanced_of_matchFrom hmatch).exists_open hkinds hdepth
  rw [hopen] at hmatch
  have hcloses := hinner.getElem?_closes hmatch
  rw [List.length_map] at hlow hhigh
  have hbehind : head.length ≠ before.length + 1 + inner.length := by
    intro heq
    have hclosing : before ++ .opening b :: (inner ++ .closing b :: after) =
        (before ++ .opening b :: inner) ++ .closing b :: after := by simp
    have hsame := List.append_inj_right (hkinds.symm.trans (hopen.trans hclosing)) (by
      simp only [List.length_map, List.length_append, List.length_cons]
      omega)
    exact ht b (List.cons.inj hsame).1
  have hlength : own.length = before.length + (inner.length + (after.length + 1) + 1) := by
    rw [← List.length_map, hopen]
    simp only [List.length_append, List.length_cons]
  obtain ⟨u, hu, hj⟩ := Option.map_eq_some_iff.1 (List.getElem?_map.symm.trans hcloses)
  have hget := h.getElem?_add (m := before.length) (by omega)
  rw [hu, Option.map_some, List.length_append, List.length_singleton] at hget
  have hlater := hinnermost.2 (before.length + (front.length + 1))
    ⟨before.length + 1 + inner.length + (front.length + 1), by
      rw [hget, Option.bind_some, Token.shift_close, hj, Option.map_some], by omega, by omega⟩
  omega

end Parenthesis

end AllowedValues.Source
