import AllowedValues.Source.Token
import Mathlib.Data.List.Basic

/-!
Matched brackets. What stands between a bracket and the one that closes it is balanced by itself,
and the index found for the closing bracket counts exactly that far.
-/

namespace AllowedValues.Source

/-- Whether a unit opens or closes a bracket. -/
def Kind.isBracket : Kind → Bool
  | .opening _ => true
  | .closing _ => true
  | _ => false

theorem Kind.bracket_cases (k : Kind) :
    (∃ b, k = .opening b) ∨ (∃ b, k = .closing b) ∨ k.isBracket = false := by
  cases k with
  | opening b => exact Or.inl ⟨b, rfl⟩
  | closing b => exact Or.inr (Or.inl ⟨b, rfl⟩)
  | _ => exact Or.inr (Or.inr rfl)

/-- Units in which every bracket is closed by one of its own shape. -/
inductive Balanced : List Kind → Prop
  | nil : Balanced []
  | unit {k : Kind} {ks : List Kind} : k.isBracket = false → Balanced ks → Balanced (k :: ks)
  | bracket {b : Bracket} {inner rest : List Kind} : Balanced inner → Balanced rest →
      Balanced (.opening b :: (inner ++ .closing b :: rest))

/-- No closing bracket among the units closes more than `depth` brackets opened before them. -/
def Grounded : Nat → List Kind → Prop
  | _, [] => True
  | depth, .opening _ :: ks => Grounded (depth + 1) ks
  | 0, .closing _ :: _ => False
  | depth + 1, .closing _ :: ks => Grounded depth ks
  | depth, _ :: ks => Grounded depth ks

theorem grounded_cons {k : Kind} (hk : k.isBracket = false) {depth : Nat} {ks : List Kind} :
    Grounded depth (k :: ks) ↔ Grounded depth ks := by
  cases k <;> first | rfl | simp [Kind.isBracket] at hk

theorem balanced_of_units {ks : List Kind} (h : ∀ k ∈ ks, k.isBracket = false) :
    Balanced ks := by
  induction ks with
  | nil => exact .nil
  | cons k ks ih => exact .unit (h k (by simp)) (ih fun l hl => h l (List.mem_cons_of_mem _ hl))

theorem Balanced.append {ks ls : List Kind} (hks : Balanced ks) (hls : Balanced ls) :
    Balanced (ks ++ ls) := by
  induction hks with
  | nil => exact hls
  | unit hk _ ih => exact .unit hk ih
  | @bracket b inner next hinner _ _ ihnext =>
      rw [List.cons_append, List.append_assoc, List.cons_append]
      exact .bracket hinner ihnext

theorem Balanced.getLast?_ne_opening {ks : List Kind} (h : Balanced ks) :
    ∀ k ∈ ks.getLast?, ∀ b, k ≠ .opening b := by
  induction h with
  | nil => simp
  | @unit k ks hk _ ih =>
      intro l hl b
      rw [List.getLast?_cons] at hl
      cases hlast : ks.getLast? with
      | none =>
          rw [hlast, Option.getD_none, Option.mem_some_iff] at hl
          subst hl
          rintro rfl
          cases hk
      | some last =>
          rw [hlast, Option.getD_some, Option.mem_some_iff] at hl
          exact ih l (by rw [hlast, hl]; rfl) b
  | @bracket b inner next _ _ _ ihnext =>
      intro l hl
      rw [← List.cons_append, List.getLast?_append, List.getLast?_cons] at hl
      cases hlast : next.getLast? with
      | none =>
          rw [hlast] at hl
          obtain rfl : Kind.closing b = l := Option.some.inj hl
          simp
      | some last =>
          rw [hlast] at hl
          exact ihnext l (by rw [hlast]; exact hl)

theorem Balanced.grounded_append {ks : List Kind} (h : Balanced ks) {depth : Nat}
    {rest : List Kind} (hrest : Grounded depth rest) : Grounded depth (ks ++ rest) := by
  induction h generalizing depth rest with
  | nil => exact hrest
  | unit hk _ ih =>
      rw [List.cons_append, grounded_cons hk]
      exact ih hrest
  | @bracket b inner next _ _ ihinner ihnext =>
      rw [List.cons_append, List.append_assoc, List.cons_append, Grounded]
      apply ihinner
      rw [Grounded]
      exact ihnext hrest

theorem Balanced.grounded {ks : List Kind} (h : Balanced ks) : Grounded 0 ks := by
  have happend := @Balanced.grounded_append ks h 0 [] trivial
  rwa [List.append_nil] at happend

theorem Balanced.grounded_of_append {ks : List Kind} (h : Balanced ks) {depth : Nat}
    {rest : List Kind} (hks : Grounded depth (ks ++ rest)) : Grounded depth rest := by
  induction h generalizing depth rest with
  | nil => exact hks
  | unit hk _ ih =>
      rw [List.cons_append, grounded_cons hk] at hks
      exact ih hks
  | @bracket b inner next _ _ ihinner ihnext =>
      rw [List.cons_append, List.append_assoc, List.cons_append, Grounded] at hks
      have hnext := ihinner hks
      rw [Grounded] at hnext
      exact ihnext hnext

/-- Units stay grounded where others that are no brackets take the place of the last ones. -/
theorem Grounded.of_append {depth : Nat} {ks rest units : List Kind}
    (h : Grounded depth (ks ++ rest)) (hunits : ∀ k ∈ units, k.isBracket = false) :
    Grounded depth (ks ++ units) := by
  induction ks generalizing depth with
  | nil =>
      have hnil : Grounded depth [] := by cases depth <;> trivial
      have hgrounded := (balanced_of_units hunits).grounded_append hnil
      rwa [List.append_nil] at hgrounded
  | cons k ks ih =>
      rcases k.bracket_cases with ⟨b, rfl⟩ | ⟨b, rfl⟩ | hk
      · exact @ih (depth + 1) h
      · cases depth with
        | zero => exact h.elim
        | succ depth => exact @ih depth h
      · rw [List.cons_append, grounded_cons hk] at h ⊢
        exact ih h

theorem matchFrom_cons {k : Kind} (hk : k.isBracket = false) (i : Nat) (ks : List Kind) :
    matchFrom i (k :: ks) = (matchFrom (i + 1) ks).map fun m => (none :: m.1, m.2) := by
  rw [matchFrom]
  cases matchFrom (i + 1) ks with
  | none => rfl
  | some m => cases k <;> simp_all [Kind.isBracket]

theorem matchFrom_closing (b : Bracket) (i : Nat) (ks : List Kind) :
    matchFrom i (.closing b :: ks) =
      (matchFrom (i + 1) ks).map fun m => (none :: m.1, (b, i) :: m.2) := by
  rw [matchFrom]
  cases matchFrom (i + 1) ks <;> rfl

theorem matchFrom_opening_eq_some_iff {b : Bracket} {i : Nat} {ks : List Kind}
    {closes : List (Option Nat)} {waiting : List (Bracket × Nat)} :
    matchFrom i (.opening b :: ks) = some (closes, waiting) ↔ ∃ j closes',
      matchFrom (i + 1) ks = some (closes', (b, j) :: waiting) ∧ closes = some j :: closes' := by
  rw [matchFrom]
  match matchFrom (i + 1) ks with
  | none => simp
  | some (closes', []) => simp
  | some (closes', (b', j) :: waiting') =>
      by_cases hb : b = b'
      · subst hb
        simp [eq_comm, and_comm]
      · simp [hb, Ne.symm hb]

theorem matchFrom_append {ks : List Kind} (h : ∀ k ∈ ks, k.isBracket = false) (i : Nat)
    (rest : List Kind) : matchFrom i (ks ++ rest) =
      (matchFrom (i + ks.length) rest).map fun m =>
        (List.replicate ks.length none ++ m.1, m.2) := by
  induction ks generalizing i with
  | nil => simp
  | cons k ks ih =>
      have hindex : i + 1 + ks.length = i + (k :: ks).length := by
        rw [List.length_cons]
        omega
      rw [List.cons_append, matchFrom_cons (h k (by simp)),
        ih fun l hl => h l (List.mem_cons_of_mem _ hl), hindex, Option.map_map]
      rfl

theorem matchFrom_cons_cases {k : Kind} {i : Nat} {ks : List Kind} {closes : List (Option Nat)}
    {waiting : List (Bracket × Nat)} (h : matchFrom i (k :: ks) = some (closes, waiting)) :
    ∃ closes' waiting', matchFrom (i + 1) ks = some (closes', waiting') ∧
      ((∃ b j, k = .opening b ∧ closes = some j :: closes' ∧ waiting' = (b, j) :: waiting) ∨
        (∃ b, k = .closing b ∧ closes = none :: closes' ∧ waiting = (b, i) :: waiting') ∨
          (k.isBracket = false ∧ closes = none :: closes' ∧ waiting = waiting')) := by
  rcases k.bracket_cases with ⟨b, rfl⟩ | ⟨b, rfl⟩ | hk
  · obtain ⟨j, closes', h', rfl⟩ := matchFrom_opening_eq_some_iff.1 h
    exact ⟨closes', _, h', Or.inl ⟨b, j, rfl, rfl, rfl⟩⟩
  · rw [matchFrom_closing] at h
    obtain ⟨⟨closes', waiting'⟩, h', heq⟩ := Option.map_eq_some_iff.1 h
    cases heq
    exact ⟨closes', waiting', h', Or.inr (Or.inl ⟨b, rfl, rfl, rfl⟩)⟩
  · rw [matchFrom_cons hk] at h
    obtain ⟨⟨closes', waiting'⟩, h', heq⟩ := Option.map_eq_some_iff.1 h
    cases heq
    exact ⟨closes', waiting', h', Or.inr (Or.inr ⟨hk, rfl, rfl⟩)⟩

theorem length_of_matchFrom {i : Nat} {ks : List Kind} {closes : List (Option Nat)}
    {waiting : List (Bracket × Nat)} (h : matchFrom i ks = some (closes, waiting)) :
    closes.length = ks.length := by
  induction ks generalizing i closes waiting with
  | nil =>
      obtain ⟨rfl, -⟩ := Prod.mk.inj (Option.some.inj h)
      rfl
  | cons k ks ih =>
      obtain ⟨closes', waiting', h', hcases⟩ := matchFrom_cons_cases h
      have hlength := ih h'
      rcases hcases with ⟨b, j, -, rfl, -⟩ | ⟨b, -, rfl, -⟩ | ⟨-, rfl, -⟩ <;>
        rw [List.length_cons, List.length_cons, hlength]

theorem matchFrom_add (i k : Nat) (ks : List Kind) :
    matchFrom (i + k) ks = (matchFrom i ks).map fun m =>
      (m.1.map (Option.map (· + k)), m.2.map (Prod.map id (· + k))) := by
  induction ks generalizing i with
  | nil => rfl
  | cons l ks ih =>
      have hindex : i + k + 1 = i + 1 + k := by omega
      rcases l.bracket_cases with ⟨b, rfl⟩ | ⟨b, rfl⟩ | hl
      · rw [matchFrom, matchFrom, hindex, ih]
        match matchFrom (i + 1) ks with
        | none => rfl
        | some (closes, []) => rfl
        | some (closes, (b', j) :: waiting) =>
            by_cases hb : b = b'
            · simp [hb]
            · simp [hb]
      · rw [matchFrom_closing, matchFrom_closing, hindex, ih, Option.map_map, Option.map_map]
        rfl
      · rw [matchFrom_cons hl, matchFrom_cons hl, hindex, ih, Option.map_map, Option.map_map]
        rfl

/-- What is matched in the last of some units depends on the others by their number only. -/
theorem exists_matchFrom_of_append {i : Nat} {ks ls : List Kind} {closes : List (Option Nat)}
    {waiting : List (Bracket × Nat)} (h : matchFrom i (ks ++ ls) = some (closes, waiting)) :
    ∃ waiting', matchFrom (i + ks.length) ls = some (closes.drop ks.length, waiting') := by
  induction ks generalizing i closes waiting with
  | nil => exact ⟨waiting, h⟩
  | cons k ks ih =>
      obtain ⟨closes', waiting', h', hcases⟩ := matchFrom_cons_cases h
      have hcloses : closes.drop (ks.length + 1) = closes'.drop ks.length := by
        rcases hcases with ⟨b, j, -, rfl, -⟩ | ⟨b, -, rfl, -⟩ | ⟨-, rfl, -⟩ <;> rfl
      obtain ⟨waiting'', hls⟩ := ih h'
      refine ⟨waiting'', ?_⟩
      rw [List.length_cons, hcloses, ← hls, Nat.add_assoc, Nat.add_comm 1]

theorem Balanced.exists_matchFrom {ks : List Kind} (h : Balanced ks) (i : Nat) :
    ∃ closes, ∀ rest, matchFrom i (ks ++ rest) =
      (matchFrom (i + ks.length) rest).map fun m => (closes ++ m.1, m.2) := by
  induction h generalizing i with
  | nil =>
      refine ⟨[], fun rest => ?_⟩
      simp
  | @unit k ks hk _ ih =>
      obtain ⟨closes, hcloses⟩ := ih (i + 1)
      refine ⟨none :: closes, fun rest => ?_⟩
      rw [List.cons_append, matchFrom_cons hk, hcloses, Option.map_map, List.length_cons,
        Nat.add_comm ks.length, Nat.add_assoc]
      rfl
  | @bracket b inner next _ _ ihinner ihnext =>
      obtain ⟨closes, hcloses⟩ := ihinner (i + 1)
      obtain ⟨closes', hcloses'⟩ := ihnext (i + 1 + inner.length + 1)
      refine ⟨some (i + 1 + inner.length) :: (closes ++ none :: closes'), fun rest => ?_⟩
      have hlength : i + 1 + inner.length + 1 + next.length =
          i + (Kind.opening b :: (inner ++ .closing b :: next)).length := by
        simp only [List.length_cons, List.length_append]
        omega
      -- The closing bracket is the first one left over, so the opening one is matched to it.
      have hafter : matchFrom (i + 1) (inner ++ .closing b :: (next ++ rest)) =
          (matchFrom (i + 1 + inner.length + 1 + next.length) rest).map fun m =>
            (closes ++ none :: (closes' ++ m.1), (b, i + 1 + inner.length) :: m.2) := by
        rw [hcloses, matchFrom_closing, hcloses', Option.map_map, Option.map_map]
        rfl
      rw [List.cons_append, List.append_assoc, List.cons_append, ← hlength, matchFrom, hafter]
      cases matchFrom (i + 1 + inner.length + 1 + next.length) rest with
      | none => rfl
      | some m => simp

theorem Balanced.exists_matchFrom_eq {ks : List Kind} (h : Balanced ks) (i : Nat) :
    ∃ closes, matchFrom i ks = some (closes, []) := by
  obtain ⟨closes, hcloses⟩ := h.exists_matchFrom i
  have hself := hcloses []
  rw [List.append_nil, matchFrom, Option.map_some, List.append_nil] at hself
  exact ⟨closes, hself⟩

/-- Balanced units among others are matched as they are by themselves, but for where the count
begins. -/
theorem Balanced.exists_matchFrom_infix {before ks after : List Kind} (hks : Balanced ks)
    {closes : List (Option Nat)} (h : matchFrom 0 (before ++ (ks ++ after)) = some (closes, [])) :
    ∃ own, matchFrom 0 ks = some (own, []) ∧
      (closes.drop before.length).take ks.length = own.map (Option.map (· + before.length)) := by
  obtain ⟨waiting, hrest⟩ := exists_matchFrom_of_append h
  obtain ⟨moved, hmoved⟩ := hks.exists_matchFrom (0 + before.length)
  have hself : matchFrom (0 + before.length) ks = some (moved, []) := by
    have hnil := hmoved []
    rwa [List.append_nil, matchFrom, Option.map_some, List.append_nil] at hnil
  have hlength := length_of_matchFrom hself
  rw [hmoved] at hrest
  obtain ⟨⟨later, waiting'⟩, -, heq⟩ := Option.map_eq_some_iff.1 hrest
  have hcloses : moved ++ later = closes.drop before.length := congrArg Prod.fst heq
  rw [matchFrom_add] at hself
  obtain ⟨⟨own, unclosed⟩, hown, hshift⟩ := Option.map_eq_some_iff.1 hself
  obtain ⟨hmap, hnil⟩ := Prod.mk.inj hshift
  obtain rfl := List.map_eq_nil_iff.1 hnil
  refine ⟨own, hown, ?_⟩
  rw [← hcloses, ← hlength, List.take_left, ← hmap]

/-- Between the units and the first bracket that is left over everything is balanced. -/
theorem exists_closing_of_matchFrom {b : Bracket} {i j : Nat} {ks : List Kind}
    {closes : List (Option Nat)} {waiting : List (Bracket × Nat)}
    (h : matchFrom i ks = some (closes, (b, j) :: waiting)) : ∃ inner after closes',
      ks = inner ++ .closing b :: after ∧ Balanced inner ∧ j = i + inner.length ∧
        matchFrom (j + 1) after = some (closes', waiting) := by
  match ks with
  | [] => simp [matchFrom] at h
  | k :: ks =>
      obtain ⟨closes', waiting', h', ⟨b', j', rfl, -, rfl⟩ | ⟨b', rfl, -, heq⟩ | ⟨hk, -, rfl⟩⟩ :=
        matchFrom_cons_cases h
      · -- The bracket opened here is closed first; what is left over comes after that.
        obtain ⟨inner, rest, closes', hks, hinner, rfl, hrest⟩ := exists_closing_of_matchFrom h'
        obtain ⟨next, after, closes', rfl, hnext, rfl, hafter⟩ := exists_closing_of_matchFrom hrest
        refine ⟨.opening b' :: (inner ++ .closing b' :: next), after, closes', ?_,
          .bracket hinner hnext, ?_, hafter⟩
        · rw [hks, List.cons_append, List.append_assoc, List.cons_append]
        · simp only [List.length_cons, List.length_append]
          omega
      · cases heq
        exact ⟨[], ks, closes', rfl, .nil, rfl, h'⟩
      · obtain ⟨inner, after, closes', rfl, hinner, rfl, hafter⟩ := exists_closing_of_matchFrom h'
        refine ⟨k :: inner, after, closes', rfl, .unit hk hinner, ?_, hafter⟩
        rw [List.length_cons]
        omega
termination_by ks.length
decreasing_by
  · exact Nat.lt_succ_self _
  · simp only [hks, List.length_cons, List.length_append]
    omega
  · exact Nat.lt_succ_self _

theorem balanced_of_matchFrom {i : Nat} {ks : List Kind} {closes : List (Option Nat)}
    (h : matchFrom i ks = some (closes, [])) : Balanced ks := by
  match ks with
  | [] => exact .nil
  | k :: ks =>
      obtain ⟨closes', waiting, h', ⟨b, j, rfl, -, rfl⟩ | ⟨b, -, -, hnil⟩ | ⟨hk, -, rfl⟩⟩ :=
        matchFrom_cons_cases h
      · obtain ⟨inner, after, closes', hks, hinner, rfl, hafter⟩ := exists_closing_of_matchFrom h'
        rw [hks]
        exact .bracket hinner (balanced_of_matchFrom hafter)
      · cases hnil
      · exact .unit hk (balanced_of_matchFrom h')
termination_by ks.length
decreasing_by
  · simp only [hks, List.length_cons, List.length_append]
    omega
  · exact Nat.lt_succ_self _

theorem waiting_ne_cons_of_grounded {b : Bracket} {i j : Nat} {ks : List Kind}
    {closes : List (Option Nat)} {waiting : List (Bracket × Nat)} (hks : Grounded 0 ks) :
    matchFrom i ks ≠ some (closes, (b, j) :: waiting) := by
  intro h
  obtain ⟨inner, after, -, rfl, hinner, -, -⟩ := exists_closing_of_matchFrom h
  exact hinner.grounded_of_append hks

/-- A matched bracket stands before balanced units and the bracket that closes it. -/
theorem exists_closing_of_getElem? {i m j : Nat} {ks : List Kind} {closes : List (Option Nat)}
    {waiting : List (Bracket × Nat)} (h : matchFrom i ks = some (closes, waiting))
    (hm : closes[m]? = some (some j)) : ∃ before b inner after,
      ks = before ++ .opening b :: (inner ++ .closing b :: after) ∧ before.length = m ∧
        Balanced inner ∧ j = i + m + 1 + inner.length := by
  induction ks generalizing i m closes waiting with
  | nil =>
      obtain ⟨rfl, -⟩ := Prod.mk.inj (Option.some.inj h)
      simp at hm
  | cons k ks ih =>
      obtain ⟨closes', waiting', h', hcases⟩ := matchFrom_cons_cases h
      cases m with
      | zero =>
          rcases hcases with ⟨b, j', rfl, rfl, rfl⟩ | ⟨b, -, rfl, -⟩ | ⟨-, rfl, -⟩
          · cases hm
            obtain ⟨inner, after, -, rfl, hinner, hj, -⟩ := exists_closing_of_matchFrom h'
            exact ⟨[], b, inner, after, rfl, rfl, hinner, hj⟩
          · cases hm
          · cases hm
      | succ m =>
          have hm' : closes'[m]? = some (some j) := by
            rcases hcases with ⟨b, j', -, rfl, -⟩ | ⟨b, -, rfl, -⟩ | ⟨-, rfl, -⟩ <;> exact hm
          obtain ⟨before, b, inner, after, rfl, rfl, hinner, rfl⟩ := ih h' hm'
          refine ⟨k :: before, b, inner, after, rfl, rfl, hinner, ?_⟩
          omega

end AllowedValues.Source
