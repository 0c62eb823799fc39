import AllowedValues.CodeSpan
import Mathlib.Data.List.Infix

/-!
The shape of a code span. A content without the delimiter stands between single delimiters. Any
other stands between spaces and two fences, and no run of delimiters in it is as long as a fence.
-/

namespace AllowedValues.CodeSpan

variable {delimiter : Char} {content s : Text} {n : Nat}

theorem map_render (delimiter : Char) (values : List Text) : values.map (render delimiter) =
    (values.map escapeControls).map (wrap delimiter) := by
  rw [List.map_map]
  rfl

theorem runs_cons_self (delimiter : Char) (s : Text) : runs delimiter (delimiter :: s) =
    ((runs delimiter s).1 + 1, max ((runs delimiter s).1 + 1) (runs delimiter s).2) := by
  simp only [runs, if_true]

theorem runs_cons_of_ne {c : Char} (h : c ≠ delimiter) (s : Text) :
    runs delimiter (c :: s) = (0, (runs delimiter s).2) := by
  simp only [runs, if_neg h]

/-- The two numbers that are counted: the runs at the start of a text are those that are no longer
than the first, and the runs anywhere in it those that are no longer than the second. -/
theorem replicate_runs_iff (delimiter : Char) (s : Text) (n : Nat) :
    (List.replicate n delimiter <+: s ↔ n ≤ (runs delimiter s).1) ∧
      (List.replicate n delimiter <:+: s ↔ n ≤ (runs delimiter s).2) := by
  induction s generalizing n with
  | nil => simp [runs]
  | cons c s ih =>
      have hinfix := (ih n).2
      by_cases hc : c = delimiter
      · subst hc
        have hlead : List.replicate n c <+: c :: s ↔ n ≤ (runs c s).1 + 1 := by
          cases n with
          | zero => simp
          | succ n =>
              rw [List.replicate_succ, List.cons_prefix_cons, (ih n).1]
              simp
        rw [runs_cons_self, List.infix_cons_iff, hlead, hinfix]
        refine ⟨Iff.rfl, ?_⟩
        omega
      · have hlead : List.replicate n delimiter <+: c :: s ↔ n ≤ 0 := by
          cases n with
          | zero => simp
          | succ n => simp [List.replicate_succ, Ne.symm hc]
        rw [runs_cons_of_ne hc, List.infix_cons_iff, hlead, hinfix]
        refine ⟨Iff.rfl, ?_⟩
        omega

theorem replicate_infix_iff :
    List.replicate n delimiter <:+: s ↔ n ≤ longestRun delimiter s :=
  (replicate_runs_iff delimiter s n).2

theorem longestRun_eq_zero_iff : longestRun delimiter s = 0 ↔ delimiter ∉ s := by
  rw [← List.singleton_infix_iff, ← List.replicate_one, replicate_infix_iff]
  omega

theorem longestRun_reverse (delimiter : Char) (s : Text) :
    longestRun delimiter s.reverse = longestRun delimiter s := by
  have hruns (n : Nat) : n ≤ longestRun delimiter s.reverse ↔ n ≤ longestRun delimiter s := by
    rw [← replicate_infix_iff, ← replicate_infix_iff, ← List.reverse_infix, List.reverse_reverse,
      List.reverse_replicate]
  exact le_antisymm ((hruns _).1 le_rfl) ((hruns _).2 le_rfl)

/-- A content and its code span. -/
inductive Shape (delimiter : Char) : Text → Text → Prop
  | bare {content : Text} : delimiter ∉ content →
      Shape delimiter content (delimiter :: (content ++ [delimiter]))
  | fenced {content : Text} {n : Nat} : List.replicate (n + 1) delimiter <:+: content →
      ¬ List.replicate (n + 2) delimiter <:+: content →
      Shape delimiter content (List.replicate (n + 2) delimiter ++
        ' ' :: (content ++ ' ' :: List.replicate (n + 2) delimiter))

theorem shape_wrap (delimiter : Char) (content : Text) :
    Shape delimiter content (wrap delimiter content) := by
  simp only [wrap]
  split
  · rename_i hzero
    rw [hzero]
    exact .bare (longestRun_eq_zero_iff.1 hzero)
  · rename_i hlong
    obtain ⟨n, hn⟩ := Nat.exists_eq_succ_of_ne_zero hlong
    rw [hn, List.append_assoc, List.cons_append]
    refine .fenced ?_ ?_
    · rw [replicate_infix_iff, hn]
    · rw [replicate_infix_iff, hn]
      omega

theorem Shape.exists_eq_cons {span : Text} (h : Shape delimiter content span) :
    ∃ s, span = delimiter :: s := by
  cases h with
  | bare _ => exact ⟨_, rfl⟩
  | fenced _ _ => exact ⟨_, rfl⟩

theorem reverse_wrap (delimiter : Char) (content : Text) :
    (wrap delimiter content).reverse = wrap delimiter content.reverse := by
  simp only [wrap, longestRun_reverse]
  split
  · simp
  · simp

end AllowedValues.CodeSpan
