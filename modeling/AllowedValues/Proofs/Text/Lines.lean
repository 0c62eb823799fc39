import AllowedValues.Proofs.Text.Join
import Mathlib.Data.List.Basic
import Mathlib.Data.List.Infix

/-!
Lines of a text and blocks of lines. A block occupies whole lines of a text if it stands there
between two line boundaries. Then its lines come one after the other among those of the text; for a
block that is a single line this is membership.
-/

namespace AllowedValues.Text

/-- The lines of a text. An empty text has none. -/
def lines (s : Text) : List Text := if s = [] then [] else s.splitOn '\n'

/-- What comes after this text begins a line. -/
def BeforeLine (s : Text) : Prop := s = [] ∨ s.getLast? = some '\n'

/-- What comes before this text ends a line. -/
def AfterLine (s : Text) : Prop := s = [] ∨ s.head? = some '\n'

/-- The block stands in the text between line boundaries. -/
def OccupiesLines (block s : Text) : Prop :=
  ∃ before after, s = before ++ (block ++ after) ∧ BeforeLine before ∧ AfterLine after

/-- A copy of the block may begin at a line inside of another copy. -/
def OverlapsAtLine (block : Text) : Prop :=
  ∃ front back, block = front ++ '\n' :: back ∧ back ≠ [] ∧ back <+: block

theorem BeforeLine.exists_eq {s : Text} (h : BeforeLine s) : s = [] ∨ ∃ t, s = t ++ ['\n'] := by
  rcases h with h | h
  · exact Or.inl h
  · exact Or.inr ⟨s.dropLast, (List.dropLast_append_getLast? _ h).symm⟩

theorem AfterLine.exists_eq {s : Text} (h : AfterLine s) : s = [] ∨ ∃ t, s = '\n' :: t := by
  rcases h with h | h
  · exact Or.inl h
  · exact Or.inr ⟨s.tail, (List.cons_head?_tail h).symm⟩

theorem beforeLine_append_newline (s : Text) : BeforeLine (s ++ ['\n']) := Or.inr (by simp)

theorem beforeLine_append_iff {s t : Text} (ht : t ≠ []) :
    BeforeLine (s ++ t) ↔ t.getLast? = some '\n' := by
  rw [BeforeLine, List.getLast?_append_of_ne_nil _ ht, List.append_eq_nil_iff]
  exact or_iff_right fun h => ht h.2

theorem BeforeLine.of_append {s t : Text} (h : BeforeLine (s ++ t)) : BeforeLine t := by
  by_cases ht : t = []
  · exact Or.inl ht
  · exact Or.inr ((beforeLine_append_iff ht).1 h)

theorem not_overlapsAtLine {s : Text} (h : '\n' ∉ s) : ¬ OverlapsAtLine s := by
  rintro ⟨front, back, rfl, -, -⟩
  simp at h

@[simp] theorem lines_nil : lines [] = [] := rfl

theorem lines_of_ne_nil {s : Text} (h : s ≠ []) : lines s = s.splitOn '\n' := if_neg h

theorem join_lines {s : Text} (h : s ≠ []) : join ['\n'] (lines s) = s := by
  rw [lines_of_ne_nil h, join, List.intercalate_splitOn]

theorem lines_of_newline_notMem {s : Text} (hs : s ≠ []) (h : '\n' ∉ s) : lines s = [s] := by
  rw [lines_of_ne_nil hs, List.splitOn_eq_singleton h]

theorem lines_append_line {s l : Text} (hs : s ≠ []) (hl : '\n' ∉ l) :
    lines (s ++ '\n' :: l) = lines s ++ [l] := by
  rw [lines_of_ne_nil (by simp), lines_of_ne_nil hs, List.splitOn_append_cons_self,
    List.splitOn_eq_singleton hl]

/-- Lines put after a text do not disturb the lines of it. -/
theorem OccupiesLines.before_line {block s : Text} (l : Text) (h : OccupiesLines block s) :
    OccupiesLines block (s ++ '\n' :: l) := by
  obtain ⟨before, after, rfl, hbefore, hafter⟩ := h
  refine ⟨before, after ++ '\n' :: l, by simp, hbefore, ?_⟩
  rcases hafter.exists_eq with rfl | ⟨u, rfl⟩
  · exact Or.inr rfl
  · exact Or.inr rfl

/-- A block occupies whole lines of a text if and only if its lines are lines of the text, one after
the other. -/
theorem occupiesLines_iff_splitOn {block s : Text} :
    OccupiesLines block s ↔ block.splitOn '\n' <:+: s.splitOn '\n' := by
  constructor
  · rintro ⟨before, after, rfl, hbefore, hafter⟩
    have hfirst : block.splitOn '\n' <+: (block ++ after).splitOn '\n' := by
      rcases hafter.exists_eq with rfl | ⟨u, rfl⟩
      · rw [List.append_nil]
      · rw [List.splitOn_append_cons_self]
        exact List.prefix_append _ _
    rcases hbefore.exists_eq with rfl | ⟨u, rfl⟩
    · exact hfirst.isInfix
    · rw [List.append_assoc, List.singleton_append, List.splitOn_append_cons_self]
      exact hfirst.isInfix.trans (List.suffix_append _ _).isInfix
  · rintro ⟨front, back, hlines⟩
    have hne : block.splitOn '\n' ≠ [] := List.splitOn_ne_nil _ _
    refine ⟨front.flatMap (· ++ ['\n']), back.flatMap (['\n'] ++ ·), ?_, ?_, ?_⟩
    · calc
        s = join ['\n'] (s.splitOn '\n') := (List.intercalate_splitOn '\n').symm
        _ = join ['\n'] (front ++ (block.splitOn '\n' ++ back)) := by
            rw [← hlines, List.append_assoc]
        _ = front.flatMap (· ++ ['\n']) ++ (join ['\n'] (block.splitOn '\n') ++
              back.flatMap (['\n'] ++ ·)) := by
            rw [join_append_right _ _ (List.append_ne_nil_of_left_ne_nil hne back),
              join_append _ hne]
        _ = _ := by rw [join, List.intercalate_splitOn]
    · obtain rfl | ⟨lines, line, rfl⟩ := front.eq_nil_or_concat'
      · exact Or.inl rfl
      · rw [List.flatMap_append, List.flatMap_singleton, ← List.append_assoc]
        exact beforeLine_append_newline _
    · cases back with
      | nil => exact Or.inl rfl
      | cons line lines => exact Or.inr rfl

theorem mem_lines_iff {s l : Text} (hne : l ≠ []) (hl : '\n' ∉ l) :
    l ∈ lines s ↔ OccupiesLines l s := by
  rw [occupiesLines_iff_splitOn, List.splitOn_eq_singleton hl, List.singleton_infix_iff]
  by_cases hs : s = []
  · simp [hs, hne]
  · rw [lines_of_ne_nil hs]

end AllowedValues.Text
