import AllowedValues.Proofs.Description.Search

/-!
Appending lines to a description. The text only grows at its end, and what occupies whole lines of
it does so ever after. For single lines the outcome of any run of appends has a closed form: the
lines that are new, each at its first occurrence, come after the lines that were there.
-/

namespace AllowedValues.Description

open Text

theorem appendLine_of_containsLine {d : Description} {line : Text}
    (h : d.containsLine line = true) : appendLine d line = d := by
  simp [appendLine, lacksLine, h]

theorem appendLine_of_not_containsLine {d : Description} {line : Text} (hne : line ≠ [])
    (h : d.containsLine line = false) :
    appendLine d line = ⟨some (if d.text = [] then line else d.text ++ '\n' :: line)⟩ := by
  simp [appendLine, lacksLine, h, hne]

@[simp] theorem text_some (s : Text) : (Description.mk (some s)).text = s := rfl

/-- An append leaves the description as it is or puts the line at the end of its text. -/
theorem appendLine_cases (d : Description) (line : Text) :
    appendLine d line = d ∨
      d.text = [] ∧ appendLine d line = ⟨some line⟩ ∨
      d.text ≠ [] ∧ appendLine d line = ⟨some (d.text ++ '\n' :: line)⟩ := by
  rw [appendLine]
  split
  · by_cases hd : d.text = []
    · exact Or.inr (Or.inl ⟨hd, by simp [hd]⟩)
    · exact Or.inr (Or.inr ⟨hd, by simp [hd]⟩)
  · exact Or.inl rfl

theorem text_prefix_appendLine (d : Description) (line : Text) :
    d.text <+: (appendLine d line).text := by
  rcases appendLine_cases d line with h | ⟨hd, h⟩ | ⟨-, h⟩
  · rw [h]
  · simp [hd]
  · rw [h, text_some]
    exact List.prefix_append _ _

theorem text_prefix_foldl_appendLine (d : Description) (added : List Text) :
    d.text <+: (added.foldl appendLine d).text := by
  induction added generalizing d with
  | nil => exact List.prefix_rfl
  | cons line added ih => exact (text_prefix_appendLine d line).trans (ih _)

theorem occupiesLines_appendLine {d : Description} {block : Text} (hblock : block ≠ [])
    (h : OccupiesLines block d.text) (line : Text) :
    OccupiesLines block (appendLine d line).text := by
  rcases appendLine_cases d line with happ | ⟨hd, -⟩ | ⟨-, happ⟩
  · rwa [happ]
  · obtain ⟨before, after, htext, -, -⟩ := h
    simp [hd, hblock] at htext
  · rw [happ, text_some]
    exact h.before_line line

theorem occupiesLines_appendLine_self {d : Description} {line : Text} (hne : line ≠ [])
    (h : d.containsLine line = false) : OccupiesLines line (appendLine d line).text := by
  rw [appendLine_of_not_containsLine hne h, text_some]
  split
  · exact ⟨[], [], by simp, Or.inl rfl, Or.inl rfl⟩
  · exact ⟨d.text ++ ['\n'], [], by simp, beforeLine_append_newline _, Or.inl rfl⟩

/-- After a run of appends, every line of it that does not overlap itself is found. -/
theorem containsLine_foldl_appendLine {added : List Text} {line : Text} (hline : line ∈ added)
    (hne : line ≠ []) (hov : ¬ OverlapsAtLine line) (d : Description) :
    (added.foldl appendLine d).containsLine line = true := by
  suffices h : OccupiesLines line (added.foldl appendLine d).text from
    (containsLine_iff hov).2 ⟨hne, h⟩
  -- Once the line is there, later appends leave it.
  have hkeep (later : List Text) (e : Description) (he : OccupiesLines line e.text) :
      OccupiesLines line (later.foldl appendLine e).text := by
    induction later generalizing e with
    | nil => exact he
    | cons l later ih => exact ih _ (occupiesLines_appendLine hne he l)
  obtain ⟨earlier, later, rfl⟩ := List.append_of_mem hline
  rw [List.foldl_append, List.foldl_cons]
  apply hkeep
  cases hfound : (earlier.foldl appendLine d).containsLine line with
  | true =>
      rw [appendLine_of_containsLine hfound]
      exact ((containsLine_iff hov).1 hfound).2
  | false => exact occupiesLines_appendLine_self hne hfound

theorem foldl_appendLine_of_containsLine {added : List Text} {d : Description}
    (h : ∀ line ∈ added, d.containsLine line = true) : added.foldl appendLine d = d := by
  induction added with
  | nil => rfl
  | cons line added ih =>
      rw [List.foldl_cons, appendLine_of_containsLine (h line (by simp))]
      exact ih fun l hl => h l (by simp [hl])

/-- The lines among those to append that a text does not have, each at its first occurrence. -/
def newLines (s : Text) (added : List Text) : List Text :=
  (added.filter fun line => line ∉ lines s).eraseDups

theorem mem_newLines {s : Text} {added : List Text} {line : Text} :
    line ∈ newLines s added ↔ line ∈ added ∧ line ∉ lines s := by
  simp [newLines, List.mem_eraseDups]

theorem sublist_eraseDups (l : List Text) : l.eraseDups.Sublist l := by
  match l with
  | [] => simp
  | a :: l =>
      rw [List.eraseDups_cons]
      exact ((sublist_eraseDups _).trans List.filter_sublist).cons_cons a
termination_by l.length
decreasing_by exact Nat.lt_succ_of_le (List.length_filter_le _ _)

theorem nodup_eraseDups (l : List Text) : l.eraseDups.Nodup := by
  match l with
  | [] => simp
  | a :: l =>
      rw [List.eraseDups_cons, List.nodup_cons]
      refine ⟨?_, nodup_eraseDups _⟩
      simp [List.mem_eraseDups]
termination_by l.length
decreasing_by exact Nat.lt_succ_of_le (List.length_filter_le _ _)

theorem newLines_sublist (s : Text) (added : List Text) : (newLines s added).Sublist added :=
  (sublist_eraseDups _).trans List.filter_sublist

theorem nodup_newLines (s : Text) (added : List Text) : (newLines s added).Nodup :=
  nodup_eraseDups _

theorem newLines_cons_of_mem {s line : Text} (h : line ∈ lines s) (added : List Text) :
    newLines s (line :: added) = newLines s added := by
  simp [newLines, h]

theorem newLines_cons_of_notMem {s t line : Text} (h : line ∉ lines s)
    (ht : lines t = lines s ++ [line]) (added : List Text) :
    newLines s (line :: added) = line :: newLines t added := by
  rw [newLines, List.filter_cons_of_pos (by simpa using h), List.eraseDups_cons,
    List.filter_filter, newLines, ht]
  congr 2
  refine List.filter_congr fun l _ => ?_
  rw [Bool.eq_iff_iff]
  simp [and_comm]

/-- A single line, which is to be appended: neither empty nor with a newline in it. -/
def IsLine (line : Text) : Prop := line ≠ [] ∧ '\n' ∉ line

theorem appendLine_of_mem_lines {d : Description} {line : Text} (h : IsLine line)
    (hmem : line ∈ lines d.text) : appendLine d line = d :=
  appendLine_of_containsLine ((containsLine_iff_mem_lines h.1 h.2).2 hmem)

theorem lines_appendLine {d : Description} {line : Text} (h : IsLine line)
    (hmem : line ∉ lines d.text) : lines (appendLine d line).text = lines d.text ++ [line] := by
  have hfound : d.containsLine line = false := by
    rw [Bool.eq_false_iff, Ne, containsLine_iff_mem_lines h.1 h.2]
    exact hmem
  rw [appendLine_of_not_containsLine h.1 hfound, text_some]
  by_cases hd : d.text = []
  · rw [if_pos hd, hd, lines_nil, List.nil_append, lines_of_newline_notMem h.1 h.2]
  · rw [if_neg hd, lines_append_line hd h.2]

/-- The lines after a run of appends: those that were there, then the new ones. -/
theorem lines_foldl_appendLine {added : List Text} (h : ∀ line ∈ added, IsLine line)
    (d : Description) :
    lines (added.foldl appendLine d).text = lines d.text ++ newLines d.text added := by
  induction added generalizing d with
  | nil => simp [newLines]
  | cons line added ih =>
      have hline := h line (by simp)
      have hadded : ∀ l ∈ added, IsLine l := fun l hl => h l (by simp [hl])
      rw [List.foldl_cons]
      by_cases hmem : line ∈ lines d.text
      · rw [appendLine_of_mem_lines hline hmem, newLines_cons_of_mem hmem]
        exact ih hadded d
      · have hnext := lines_appendLine hline hmem
        rw [ih hadded, hnext, newLines_cons_of_notMem hmem hnext]
        simp

theorem content_of_text_ne_nil {d : Description} (h : d.text ≠ []) : d.content = some d.text := by
  obtain ⟨_ | s⟩ := d
  · simp [text] at h
  · rfl

/-- A run of appends with a line that is not there yet: the text is all lines, joined. -/
theorem content_foldl_appendLine {added : List Text} (h : ∀ line ∈ added, IsLine line)
    {d : Description} (hnew : newLines d.text added ≠ []) :
    (added.foldl appendLine d).content =
      some (join ['\n'] (lines d.text ++ newLines d.text added)) := by
  have hlines := lines_foldl_appendLine h d
  have htext : (added.foldl appendLine d).text ≠ [] := by
    intro hnil
    rw [hnil, lines_nil] at hlines
    exact hnew (List.append_eq_nil_iff.1 hlines.symm).2
  rw [content_of_text_ne_nil htext, ← hlines, join_lines htext]

end AllowedValues.Description
