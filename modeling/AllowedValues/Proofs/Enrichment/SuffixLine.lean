import AllowedValues.Enrichment
import AllowedValues.Proofs.CodeSpan.Escape
import AllowedValues.Proofs.Text.Join

/-!
The shape of a suffix line. Rendered values hold no newline, so that a line breaks only where its
label does, and it ends with the delimiter.
-/

namespace AllowedValues

namespace CodeSpan

theorem newline_notMem_render {delimiter : Char} (h : delimiter ≠ '\n') (value : Text) :
    '\n' ∉ render delimiter value := by
  have hvalue := newline_notMem_escapeControls value
  simp only [render, wrap]
  split
  · simp [hvalue, h.symm]
  · simp [hvalue, h.symm]

theorem getLast?_render (delimiter : Char) (value : Text) :
    (render delimiter value).getLast? = some delimiter := by
  have hfence (n : Nat) : (List.replicate (n + 1) delimiter).getLast? = some delimiter := by
    simp [List.getLast?_replicate]
  simp only [render, wrap]
  split
  · rw [List.getLast?_append, hfence, Option.some_or]
  · rw [List.getLast?_append, List.getLast?_cons, hfence, Option.getD_some, Option.some_or]

end CodeSpan

namespace Settings

variable {settings : Settings} {values : List Text} {line : Text}

theorem suffix?_eq_some_iff : settings.suffix? values = some line ↔
    values ≠ [] ∧ line = settings.label ++
      Text.join ", ".toList (values.map (CodeSpan.render settings.delimiter)) := by
  cases values with
  | nil => simp [suffix?]
  | cons value values => simp [suffix?, eq_comm]

theorem fault?_eq_none_iff : settings.fault? = none ↔
    settings.package.isIdentifier = true ∧ settings.function.isIdentifier = true ∧
      Unicode.isWhiteSpace settings.delimiter = false ∧
        Unicode.isControl settings.delimiter = false := by
  rw [fault?]
  split_ifs with hpackage hfunction hdelimiter
  · simp_all
  · simp_all
  · simp only [Bool.or_eq_true] at hdelimiter
    rcases hdelimiter with h | h <;> simp [h]
  · simp_all

theorem delimiter_ne_newline (h : settings.fault? = none) : settings.delimiter ≠ '\n' := by
  intro hd
  have hspace := (fault?_eq_none_iff.1 h).2.2.1
  rw [hd] at hspace
  exact absurd hspace (by decide)

theorem getLast?_of_suffix? (h : settings.suffix? values = some line) :
    line.getLast? = some settings.delimiter := by
  obtain ⟨hne, rfl⟩ := suffix?_eq_some_iff.1 h
  have hlast : (Text.join ", ".toList
      (values.map (CodeSpan.render settings.delimiter))).getLast? = some settings.delimiter :=
    Text.getLast?_join (by simpa using hne) fun part hpart => by
      obtain ⟨value, -, rfl⟩ := List.mem_map.1 hpart
      exact CodeSpan.getLast?_render _ value
  rw [List.getLast?_append, hlast, Option.some_or]

theorem ne_nil_of_suffix? (h : settings.suffix? values = some line) : line ≠ [] := by
  rintro rfl
  simpa using getLast?_of_suffix? h

/-- A suffix line breaks only where its label does. -/
theorem newline_notMem_of_suffix? (hfault : settings.fault? = none) (hlabel : '\n' ∉ settings.label)
    (h : settings.suffix? values = some line) : '\n' ∉ line := by
  obtain ⟨-, rfl⟩ := suffix?_eq_some_iff.1 h
  rw [List.mem_append, not_or]
  refine ⟨hlabel, fun hmem => ?_⟩
  rcases Text.mem_join hmem with hsep | ⟨part, hpart, hmem⟩
  · exact absurd hsep (by decide)
  · obtain ⟨value, -, rfl⟩ := List.mem_map.1 hpart
    exact CodeSpan.newline_notMem_render (delimiter_ne_newline hfault) value hmem

theorem exists_suffix?_of_mem_suffixLines {fragment : Text}
    (h : line ∈ settings.suffixLines fragment) : ∃ values, settings.suffix? values = some line := by
  obtain ⟨values, -, hline⟩ := List.mem_filterMap.1 h
  exact ⟨values, hline⟩

end Settings

end AllowedValues
