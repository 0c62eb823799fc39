import AllowedValues.Proofs.Description.Append
import AllowedValues.Proofs.Enrichment.SuffixLine

/-!
Sequences of enrichments, each with settings of its own. If no label breaks a line, the description
after any such sequence has a closed form: it is the old one where every suffix line is there
already, and otherwise the old lines with the new ones after them.
-/

namespace AllowedValues.Description

open Text

/-- The suffix lines of a sequence of enrichments, in the order of settings and fragments. -/
def addedLines (runs : List (Settings × List Text)) : List Text :=
  runs.flatMap fun run => run.2.flatMap run.1.suffixLines

/-- Carries out a sequence of enrichments. -/
def enrichAll (runs : List (Settings × List Text)) (d : Description) : Description :=
  runs.foldl (fun d run => d.enrich run.1 run.2) d

theorem enrichAll_eq_foldl (runs : List (Settings × List Text)) (d : Description) :
    enrichAll runs d = (addedLines runs).foldl appendLine d := by
  induction runs generalizing d with
  | nil => rfl
  | cons run runs ih =>
      have hrest := ih (d.enrich run.1 run.2)
      rw [enrichAll] at hrest
      rw [enrichAll, List.foldl_cons, hrest, enrich, addedLines, addedLines, List.flatMap_cons,
        List.foldl_append]

theorem isLine_of_mem_addedLines {runs : List (Settings × List Text)}
    (h : ∀ run ∈ runs, run.1.fault? = none ∧ '\n' ∉ run.1.label) {line : Text}
    (hline : line ∈ addedLines runs) : IsLine line := by
  obtain ⟨run, hrun, hline⟩ := List.mem_flatMap.1 hline
  obtain ⟨fragment, -, hline⟩ := List.mem_flatMap.1 hline
  obtain ⟨values, hvalues⟩ := Settings.exists_suffix?_of_mem_suffixLines hline
  obtain ⟨hfault, hlabel⟩ := h run hrun
  exact ⟨Settings.ne_nil_of_suffix? hvalues,
    Settings.newline_notMem_of_suffix? hfault hlabel hvalues⟩

/-- The description after any sequence of enrichments whose labels break no line. It is the old one
if every suffix line is there already. Otherwise its lines are the old ones, then those suffix
lines that are not among them, each at its first occurrence. -/
theorem enrichAll_closed_form (runs : List (Settings × List Text)) (d : Description)
    (h : ∀ run ∈ runs, run.1.fault? = none ∧ '\n' ∉ run.1.label) :
    ((∀ line ∈ addedLines runs, line ∈ lines d.text) → enrichAll runs d = d) ∧
      ((∃ line ∈ addedLines runs, line ∉ lines d.text) →
        (enrichAll runs d).content =
          some (join ['\n'] (lines d.text ++ newLines d.text (addedLines runs)))) ∧
      lines (enrichAll runs d).text = lines d.text ++ newLines d.text (addedLines runs) ∧
      (∀ line, line ∈ newLines d.text (addedLines runs) ↔
        line ∈ addedLines runs ∧ line ∉ lines d.text) ∧
      (newLines d.text (addedLines runs)).Nodup ∧
      (newLines d.text (addedLines runs)).Sublist (addedLines runs) ∧
      d.text <+: (enrichAll runs d).text := by
  have hadded : ∀ line ∈ addedLines runs, IsLine line := fun _ => isLine_of_mem_addedLines h
  rw [enrichAll_eq_foldl]
  refine ⟨fun hold => ?_, fun ⟨line, hline, hnew⟩ => ?_, lines_foldl_appendLine hadded d,
    fun _ => mem_newLines, nodup_newLines _ _, newLines_sublist _ _,
    text_prefix_foldl_appendLine d _⟩
  · apply foldl_appendLine_of_containsLine
    intro line hline
    obtain ⟨hne, hbreak⟩ := hadded line hline
    exact (containsLine_iff_mem_lines hne hbreak).2 (hold line hline)
  · apply content_foldl_appendLine hadded
    exact List.ne_nil_of_mem (mem_newLines.2 ⟨hline, hnew⟩)

/-- Two settings, one with an empty label, on a text whose only line begins with the first suffix
line and holds the second. -/
theorem enrichAll_closed_form_two_labels :
    let runs : List (Settings × List Text) :=
      [({ package := ['p'], function := ['f'], label := ['v', ' '] },
          [['p', '.', 'f', '(', '"', 'a', '"', ')']]),
        ({ package := ['p'], function := ['g'], label := [] },
          [['p', '.', 'g', '(', '`', 'a', '`', ')']])]
    let d : Description := ⟨some "v `a`, `b`".toList⟩
    (∀ run ∈ runs, run.1.fault? = none ∧ '\n' ∉ run.1.label) ∧
      lines (enrichAll runs d).text =
        ["v `a`, `b`".toList, "v `a`".toList, "`a`".toList] := by
  intro runs d
  have hruns : ∀ run ∈ runs, run.1.fault? = none ∧ '\n' ∉ run.1.label := by decide
  have hadded : addedLines runs = ["v `a`".toList, "`a`".toList] := by decide +kernel
  refine ⟨hruns, ?_⟩
  rw [(enrichAll_closed_form runs d hruns).2.2.1, hadded]
  decide +kernel

end AllowedValues.Description
