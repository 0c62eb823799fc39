import AllowedValues.Proofs.Description.Exactness
import AllowedValues.Proofs.Enrichment.RoundTrip

/-!
Enriching a description again. The second time changes nothing if no suffix line overlaps itself at
a line. A line that does can be appended behind the end of a line that is its own beginning; it is
hidden there, and is appended once more.
-/

namespace AllowedValues.Description

open Text

/-- Fragments whose lines do not overlap themselves add nothing the second time, nor does any
selection of them. -/
theorem enrich_enrich_of_subset {settings : Settings} {fragments others : List Text}
    (h : ∀ line ∈ fragments.flatMap settings.suffixLines, ¬ OverlapsAtLine line)
    (hothers : others ⊆ fragments) (d : Description) :
    enrich settings others (enrich settings fragments d) = enrich settings fragments d := by
  apply foldl_appendLine_of_containsLine
  intro line hline
  obtain ⟨fragment, hfragment, hsuffix⟩ := List.mem_flatMap.1 hline
  have hadded : line ∈ fragments.flatMap settings.suffixLines :=
    List.mem_flatMap.2 ⟨fragment, hothers hfragment, hsuffix⟩
  obtain ⟨values, hvalues⟩ := Settings.exists_suffix?_of_mem_suffixLines hsuffix
  exact containsLine_foldl_appendLine hadded (Settings.ne_nil_of_suffix? hvalues) (h line hadded) d

theorem not_overlapsAtLine_of_label {settings : Settings} (hfault : settings.fault? = none)
    (hlabel : '\n' ∉ settings.label) (fragments : List Text) :
    ∀ line ∈ fragments.flatMap settings.suffixLines, ¬ OverlapsAtLine line := by
  intro line hline
  obtain ⟨fragment, -, hsuffix⟩ := List.mem_flatMap.1 hline
  obtain ⟨values, hvalues⟩ := Settings.exists_suffix?_of_mem_suffixLines hsuffix
  exact not_overlapsAtLine (Settings.newline_notMem_of_suffix? hfault hlabel hvalues)

theorem enrich_enrich {settings : Settings} {fragments : List Text}
    (h : ∀ line ∈ fragments.flatMap settings.suffixLines, ¬ OverlapsAtLine line)
    (d : Description) : enrich settings fragments (enrich settings fragments d) =
      enrich settings fragments d :=
  enrich_enrich_of_subset h (List.Subset.refl _) d

/-- With usable settings, enriching again changes no description exactly if no suffix line overlaps
itself at a line. It never does for fragments whose own lines do not, nor if the label breaks no
line. -/
theorem enrich_enrich_iff {settings : Settings} (hfault : settings.fault? = none) :
    ((∀ fragments d, enrich settings fragments (enrich settings fragments d) =
        enrich settings fragments d) ↔
      ∀ values line, settings.suffix? values = some line → ¬ OverlapsAtLine line) ∧
    (∀ fragments d, (∀ line ∈ fragments.flatMap settings.suffixLines, ¬ OverlapsAtLine line) →
      enrich settings fragments (enrich settings fragments d) =
        enrich settings fragments d) ∧
    ('\n' ∉ settings.label → ∀ fragments d,
      enrich settings fragments (enrich settings fragments d) =
        enrich settings fragments d) := by
  have hlines (h : ∀ values line, settings.suffix? values = some line → ¬ OverlapsAtLine line)
      (fragments : List Text) (d : Description) :
      enrich settings fragments (enrich settings fragments d) = enrich settings fragments d := by
    apply enrich_enrich
    intro line hline
    obtain ⟨fragment, -, hsuffix⟩ := List.mem_flatMap.1 hline
    obtain ⟨values, hvalues⟩ := Settings.exists_suffix?_of_mem_suffixLines hsuffix
    exact h values line hvalues
  refine ⟨⟨fun h values line hvalues hoverlap => ?_, hlines⟩, fun _ d h => enrich_enrich h d,
    fun hlabel => ?_⟩
  · obtain ⟨source, hsource⟩ := exists_spellsCall settings.package settings.function values
    have hsuffix : settings.suffixLines source = [line] := by
      rw [Settings.suffixLines, hsource.valueSets_eq hfault, List.filterMap_cons_some hvalues,
        List.filterMap_nil]
    obtain ⟨d, hd⟩ := exists_hidden hoverlap
    apply hd
    have htwice := h [source] d
    simpa [enrich, hsuffix] using htwice
  · apply hlines
    intro values line hvalues
    exact not_overlapsAtLine (Settings.newline_notMem_of_suffix? hfault hlabel hvalues)

/-- A label that ends a line after a rendered value: the suffix line of that value overlaps
itself. -/
theorem enrich_enrich_iff_label_of_two_lines :
    let settings : Settings :=
      { package := ['p'], function := ['f'], label := ['`', 'a', '`', '\n'] }
    let line : Text := ['`', 'a', '`', '\n', '`', 'a', '`']
    settings.fault? = none ∧ settings.suffix? [['a']] = some line ∧ OverlapsAtLine line ∧
      ¬ ∀ fragments d, enrich settings fragments (enrich settings fragments d) =
        enrich settings fragments d := by
  intro settings line
  have hfault : settings.fault? = none := by decide
  have hline : settings.suffix? [['a']] = some line := by decide
  have hoverlap : OverlapsAtLine line :=
    ⟨['`', 'a', '`'], ['`', 'a', '`'], rfl, by decide, by decide⟩
  refine ⟨hfault, hline, hoverlap, fun h => ?_⟩
  exact (enrich_enrich_iff hfault).1.1 h _ _ hline hoverlap

end AllowedValues.Description
