import AllowedValues.Proofs.Command.Feedback
import AllowedValues.Proofs.Text.Lines

/-!
Reading a listing of values back. The lines of the listing are cut into blocks at the empty lines,
and a block is read as a set. Values are printed as they are decoded, so the blocks are the sets
that are listed if and only if every set has a value and every value is a line that is not empty. A
set without values is printed as an empty line and read as two empty blocks.
-/

namespace AllowedValues

theorem notMem_of_mem_splitOn {α : Type} [BEq α] [LawfulBEq α] {separator : α} {xs part : List α}
    (h : part ∈ xs.splitOn separator) : separator ∉ part := by
  induction xs generalizing part with
  | nil =>
      rw [List.splitOn_nil, List.mem_singleton] at h
      simp [h]
  | cons x xs ih =>
      obtain ⟨first, parts, hparts⟩ :=
        List.exists_cons_of_ne_nil (List.splitOn_ne_nil separator xs)
      rw [List.splitOn_cons_eq_if_modifyHead] at h
      split at h
      · rcases List.mem_cons.1 h with rfl | h
        · simp
        · exact ih h
      · next hx =>
          rw [hparts, List.modifyHead_cons] at h
          rw [hparts] at ih
          rcases List.mem_cons.1 h with rfl | h
          · have hne : separator ≠ x := fun heq => hx (by simp [heq])
            simp [hne, ih (List.mem_cons_self ..)]
          · exact ih (List.mem_cons_of_mem _ h)

theorem flatMap_eq_self_iff {α : Type} {f : α → List α} (hf : ∀ x, f x ≠ []) {xs : List α} :
    xs.flatMap f = xs ↔ ∀ x ∈ xs, f x = [x] := by
  have hlength (xs : List α) : xs.length ≤ (xs.flatMap f).length := by
    induction xs with
    | nil => simp
    | cons x xs ih =>
        have hx := List.length_pos_of_ne_nil (hf x)
        rw [List.flatMap_cons, List.length_append, List.length_cons]
        omega
  induction xs with
  | nil => simp
  | cons x xs ih =>
      rw [List.flatMap_cons, List.forall_mem_cons]
      constructor
      · intro h
        obtain ⟨y, ys, hys⟩ := List.exists_cons_of_ne_nil (hf x)
        rw [hys, List.cons_append, List.cons.injEq] at h
        obtain ⟨rfl, h⟩ := h
        have hsum := congrArg List.length h
        rw [List.length_append] at hsum
        obtain rfl : ys = [] := List.eq_nil_of_length_eq_zero (by have := hlength xs; omega)
        exact ⟨hys, ih.1 h⟩
      · rintro ⟨hx, hxs⟩
        rw [hx, ih.2 hxs, List.singleton_append]

namespace Text

/-- The blocks of lines between the empty lines of a text. -/
def blocks (s : Text) : List (List Text) := (s.splitOn '\n').splitOn []

theorem blocks_ne_nil (s : Text) : blocks s ≠ [] := List.splitOn_ne_nil _ _

@[simp] theorem blocks_nil : blocks [] = [[], []] := rfl

/-- An empty line between two texts is between their blocks. -/
theorem blocks_append_blank (s t : Text) :
    blocks (s ++ ("\n\n".toList ++ t)) = blocks s ++ blocks t := by
  have hlines : (s ++ '\n' :: '\n' :: t).splitOn '\n' =
      s.splitOn '\n' ++ [] :: t.splitOn '\n' := by
    rw [List.splitOn_append_cons_self, ← List.nil_append ('\n' :: t),
      List.splitOn_append_cons_self, List.splitOn_nil, List.singleton_append]
  calc
    blocks (s ++ ("\n\n".toList ++ t)) = ((s ++ '\n' :: '\n' :: t).splitOn '\n').splitOn [] := rfl
    _ = blocks s ++ blocks t := by
        rw [hlines, List.splitOn_append_cons_self, blocks, blocks]

theorem blocks_join {parts : List Text} (h : parts ≠ []) :
    blocks (join "\n\n".toList parts) = parts.flatMap blocks := by
  induction parts with
  | nil => exact absurd rfl h
  | cons part parts ih =>
      cases parts with
      | nil => simp [join]
      | cons next parts =>
          rw [join_cons_cons, blocks_append_blank, ih (List.cons_ne_nil _ _), ← List.flatMap_cons]

/-- Values on lines of their own are one block if and only if there are values, and each of them is
a line that is not empty. -/
theorem blocks_join_eq_iff {values : List Text} :
    blocks (join ['\n'] values) = [values] ↔
      values ≠ [] ∧ ∀ value ∈ values, value ≠ [] ∧ '\n' ∉ value := by
  constructor
  · intro h
    have hne : values ≠ [] := by
      rintro rfl
      simp [join] at h
    have hlines : (join ['\n'] values).splitOn '\n' = values := by
      have hback : [[]].intercalate (blocks (join ['\n'] values)) =
          (join ['\n'] values).splitOn '\n' := List.intercalate_splitOn []
      rw [h] at hback
      simpa [List.intercalate] using hback.symm
    have hblank : [] ∉ values := notMem_of_mem_splitOn (h ▸ List.mem_singleton_self values)
    refine ⟨hne, fun value hvalue => ⟨fun hnil => hblank (hnil ▸ hvalue), ?_⟩⟩
    rw [← hlines] at hvalue
    exact notMem_of_mem_splitOn hvalue
  · rintro ⟨hne, hvalues⟩
    have hlines : (join ['\n'] values).splitOn '\n' = values :=
      List.splitOn_intercalate '\n' (fun value hvalue => (hvalues value hvalue).2) hne
    rw [blocks, hlines, List.splitOn_eq_singleton]
    exact fun hblank => (hvalues [] hblank).1 rfl

end Text

namespace Command

/-- The blocks in which a set is printed that has no value but lines which are not empty. -/
def printedBlocks : List Text → List (List Text)
  | [] => [[], []]
  | value :: values => [value :: values]

theorem printSets_of_ne_nil {sets : List (List Text)} (h : sets ≠ []) :
    printSets sets = line (Text.join "\n\n".toList (sets.map (Text.join ['\n']))) := by
  cases sets with
  | nil => exact absurd rfl h
  | cons set sets => rfl

theorem blocks_join_map_join {sets : List (List Text)} (h : sets ≠ []) :
    Text.blocks (Text.join "\n\n".toList (sets.map (Text.join ['\n']))) =
      sets.flatMap fun set => Text.blocks (Text.join ['\n'] set) := by
  rw [Text.blocks_join (by simpa using h), List.flatMap_map]

section Runs

variable {contents : Text → Files.Contents} {arguments : List Text} {settingsPath? : Option Text}
  {fragment : Text} {settings : Settings}

theorem outcome_values
    (harguments : Invocation.ofArguments arguments = .ok ⟨settingsPath?, .values fragment⟩)
    (hsettings : loadSettings contents settingsPath? = .ok settings) :
    outcome contents arguments = .printed (printSets (settings.valueSets fragment)) := by
  rw [outcome_eq_run harguments hsettings, Task.run]

/-- A listing of the values of a fragment with a recognised call. Cut into blocks at its empty lines
it is the listed sets if and only if every set has a value and every value is a line that is not
empty. Where only the values are so, a set without values reads as two empty blocks. -/
theorem outcome_values_blocks
    (harguments : Invocation.ofArguments arguments = .ok ⟨settingsPath?, .values fragment⟩)
    (hsettings : loadSettings contents settingsPath? = .ok settings)
    (hcalls : Source.calls settings.package settings.function fragment ≠ []) :
    ∃ listing, outcome contents arguments = .printed (line listing) ∧
      (Text.blocks listing = settings.valueSets fragment ↔
        ∀ set ∈ settings.valueSets fragment, set ≠ [] ∧
          ∀ value ∈ set, value ≠ [] ∧ '\n' ∉ value) ∧
      ((∀ set ∈ settings.valueSets fragment, ∀ value ∈ set, value ≠ [] ∧ '\n' ∉ value) →
        Text.blocks listing = (settings.valueSets fragment).flatMap printedBlocks) := by
  have hsets : settings.valueSets fragment ≠ [] := by
    rw [Settings.valueSets]
    simpa using hcalls
  refine ⟨_, (outcome_values harguments hsettings).trans
    (congrArg Outcome.printed (printSets_of_ne_nil hsets)), ?_, ?_⟩
  · rw [blocks_join_map_join hsets, flatMap_eq_self_iff fun _ => Text.blocks_ne_nil _]
    exact forall₂_congr fun set _ => Text.blocks_join_eq_iff
  · intro hvalues
    rw [blocks_join_map_join hsets]
    refine List.flatMap_congr fun set hset => ?_
    cases set with
    | nil => rfl
    | cons value values =>
        exact Text.blocks_join_eq_iff.2 ⟨List.cons_ne_nil _ _, hvalues _ hset⟩

/-- A call with two others in it, whose values are read back from the listing. -/
theorem outcome_values_blocks_nested :
    let fragment : Text := "v.All(stringvalidator.OneOf(\"a,b\", \"c\"),
      stringvalidator.OneOf(\"d\"))".toList
    let arguments : List Text := ["values".toList, fragment]
    Invocation.ofArguments arguments = .ok ⟨none, .values fragment⟩ ∧
      Source.calls "stringvalidator".toList "OneOf".toList fragment ≠ [] ∧
      ∃ listing, outcome (fun _ => .error .notFound) arguments = .printed (line listing) ∧
        Text.blocks listing = [["a,b".toList, ['c']], [['d']]] := by
  intro fragment arguments
  have harguments : Invocation.ofArguments arguments = .ok ⟨none, .values fragment⟩ := by rfl
  have hcalls : Source.calls "stringvalidator".toList "OneOf".toList fragment ≠ [] := by
    decide +kernel
  have hsets : Settings.valueSets {} fragment = [["a,b".toList, ['c']], [['d']]] := by
    decide +kernel
  obtain ⟨listing, hprinted, hread, -⟩ :=
    @outcome_values_blocks (fun _ => .error .notFound) _ _ _ {} harguments rfl hcalls
  rw [hsets] at hread
  exact ⟨harguments, hcalls, listing, hprinted, hread.2 (by decide)⟩

/-- A set without values, an empty value and a newline in a value are not read back: in each of the
listings the blocks are other sets than the ones listed. -/
theorem blocks_ne_valueSets :
    let listed (fragment : Text) : Outcome :=
      outcome (fun _ => .error .notFound) ["values".toList, fragment]
    let emptySet : Text := "stringvalidator.OneOf(), stringvalidator.OneOf(\"a\")".toList
    let emptyValue : Text := "stringvalidator.OneOf(\"a\", \"\", \"b\")".toList
    let newline : Text := "stringvalidator.OneOf(\"a\\nb\")".toList
    (Settings.valueSets {} emptySet = [[], [['a']]] ∧
      listed emptySet = .printed (line "\n\na".toList) ∧
      Text.blocks "\n\na".toList = [[], [], [['a']]]) ∧
    (Settings.valueSets {} emptyValue = [[['a'], [], ['b']]] ∧
      listed emptyValue = .printed (line "a\n\nb".toList) ∧
      Text.blocks "a\n\nb".toList = [[['a']], [['b']]]) ∧
    (Settings.valueSets {} newline = [["a\nb".toList]] ∧
      listed newline = .printed (line "a\nb".toList) ∧
      Text.blocks "a\nb".toList = [[['a'], ['b']]]) := by
  intro listed emptySet emptyValue newline
  have hlisted (fragment : Text) (hvalues : Invocation.ofArguments ["values".toList, fragment] =
      .ok ⟨none, .values fragment⟩) :
      listed fragment = .printed (printSets (Settings.valueSets {} fragment)) :=
    outcome_values hvalues rfl
  have hsets : Settings.valueSets {} emptySet = [[], [['a']]] := by decide +kernel
  have hvalues : Settings.valueSets {} emptyValue = [[['a'], [], ['b']]] := by decide +kernel
  have hvalue : Settings.valueSets {} newline = [["a\nb".toList]] := by decide +kernel
  refine ⟨⟨hsets, ?_, by decide⟩, ⟨hvalues, ?_, by decide⟩, ⟨hvalue, ?_, by decide⟩⟩
  · rw [hlisted emptySet rfl, hsets]
    rfl
  · rw [hlisted emptyValue rfl, hvalues]
    rfl
  · rw [hlisted newline rfl, hvalue]
    rfl

end Runs

end Command

end AllowedValues
