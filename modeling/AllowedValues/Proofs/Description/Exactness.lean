import AllowedValues.Proofs.Description.Append

/-!
How exact the check for a block of lines is. What it finds does occupy whole lines. A block that
overlaps itself at a line can be hidden from it: the search goes on behind each occurrence, so one
that begins inside of a line covers the beginning of another. No other block is ever missed.
-/

namespace AllowedValues.Description

open Text

theorem not_prefix_cons {block rest : Text} {c : Char} (hc : c ≠ '\n') (h : '\n' ∈ block) :
    ¬ block <+: c :: (block ++ rest) := by
  rintro ⟨after, hafter⟩
  obtain ⟨front, back, rfl, hfront⟩ := List.eq_append_cons_of_mem h
  have hshift : (front ++ ['\n']) ++ (back ++ after) =
      (c :: front) ++ ('\n' :: back ++ rest) := by
    simpa using hafter
  have hfirst := List.append_inj_left hshift (by simp)
  have hmem : '\n' ∈ c :: front := by
    rw [← hfirst]
    simp
  rcases List.mem_cons.1 hmem with hmem | hmem
  · exact hc hmem.symm
  · exact hfront hmem

/-- A block that overlaps itself at a line can be hidden: appended to some text, it is not found. -/
theorem exists_hidden {block : Text} (h : OverlapsAtLine block) :
    ∃ d : Description, appendLine (appendLine d block) block ≠ appendLine d block := by
  obtain ⟨front, back, hblock, hback, rest, hrest⟩ := h
  have hlength : front.length + 1 < block.length := by
    have hpos := List.length_pos_of_ne_nil hback
    rw [hblock, List.length_append, List.length_cons]
    omega
  have hrestLength : rest.length < block.length := by
    have hsum := congrArg List.length hrest
    have hpos := List.length_pos_of_ne_nil hback
    rw [List.length_append] at hsum
    omega
  have hne : block ≠ [] := by
    rintro rfl
    simp at hlength
  have hmem : '\n' ∈ block := by
    rw [hblock]
    simp
  refine ⟨⟨some ('x' :: front)⟩, ?_⟩
  have hnew : containsLine ⟨some ('x' :: front)⟩ block = false := by
    rw [containsLine, text_some, holdsBlock_of_length_lt (by simpa using hlength), Bool.and_false]
  -- After the append the block occurs twice: as appended, and earlier, from the `front` before it.
  have hfirst : appendLine ⟨some ('x' :: front)⟩ block = ⟨some ('x' :: (block ++ rest))⟩ := by
    have htext : 'x' :: front ++ '\n' :: block = 'x' :: (block ++ rest) := by
      conv_lhs => rw [← hrest]
      rw [hblock]
      simp
    rw [appendLine_of_not_containsLine hne hnew, text_some, if_neg (by simp), htext]
  -- The search finds the earlier occurrence, which begins no line and leaves too little text.
  have hhidden : containsLine ⟨some ('x' :: (block ++ rest))⟩ block = false := by
    rw [containsLine, text_some, holdsBlock_cons (not_prefix_cons (by decide) hmem),
      holdsBlock_append hne, holdsBlock_of_length_lt hrestLength]
    simp
  rw [hfirst, appendLine_of_not_containsLine hne hhidden, text_some, if_neg (by simp)]
  intro heq
  have htext : 'x' :: (block ++ rest) ++ '\n' :: block = 'x' :: (block ++ rest) :=
    congrArg text heq
  simp at htext

theorem exists_missed {block : Text} (h : OverlapsAtLine block) :
    ∃ d : Description, block ≠ [] ∧ OccupiesLines block d.text ∧ d.containsLine block = false := by
  obtain ⟨d, hd⟩ := exists_hidden h
  have hne : block ≠ [] := by
    obtain ⟨front, back, rfl, -, -⟩ := h
    simp
  have hmissed : (appendLine d block).containsLine block = false := by
    rw [Bool.eq_false_iff]
    exact fun hfound => hd (appendLine_of_containsLine hfound)
  have hnew : d.containsLine block = false := by
    rw [Bool.eq_false_iff]
    intro hfound
    rw [appendLine_of_containsLine hfound, hfound] at hmissed
    cases hmissed
  exact ⟨appendLine d block, hne, occupiesLines_appendLine_self hne hnew, hmissed⟩

/-- The check finds a block where the search comes to it at a line and it ends one, and the search
goes on behind each occurrence that it meets. So it never errs for a block that does not overlap
itself at a line, and does for any other. To occupy whole lines is to have all lines among those of
the text, one after the other. -/
theorem containsLine_exact_iff (block : Text) :
    (∀ d : Description, d.containsLine block = true ↔ block ≠ [] ∧ ∃ before after,
      d.text = before ++ (block ++ after) ∧ PassesOver block before (block ++ after) ∧
        BeforeLine before ∧ AfterLine after) ∧
    ((∀ d : Description, d.containsLine block = true ↔
        block ≠ [] ∧ OccupiesLines block d.text) ↔ ¬ OverlapsAtLine block) ∧
    ∀ s : Text, OccupiesLines block s ↔ block.splitOn '\n' <:+: s.splitOn '\n' := by
  refine ⟨fun d => containsLine_iff_meetsBlock, ⟨fun hexact hoverlap => ?_, fun hov d => ?_⟩,
    fun s => occupiesLines_iff_splitOn⟩
  · obtain ⟨d, hne, hoccupies, hmissed⟩ := exists_missed hoverlap
    rw [(hexact d).2 ⟨hne, hoccupies⟩] at hmissed
    cases hmissed
  · exact containsLine_iff hov

/-- A block of two equal lines, behind a line that ends with the first of them. -/
theorem containsLine_exact_iff_hidden :
    let block : Text := ['a', '\n', 'a']
    let d : Description := ⟨some ['x', 'a', '\n', 'a', '\n', 'a']⟩
    block ≠ [] ∧ OccupiesLines block d.text ∧
      block.splitOn '\n' <:+: d.text.splitOn '\n' ∧ d.containsLine block = false ∧
      OverlapsAtLine block := by
  intro block d
  obtain ⟨-, hexact, hlines⟩ := containsLine_exact_iff block
  have hoccupies : OccupiesLines block d.text :=
    ⟨['x', 'a', '\n'], [], rfl, Or.inr rfl, Or.inl rfl⟩
  have hmissed : d.containsLine block = false := by decide +kernel
  refine ⟨by decide, hoccupies, (hlines d.text).1 hoccupies, hmissed, ?_⟩
  by_contra hov
  rw [(hexact.2 hov d).2 ⟨by decide, hoccupies⟩] at hmissed
  cases hmissed

end AllowedValues.Description
