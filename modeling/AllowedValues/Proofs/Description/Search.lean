import AllowedValues.Description
import AllowedValues.Proofs.Text.Lines

/-!
The search for a block of lines in a text. Whatever the search finds occupies whole lines. It can
miss a block that overlaps itself at a line, since an occurrence that begins inside of a line hides
the lines it covers; any other block is found wherever it occupies whole lines.
-/

namespace AllowedValues.Description

open Text

theorem holdsBlock_append {block : Text} (hblock : block ≠ []) (fresh : Bool) (rest : Text) :
    holdsBlock block fresh (block ++ rest) =
      (fresh && (rest = [] || rest.head? = some '\n') ||
        holdsBlock block (block.getLast? = some '\n') rest) := by
  obtain ⟨c, s, rfl⟩ := List.exists_cons_of_ne_nil hblock
  have hbegin : (c :: s).isPrefixOf (c :: (s ++ rest)) = true := by
    rw [List.isPrefixOf_iff_prefix, ← List.cons_append]
    exact List.prefix_append _ _
  rw [List.cons_append, holdsBlock, if_pos hbegin]
  simp only [List.length_cons, Nat.add_sub_cancel, List.drop_left]

theorem holdsBlock_cons {block : Text} {c : Char} {s : Text} (h : ¬ block <+: c :: s)
    (fresh : Bool) : holdsBlock block fresh (c :: s) = holdsBlock block (c = '\n') s := by
  rw [holdsBlock, if_neg (by simpa using h)]

theorem holdsBlock_of_length_lt {block s : Text} (h : s.length < block.length) (fresh : Bool) :
    holdsBlock block fresh s = false := by
  induction s generalizing fresh with
  | nil => rw [holdsBlock]
  | cons c s ih =>
      have hbegin : ¬ block <+: c :: s := fun hp => by
        have := hp.length_le
        omega
      rw [holdsBlock_cons hbegin]
      exact ih (by simp only [List.length_cons] at h; omega) _

/-- A search that goes on behind each occurrence of a block that it meets passes over a text and
comes to `rest`. -/
inductive PassesOver (block : Text) : Text → Text → Prop
  | nil {rest : Text} : PassesOver block [] rest
  | char {c : Char} {before rest : Text} : ¬ block <+: c :: (before ++ rest) →
      PassesOver block before rest → PassesOver block (c :: before) rest
  | occurrence {before rest : Text} :
      PassesOver block before rest → PassesOver block (block ++ before) rest

section Search

variable {block before rest start s : Text} {c : Char}

theorem PassesOver.of_prefix (h : PassesOver block before rest)
    (hbegin : block <+: before ++ rest) :
    before = [] ∨ ∃ later, before = block ++ later ∧ PassesOver block later rest := by
  cases h with
  | nil => exact Or.inl rfl
  | char hmiss _ => exact absurd hbegin hmiss
  | occurrence h => exact Or.inr ⟨_, rfl, h⟩

theorem PassesOver.of_not_prefix (h : PassesOver block before rest)
    (hmiss : ¬ block <+: before ++ rest) :
    before = [] ∨ ∃ c later, before = c :: later ∧ PassesOver block later rest := by
  cases h with
  | nil => exact Or.inl rfl
  | char _ h => exact Or.inr ⟨_, _, rfl, h⟩
  | occurrence _ =>
      rw [List.append_assoc] at hmiss
      exact absurd (List.prefix_append _ _) hmiss

/-- A block that the search comes to and that stands between line boundaries, in the rest of a text
with `start` before it. -/
def MeetsBlock (block start s : Text) : Prop :=
  ∃ before after, s = before ++ (block ++ after) ∧ PassesOver block before (block ++ after) ∧
    BeforeLine (start ++ before) ∧ AfterLine after

theorem not_meetsBlock_nil (hblock : block ≠ []) : ¬ MeetsBlock block start [] := by
  rintro ⟨before, after, hs, -, -, -⟩
  simp [hblock] at hs

theorem meetsBlock_append : MeetsBlock block start (block ++ rest) ↔
    BeforeLine start ∧ AfterLine rest ∨ MeetsBlock block (start ++ block) rest := by
  constructor
  · rintro ⟨before, after, hs, hpasses, hbefore, hafter⟩
    rcases hpasses.of_prefix (hs ▸ List.prefix_append _ _) with rfl | ⟨later, rfl, hlater⟩
    · rw [List.append_nil] at hbefore
      rw [List.nil_append] at hs
      exact Or.inl ⟨hbefore, List.append_cancel_left hs ▸ hafter⟩
    · rw [List.append_assoc] at hs
      rw [← List.append_assoc] at hbefore
      exact Or.inr ⟨later, after, List.append_cancel_left hs, hlater, hbefore, hafter⟩
  · rintro (⟨hstart, hrest⟩ | ⟨before, after, rfl, hpasses, hbefore, hafter⟩)
    · exact ⟨[], rest, rfl, .nil, by rwa [List.append_nil], hrest⟩
    · refine ⟨block ++ before, after, (List.append_assoc _ _ _).symm, .occurrence hpasses, ?_,
        hafter⟩
      rwa [← List.append_assoc]

theorem meetsBlock_cons (hmiss : ¬ block <+: c :: s) :
    MeetsBlock block start (c :: s) ↔ MeetsBlock block (start ++ [c]) s := by
  constructor
  · rintro ⟨before, after, hs, hpasses, hbefore, hafter⟩
    rcases hpasses.of_not_prefix (hs ▸ hmiss) with rfl | ⟨d, later, rfl, hlater⟩
    · exact absurd (hs ▸ List.prefix_append _ _) hmiss
    · obtain ⟨rfl, rfl⟩ := List.cons.inj hs
      rw [List.append_cons] at hbefore
      exact ⟨later, after, rfl, hlater, hbefore, hafter⟩
  · rintro ⟨before, after, rfl, hpasses, hbefore, hafter⟩
    exact ⟨c :: before, after, rfl, .char hmiss hpasses, by rwa [List.append_cons], hafter⟩

end Search

/-- The search finds a block exactly if it meets one that stands between line boundaries. -/
theorem holdsBlock_iff {block start s : Text} {fresh : Bool} (hblock : block ≠ [])
    (hfresh : fresh = true ↔ BeforeLine start) :
    holdsBlock block fresh s = true ↔ MeetsBlock block start s := by
  match s with
  | [] => simp [holdsBlock, not_meetsBlock_nil hblock]
  | c :: s =>
      by_cases hbegin : block <+: c :: s
      · obtain ⟨rest, hrest⟩ := hbegin
        have hlength : rest.length < (c :: s).length := by
          rw [← hrest, List.length_append]
          have hpos := List.length_pos_of_ne_nil hblock
          omega
        have hnext : decide (block.getLast? = some '\n') = true ↔ BeforeLine (start ++ block) := by
          rw [decide_eq_true_eq, beforeLine_append_iff hblock]
        rw [← hrest, holdsBlock_append hblock, meetsBlock_append, ← hfresh,
          ← holdsBlock_iff hblock hnext, AfterLine]
        simp only [Bool.or_eq_true, Bool.and_eq_true, decide_eq_true_eq]
      · have hnext : decide (c = '\n') = true ↔ BeforeLine (start ++ [c]) := by
          rw [decide_eq_true_eq, beforeLine_append_iff (List.cons_ne_nil _ _),
            List.getLast?_singleton, Option.some_inj]
        rw [holdsBlock_cons hbegin, meetsBlock_cons hbegin]
        exact holdsBlock_iff hblock hnext
termination_by s.length
decreasing_by
  · exact hlength
  · exact Nat.lt_succ_self _

/-- Two occurrences of a block of which the second begins a line inside of the first. -/
theorem overlapsAtLine_of_occurrences {block front back rest after : Text} (hfront : front ≠ [])
    (hline : BeforeLine front) (hback : back ≠ []) (hblock : block = front ++ back)
    (h : block ++ after = back ++ rest) : OverlapsAtLine block := by
  obtain rfl | ⟨u, rfl⟩ := hline.exists_eq
  · exact absurd rfl hfront
  · refine ⟨u, back, by simpa using hblock, hback, ?_⟩
    have hlength : back.length ≤ block.length := by
      rw [hblock, List.length_append]
      omega
    exact List.prefix_of_prefix_length_le (h ▸ List.prefix_append back rest)
      (List.prefix_append block after) hlength

/-- A search for a block that does not overlap itself at a line comes to the beginning of every
line: an occurrence that covered it would be such an overlap. -/
theorem passesOver_of_beforeLine {block : Text} (hblock : block ≠ [])
    (hov : ¬ OverlapsAtLine block) (after before : Text) (h : BeforeLine before) :
    PassesOver block before (block ++ after) := by
  match before with
  | [] => exact .nil
  | c :: before =>
      by_cases hbegin : block <+: c :: before ++ (block ++ after)
      · obtain ⟨rest, hrest⟩ := hbegin
        -- The search goes on after this occurrence, which does not reach beyond the line.
        have hgap : ∃ gap, c :: before = block ++ gap := by
          rcases List.append_eq_append_iff.1 hrest with ⟨gap, hgap, -⟩ | ⟨back, hback, hover⟩
          · exact ⟨gap, hgap⟩
          · by_cases hnil : back = []
            · exact ⟨[], by simpa [hnil] using hback.symm⟩
            · exact absurd (overlapsAtLine_of_occurrences (List.cons_ne_nil c before) h hnil hback
                hover) hov
        obtain ⟨gap, hgap⟩ := hgap
        have hlength : gap.length < (c :: before).length := by
          rw [hgap, List.length_append]
          have hpos := List.length_pos_of_ne_nil hblock
          omega
        rw [hgap] at h ⊢
        exact .occurrence (passesOver_of_beforeLine hblock hov after gap h.of_append)
      · exact .char hbegin
          (passesOver_of_beforeLine hblock hov after before (@BeforeLine.of_append [c] before h))
termination_by before.length
decreasing_by
  · exact hlength
  · exact Nat.lt_succ_self _

theorem containsLine_iff_meetsBlock {d : Description} {block : Text} :
    d.containsLine block = true ↔ block ≠ [] ∧ MeetsBlock block [] d.text := by
  rw [containsLine, Bool.and_eq_true, decide_eq_true_eq]
  exact and_congr_right fun hblock => holdsBlock_iff hblock (by simp [BeforeLine])

/-- The check for a block that does not overlap itself at a line is exact. -/
theorem containsLine_iff {d : Description} {block : Text} (hov : ¬ OverlapsAtLine block) :
    d.containsLine block = true ↔ block ≠ [] ∧ OccupiesLines block d.text := by
  rw [containsLine_iff_meetsBlock]
  refine and_congr_right fun hblock => ⟨?_, ?_⟩
  · rintro ⟨before, after, htext, -, hbefore, hafter⟩
    exact ⟨before, after, htext, hbefore, hafter⟩
  · rintro ⟨before, after, htext, hbefore, hafter⟩
    exact ⟨before, after, htext, passesOver_of_beforeLine hblock hov after before hbefore, hbefore,
      hafter⟩

theorem containsLine_iff_mem_lines {d : Description} {line : Text} (hne : line ≠ [])
    (hline : '\n' ∉ line) : d.containsLine line = true ↔ line ∈ lines d.text := by
  rw [containsLine_iff (not_overlapsAtLine hline), mem_lines_iff hne hline]
  exact and_iff_right hne

end AllowedValues.Description
