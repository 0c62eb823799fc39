import AllowedValues.Proofs.Argument.Reading

/-!
The lexemes of a text cover all of it but blanks and complete comments, however malformed it is.
Reading goes on behind what a text begins with, so the lexemes come one after the other, and what is
of no class is among them.
-/

namespace AllowedValues.Argument

open Lexeme (lexFrom reach)

/-- The lexemes of a text that begins at byte `start`, read one after the other. -/
inductive InTurn : Nat → Text → List Lexeme → Prop
  | nil {start : Nat} : InTurn start [] []
  | skipped {start : Nat} {text rest : Text} {ls : List Lexeme} : Skipped text rest →
      InTurn (start + text.byteSize) rest ls → InTurn start (text ++ rest) ls
  | classified {start : Nat} {cls : Lexeme.Class} {text rest : Text} {ls : List Lexeme} :
      Classified cls text rest → InTurn (start + text.byteSize) rest ls →
      InTurn start (text ++ rest) (⟨cls, start, text⟩ :: ls)
  | unclassified {start : Nat} {text rest : Text} {ls : List Lexeme} : Unclassified text rest →
      InTurn (start + text.byteSize) rest ls →
      InTurn start (text ++ rest) (⟨.unknown, start, text⟩ :: ls)

theorem inTurn_lexFrom (start : Nat) (s : Text) : InTurn start s (lexFrom start s) := by
  match s with
  | [] =>
      rw [lexFrom_nil]
      exact .nil
  | c :: s =>
      obtain ⟨⟨cls?, n⟩, hreach⟩ : ∃ reached, reach c s = reached := ⟨_, rfl⟩
      have hread := reads_of_reach hreach
      have hrest := inTurn_lexFrom (start + Text.byteSize (c :: s.take n)) (s.drop n)
      have hsplit : c :: s = c :: s.take n ++ s.drop n := by
        rw [List.cons_append, List.take_append_drop]
      cases hread with
      | skipped h =>
          rw [lexFrom_cons_of_none hreach, hsplit]
          exact .skipped h hrest
      | classified h =>
          rw [lexFrom_cons_of_some hreach, hsplit]
          exact .classified h hrest
      | unclassified h =>
          rw [lexFrom_cons_of_some hreach, hsplit]
          exact .unclassified h hrest
termination_by s.length
decreasing_by simp only [List.length_cons, List.length_drop]; omega

theorem lexFrom_of_skipped {text rest : Text} (h : Skipped text rest) (start : Nat) :
    lexFrom start (text ++ rest) = lexFrom (start + text.byteSize) rest := by
  obtain ⟨c, s, rfl, hreach⟩ := h.exists_reach
  rw [List.cons_append, lexFrom_cons_of_none hreach, List.take_left, List.drop_left]

theorem lexFrom_of_reads {cls : Lexeme.Class} {text rest : Text} (h : Reads (some cls) text rest)
    (start : Nat) :
    lexFrom start (text ++ rest) =
      ⟨cls, start, text⟩ :: lexFrom (start + text.byteSize) rest := by
  obtain ⟨c, s, rfl, hreach⟩ := h.exists_reach
  rw [List.cons_append, lexFrom_cons_of_some hreach, List.take_left, List.drop_left]

/-- There is one way to read a text, and the lexemes are what it gives. -/
theorem inTurn_iff {start : Nat} {s : Text} {ls : List Lexeme} :
    InTurn start s ls ↔ ls = lexFrom start s := by
  constructor
  · intro h
    induction h with
    | nil => rw [lexFrom_nil]
    | skipped h _ ih => rw [lexFrom_of_skipped h, ih]
    | classified h _ ih => rw [lexFrom_of_reads (.classified h), ih]
    | unclassified h _ ih => rw [lexFrom_of_reads (.unclassified h), ih]
  · rintro rfl
    exact inTurn_lexFrom start s

/-- The place `i` of a text is in a lexeme. -/
def Lexeme.Covers (l : Lexeme) (i : Nat) : Prop := l.start ≤ i ∧ i < l.stop

/-- The place `i` of a text that begins at byte `start` is in a blank or a comment that is passed
over and shares no place with a lexeme. -/
def PassedOver (start : Nat) (source : Text) (ls : List Lexeme) (i : Nat) : Prop :=
  ∃ before text after, source = before ++ (text ++ after) ∧ Skipped text after ∧
    start + before.byteSize ≤ i ∧ i < start + before.byteSize + text.byteSize ∧
    ∀ l ∈ ls, l.stop ≤ start + before.byteSize ∨
      start + before.byteSize + text.byteSize ≤ l.start

/-- Lexemes are parts of a text that begins at byte `start`, one after the other, and there is
nothing outside them but blanks and comments. -/
structure Covers (start : Nat) (source : Text) (ls : List Lexeme) : Prop where
  filled : ∀ l ∈ ls, l.start < l.stop
  apart : ls.Pairwise fun l m => l.start < m.start ∧ l.stop ≤ m.start
  placed : ∀ l ∈ ls, ∃ before after, source = before ++ (l.text ++ after) ∧
    l.start = start + before.byteSize ∧ Reads (some l.cls) l.text after
  outside : ∀ i, start ≤ i → i < start + source.byteSize →
    ((∀ l ∈ ls, ¬ l.Covers i) ↔ PassedOver start source ls i)

theorem PassedOver.not_covers {start i : Nat} {source : Text} {ls : List Lexeme}
    (h : PassedOver start source ls i) : ∀ l ∈ ls, ¬ l.Covers i := by
  obtain ⟨before, text, after, -, -, hstart, hstop, hapart⟩ := h
  intro l hl hcovers
  rw [Lexeme.Covers] at hcovers
  have hplace := hapart l hl
  omega

theorem PassedOver.append {start i : Nat} {text rest : Text} {front ls : List Lexeme}
    (h : PassedOver (start + text.byteSize) rest ls i)
    (hfront : ∀ l ∈ front, l.stop ≤ start + text.byteSize) :
    PassedOver start (text ++ rest) (front ++ ls) i := by
  obtain ⟨before, skipped, after, rfl, hskipped, hstart, hstop, hapart⟩ := h
  refine ⟨text ++ before, skipped, after, by simp, hskipped, ?_⟩
  rw [Text.byteSize_append]
  refine ⟨by omega, by omega, fun l hl => ?_⟩
  rcases List.mem_append.1 hl with hl | hl
  · have hplace := hfront l hl
    omega
  · have hplace := hapart l hl
    omega

theorem Covers.nil (start : Nat) : Covers start [] [] where
  filled := by simp
  apart := .nil
  placed := by simp
  outside := by
    intro i hstart hstop
    rw [Text.byteSize] at hstop
    omega

theorem Covers.start_le {start : Nat} {source : Text} {ls : List Lexeme}
    (h : Covers start source ls) : ∀ l ∈ ls, start ≤ l.start := by
  intro l hl
  obtain ⟨before, after, -, hstart, -⟩ := h.placed l hl
  omega

theorem Covers.placed_append {start : Nat} {text rest : Text} {ls : List Lexeme}
    (h : Covers (start + text.byteSize) rest ls) : ∀ l ∈ ls, ∃ before after,
      text ++ rest = before ++ (l.text ++ after) ∧ l.start = start + before.byteSize ∧
        Reads (some l.cls) l.text after := by
  intro l hl
  obtain ⟨before, after, rfl, hstart, hread⟩ := h.placed l hl
  refine ⟨text ++ before, after, by simp, ?_, hread⟩
  rw [hstart, Text.byteSize_append, Nat.add_assoc]

theorem Covers.skip {start : Nat} {text rest : Text} {ls : List Lexeme}
    (h : Covers (start + text.byteSize) rest ls) (hskipped : Skipped text rest) :
    Covers start (text ++ rest) ls where
  filled := h.filled
  apart := h.apart
  placed := h.placed_append
  outside := by
    intro i hstart hstop
    rw [Text.byteSize_append] at hstop
    refine ⟨fun hnone => ?_, PassedOver.not_covers⟩
    by_cases hi : i < start + text.byteSize
    · exact ⟨[], text, rest, rfl, hskipped, hstart, hi, fun l hl => .inr (h.start_le l hl)⟩
    · have hlater := (h.outside i (by omega) (by omega)).1 hnone
      exact @PassedOver.append start i text rest [] ls hlater (by simp)

theorem Covers.cons {start : Nat} {cls : Lexeme.Class} {text rest : Text} {ls : List Lexeme}
    (h : Covers (start + text.byteSize) rest ls) (hread : Reads (some cls) text rest) :
    Covers start (text ++ rest) (⟨cls, start, text⟩ :: ls) := by
  have hsize := hread.byteSize_pos
  refine ⟨?_, ?_, ?_, ?_⟩
  · rw [List.forall_mem_cons]
    exact ⟨Nat.lt_add_of_pos_right hsize, h.filled⟩
  · refine List.pairwise_cons.2 ⟨fun l hl => ?_, h.apart⟩
    have hplace := h.start_le l hl
    exact ⟨Nat.lt_of_lt_of_le (Nat.lt_add_of_pos_right hsize) hplace, hplace⟩
  · rw [List.forall_mem_cons]
    exact ⟨⟨[], rest, rfl, rfl, hread⟩, h.placed_append⟩
  · intro i hstart hstop
    rw [Text.byteSize_append] at hstop
    refine ⟨fun hnone => ?_, PassedOver.not_covers⟩
    rw [List.forall_mem_cons] at hnone
    have hi : ¬ i < start + text.byteSize := fun hi => hnone.1 ⟨hstart, hi⟩
    have hlater := (h.outside i (by omega) (by omega)).1 hnone.2
    refine @PassedOver.append start i text rest [⟨cls, start, text⟩] ls hlater ?_
    rw [List.forall_mem_singleton]
    exact Nat.le_refl _

theorem InTurn.covers {start : Nat} {source : Text} {ls : List Lexeme}
    (h : InTurn start source ls) : Covers start source ls := by
  induction h with
  | nil => exact .nil _
  | skipped hskipped _ ih => exact ih.skip hskipped
  | classified hread _ ih => exact ih.cons (.classified hread)
  | unclassified hread _ ih => exact ih.cons (.unclassified hread)

/-- What is of no class is a lexeme, unless it stands in a comment or within another lexeme. -/
theorem Covers.visible {start : Nat} {source before text after : Text} {ls : List Lexeme}
    (h : Covers start source ls) (hsource : source = before ++ (text ++ after))
    (hread : Unclassified text after) :
    ⟨.unknown, start + before.byteSize, text⟩ ∈ ls ∨
      PassedOver start source ls (start + before.byteSize) ∨
      ∃ l ∈ ls, l.start < start + before.byteSize ∧ start + before.byteSize < l.stop := by
  by_cases hcovered : ∃ l ∈ ls, l.Covers (start + before.byteSize)
  · obtain ⟨l, hl, hstart, hstop⟩ := hcovered
    rcases Nat.lt_or_eq_of_le hstart with hlt | heq
    · exact .inr (.inr ⟨l, hl, hlt, hstop⟩)
    · obtain ⟨before', after', hsource', hplace, hread'⟩ := h.placed l hl
      have hsize : before'.byteSize = before.byteSize := by omega
      have hsame : l.text ++ after' = text ++ after := by
        rw [← Text.dropBytes_append before' (l.text ++ after'), ← hsource', hsource, hsize,
          Text.dropBytes_append]
      obtain ⟨hcls, htext⟩ := hread'.eq (.unclassified hread) hsame
      obtain ⟨cls, place, text'⟩ := l
      obtain rfl : cls = .unknown := Option.some.inj hcls
      obtain rfl : text' = text := htext
      obtain rfl : place = start + before.byteSize := heq
      exact .inl hl
  · have hpos := Reads.byteSize_pos (.unclassified hread)
    refine .inr (.inl ((h.outside _ (Nat.le_add_right _ _) ?_).1 fun l hl hcovers => ?_))
    · rw [hsource, Text.byteSize_append, Text.byteSize_append]
      omega
    · exact hcovered ⟨l, hl, hcovers⟩

/-- The lexemes of any text. There is one way to read it, and the lexemes are what it gives. They
cover all of the text but blanks and complete comments, and what is of no class is a lexeme wherever
it does not stand in a comment or within another lexeme. -/
theorem lexemes_cover (source : Text) :
    (∀ ls, InTurn 0 source ls ↔ ls = lexemes source) ∧ Covers 0 source (lexemes source) ∧
      ∀ before text after, source = before ++ (text ++ after) → Unclassified text after →
        ⟨.unknown, before.byteSize, text⟩ ∈ lexemes source ∨
          PassedOver 0 source (lexemes source) before.byteSize ∨
          ∃ l ∈ lexemes source, l.start < before.byteSize ∧ before.byteSize < l.stop := by
  have hcovers : Covers 0 source (lexemes source) := (inTurn_lexFrom 0 source).covers
  refine ⟨fun _ => inTurn_iff, hcovers, fun before text after hsource hread => ?_⟩
  have hvisible := hcovers.visible hsource hread
  rwa [Nat.zero_add] at hvisible

/-- A character of two bytes, a comment, a literal that breaks off at a backslash before the end of
its line, and a comment that is never closed. -/
theorem lexemes_cover_malformed :
    let source : Text := ['é', '/', '*', '"', '*', '/', '"', 'a', '\\', '\n', '/', '*', '#']
    let literal : Lexeme := ⟨.unknown, 7, ['"', 'a']⟩
    let slash : Lexeme := ⟨.unknown, 9, ['\\']⟩
    source = ['é', '/', '*', '"', '*', '/'] ++ (literal.text ++ ['\\', '\n', '/', '*', '#']) ∧
      Unclassified literal.text ['\\', '\n', '/', '*', '#'] ∧
      lexemes source = [⟨.unknown, 0, ['é']⟩, literal, slash, ⟨.unknown, 11, ['/', '*']⟩,
        ⟨.unknown, 13, ['#']⟩] ∧
      literal ∈ lexemes source ∧ InTurn 0 source (lexemes source) ∧
      Covers 0 source (lexemes source) := by
  intro source literal slash
  have hlexemes : lexemes source = [⟨.unknown, 0, ['é']⟩, literal, slash,
      ⟨.unknown, 11, ['/', '*']⟩, ⟨.unknown, 13, ['#']⟩] := by decide +kernel
  have hread : Unclassified literal.text ['\\', '\n', '/', '*', '#'] :=
    @Unclassified.quoted '"' .interpretedString ['a'] _ (by decide)
      (.plain (by decide) (by decide) (by decide) .nil) (.inr ⟨_, rfl, .inr rfl⟩)
  obtain ⟨hinturn, hcovers, hvisible⟩ := lexemes_cover source
  have hliteral : literal ∈ lexemes source := by
    rcases hvisible ['é', '/', '*', '"', '*', '/'] _ _ rfl hread with h | h | ⟨l, hl, h⟩
    · exact h
    · exact absurd ⟨Nat.le_refl _, by decide⟩ (h.not_covers literal (by simp [hlexemes]))
    · rw [hlexemes] at hl
      revert l
      decide
  exact ⟨rfl, hread, hlexemes, hliteral, (hinturn _).2 rfl, hcovers⟩

end AllowedValues.Argument
