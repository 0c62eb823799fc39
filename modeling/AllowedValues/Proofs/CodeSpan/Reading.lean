import AllowedValues.Proofs.CodeSpan.Unambiguous
import Mathlib.Data.List.Pairwise
import Mathlib.Data.List.SplitBy

/-!
Reading a list of code spans by the inline-code rule: a maximal run of delimiters opens a span, and
the next maximal run of the same length closes it. Every value is read back as a span of its own,
unless it is empty: its two delimiters are one run, which opens a span in place of enclosing one.
-/

namespace AllowedValues.CodeSpan

/-- A part of a line. -/
inductive Part where
  | plain (text : Text)
  | span (content : Text)
deriving DecidableEq, Repr

/-- The maximal runs of delimiters in a text and the texts between them. -/
def segments (delimiter : Char) (s : Text) : List Text :=
  s.splitBy fun c d => (c == delimiter) == (d == delimiter)

/-- A text without one space on either side, where it has one. -/
def unpadded (s : Text) : Text :=
  let s := if s.head? = some ' ' then s.tail else s
  if s.getLast? = some ' ' then s.dropLast else s

/-- The content of the span that a fence and its like enclose. Only fences of two and more
delimiters have padding. -/
def spanContent (fence : Text) (between : List Text) : Text :=
  if 2 ≤ fence.length then unpadded between.flatten else between.flatten

/-- Reads segments by the inline-code rule. A run of delimiters that no other run of its length
comes after stands for itself. -/
def readSegments (delimiter : Char) : List Text → List Part
  | [] => []
  | s :: rest =>
      if s.head? = some delimiter ∧ s ∈ rest then
        .span (spanContent s (rest.takeWhile (· ≠ s))) ::
          readSegments delimiter (rest.dropWhile (· ≠ s)).tail
      else .plain s :: readSegments delimiter rest
termination_by segments => segments.length
decreasing_by
  · have hlength := (List.dropWhile_suffix (l := rest) (· ≠ s)).length_le
    rw [List.length_tail, List.length_cons]
    omega
  · simp

/-- The parts of a line by the inline-code rule. -/
def read (delimiter : Char) (s : Text) : List Part := readSegments delimiter (segments delimiter s)

/-- One span for each content, with a comma and a space between them. -/
def spans (contents : List Text) : List Part :=
  (contents.map Part.span).intersperse (.plain ", ".toList)

theorem read_nil (delimiter : Char) : read delimiter [] = [] := by
  rw [read, segments, List.splitBy_nil, readSegments]

variable {delimiter : Char} {content s t fence : Text} {before after : List Text} {n : Nat}

theorem segments_append (h : ∀ c ∈ s.getLast?, ∀ d ∈ t.head?,
    (c == delimiter) ≠ (d == delimiter)) :
    segments delimiter (s ++ t) = segments delimiter s ++ segments delimiter t := by
  apply List.splitBy_append
  intro c hc d hd
  rw [beq_eq_false_iff_ne]
  exact h c hc d hd

theorem exists_segments_eq_cons (delimiter c : Char) (t : Text) :
    ∃ s rest, segments delimiter (c :: t) = (c :: s) :: rest := by
  have hflatten : (segments delimiter (c :: t)).flatten = c :: t := List.flatten_splitBy _ _
  have hnil : [] ∉ segments delimiter (c :: t) := List.nil_notMem_splitBy _ _
  match hsegments : segments delimiter (c :: t) with
  | [] => simp [hsegments] at hflatten
  | [] :: rest => simp [hsegments] at hnil
  | (d :: s) :: rest =>
      rw [hsegments, List.flatten_cons, List.cons_append] at hflatten
      obtain rfl := (List.cons.inj hflatten).1
      exact ⟨s, rest, rfl⟩

theorem segments_of_all {b : Bool} (hne : s ≠ []) (h : ∀ c ∈ s, (c == delimiter) = b) :
    segments delimiter s = [s] := by
  apply List.splitBy_of_isChain hne
  apply List.Pairwise.isChain
  apply List.pairwise_of_forall_mem_list
  intro c hc d hd
  rw [h c hc, h d hd, beq_self_eq_true]

theorem segments_of_notMem (hne : s ≠ []) (h : delimiter ∉ s) : segments delimiter s = [s] := by
  apply segments_of_all (b := false) hne
  intro c hc
  rw [beq_eq_false_iff_ne]
  rintro rfl
  exact h hc

theorem segments_run_append (n : Nat) (ht : t.head? ≠ some delimiter) :
    segments delimiter (List.replicate (n + 1) delimiter ++ t) =
      List.replicate (n + 1) delimiter :: segments delimiter t := by
  have hrun : segments delimiter (List.replicate (n + 1) delimiter) =
      [List.replicate (n + 1) delimiter] := by
    apply segments_of_all (b := true) (by simp [List.replicate_succ])
    intro c hc
    rw [List.eq_of_mem_replicate hc, beq_self_eq_true]
  rw [segments_append, hrun, List.singleton_append]
  intro c hc d hd
  rw [List.eq_of_mem_replicate (List.mem_of_getLast? hc), beq_self_eq_true]
  rintro heq
  rw [beq_iff_eq.1 heq.symm] at hd
  exact ht hd

theorem segments_append_delimiter (hs : s.getLast? ≠ some delimiter) (t : Text) :
    segments delimiter (s ++ delimiter :: t) =
      segments delimiter s ++ segments delimiter (delimiter :: t) := by
  apply segments_append
  intro c hc d hd heq
  obtain rfl := Option.some.inj hd
  rw [beq_self_eq_true, beq_iff_eq] at heq
  rw [heq] at hc
  exact hs hc

/-- A fence opens a span that the next fence of its length closes. -/
theorem readSegments_span (hfence : fence.head? = some delimiter) (hbefore : fence ∉ before) :
    readSegments delimiter (fence :: (before ++ fence :: after)) =
      .span (spanContent fence before) :: readSegments delimiter after := by
  have hopen : ∀ s ∈ before, decide (s ≠ fence) = true := by
    intro s hs
    rw [decide_eq_true_eq]
    rintro rfl
    exact hbefore hs
  rw [readSegments, if_pos ⟨hfence, by simp⟩, List.takeWhile_append_of_pos hopen,
    List.dropWhile_append_of_pos hopen, List.takeWhile_cons_of_neg (by simp),
    List.dropWhile_cons_of_neg (by simp), List.append_nil, List.tail_cons]

theorem readSegments_plain (h : ¬ (s.head? = some delimiter ∧ s ∈ after)) :
    readSegments delimiter (s :: after) = .plain s :: readSegments delimiter after := by
  rw [readSegments, if_neg h]

theorem read_plain_append (hne : s ≠ []) (hs : delimiter ∉ s) (t : Text) :
    read delimiter (s ++ delimiter :: t) = .plain s :: read delimiter (delimiter :: t) := by
  have hlast : s.getLast? ≠ some delimiter := fun hlast => hs (List.mem_of_getLast? hlast)
  rw [read, segments_append_delimiter hlast, segments_of_notMem hne hs, List.singleton_append,
    readSegments_plain, read]
  rintro ⟨hhead, -⟩
  exact hs (List.mem_of_head? hhead)

/-- Text between two fences of one length is read as one span, if neither it nor what comes after it
goes on with the fences, and none like them is in it. -/
theorem read_span_append (hne : s ≠ []) (hs : s.head? ≠ some delimiter)
    (hs' : s.getLast? ≠ some delimiter) (ht : t.head? ≠ some delimiter)
    (hfence : ¬ List.replicate (n + 1) delimiter <:+: s) :
    read delimiter (List.replicate (n + 1) delimiter ++
        (s ++ (List.replicate (n + 1) delimiter ++ t))) =
      .span (if 2 ≤ n + 1 then unpadded s else s) :: read delimiter t := by
  have hbefore : List.replicate (n + 1) delimiter ∉ segments delimiter s := by
    intro hmem
    have hinfix := List.infix_of_mem_flatten hmem
    rw [segments, List.flatten_splitBy] at hinfix
    exact hfence hinfix
  have hsegments : segments delimiter (List.replicate (n + 1) delimiter ++
      (s ++ (List.replicate (n + 1) delimiter ++ t))) =
        List.replicate (n + 1) delimiter :: (segments delimiter s ++
          List.replicate (n + 1) delimiter :: segments delimiter t) := by
    have hmiddle : (s ++ (List.replicate (n + 1) delimiter ++ t)).head? ≠ some delimiter := by
      rwa [List.head?_append_of_ne_nil _ hne]
    rw [segments_run_append n hmiddle, ← segments_run_append n ht, List.replicate_succ,
      List.cons_append, segments_append_delimiter hs']
  rw [read, hsegments, readSegments_span rfl hbefore, spanContent, List.length_replicate, segments,
    List.flatten_splitBy, read]

example : read '`' "`` `b ``, ```".toList =
    [.span ['`', 'b'], .plain [',', ' '], .plain ['`', '`', '`']] := by
  decide +kernel

theorem not_replicate_infix_padded (hspace : ' ' ≠ delimiter)
    (h : ¬ List.replicate (n + 1) delimiter <:+: content) :
    ¬ List.replicate (n + 1) delimiter <:+: ' ' :: (content ++ [' ']) := by
  rw [List.infix_cons_iff, List.infix_concat_iff, not_or, not_or]
  refine ⟨fun hprefix => ?_, fun hsuffix => ?_, h⟩
  · rw [List.replicate_succ, List.cons_prefix_cons] at hprefix
    exact hspace hprefix.1.symm
  · rw [← List.reverse_prefix, List.reverse_replicate, List.replicate_succ,
      List.reverse_append] at hsuffix
    exact hspace (List.cons_prefix_cons.1 hsuffix).1.symm

theorem unpadded_padded (content : Text) : unpadded (' ' :: (content ++ [' '])) = content := by
  simp [unpadded]

theorem read_wrap_append (hspace : ' ' ≠ delimiter) (hne : content ≠ [])
    (ht : t.head? ≠ some delimiter) :
    read delimiter (wrap delimiter content ++ t) = .span content :: read delimiter t := by
  have hshape := shape_wrap delimiter content
  generalize wrap delimiter content = span at hshape
  cases hshape with
  | bare hcontent =>
      have hread := read_span_append (n := 0) hne (fun hhead => hcontent (List.mem_of_head? hhead))
        (fun hlast => hcontent (List.mem_of_getLast? hlast)) ht
        (by rwa [List.replicate_one, List.singleton_infix_iff])
      simpa using hread
  | @fenced n _ hfence =>
      have hread := read_span_append (n := n + 1) (s := ' ' :: (content ++ [' '])) (by simp)
        (by simpa using hspace) (by simpa [List.getLast?_cons] using hspace) ht
        (not_replicate_infix_padded hspace hfence)
      rw [if_pos (by omega), unpadded_padded] at hread
      simpa using hread

theorem unpadded_cons_ne_nil {c : Char} (hc : c ≠ ' ') (s : Text) : unpadded (c :: s) ≠ [] := by
  have hhead : (c :: s).head? ≠ some ' ' := by simpa using hc
  rw [unpadded, if_neg hhead]
  cases s with
  | nil => simp [hc]
  | cons d s =>
      split
      · simp
      · simp

/-- The code span of an empty content is not read as an empty span, whatever comes after it. -/
theorem read_wrap_nil_append (ht : ∀ c ∈ t.head?, c ≠ delimiter ∧ c ≠ ' ') :
    (read delimiter (wrap delimiter [] ++ t)).head? ≠ some (.span []) := by
  have hwrap : wrap delimiter [] = List.replicate 2 delimiter := rfl
  have hhead : t.head? ≠ some delimiter := fun hd => (ht _ hd).1 rfl
  rw [hwrap, read, segments_run_append 1 hhead, readSegments]
  split
  · -- The two delimiters open a span: its content begins with what comes after them.
    rename_i hclosed
    cases t with
    | nil => simp [segments] at hclosed
    | cons c t =>
        obtain ⟨hdelimiter, hspace⟩ := ht c rfl
        obtain ⟨s, rest, hsegments⟩ := exists_segments_eq_cons delimiter c t
        rw [hsegments, List.takeWhile_cons_of_pos (by simp [List.replicate_succ, hdelimiter])]
        simpa [spanContent] using unpadded_cons_ne_nil hspace _
  · simp

theorem head?_spans (content : Text) (contents : List Text) :
    (spans (content :: contents)).head? = some (.span content) := by
  cases contents with
  | nil => rfl
  | cons next contents => rfl

theorem spans_cons_cons (content next : Text) (contents : List Text) :
    spans (content :: next :: contents) =
      .span content :: .plain ", ".toList :: spans (next :: contents) := rfl

theorem head?_read_join_wrap_nil (hcomma : ',' ≠ delimiter) (contents : List Text) :
    (read delimiter (Text.join ", ".toList (([] :: contents).map (wrap delimiter)))).head? ≠
      some (.span []) := by
  rw [List.map_cons, Text.join_cons]
  apply read_wrap_nil_append
  cases contents with
  | nil => simp
  | cons next contents => simpa using hcomma

theorem read_join_wrap_cons_cons (hspace : ' ' ≠ delimiter) (hcomma : ',' ≠ delimiter)
    {content : Text} (hne : content ≠ []) (next : Text) (contents : List Text) :
    read delimiter (Text.join ", ".toList ((content :: next :: contents).map (wrap delimiter))) =
      .span content :: .plain ", ".toList ::
        read delimiter (Text.join ", ".toList ((next :: contents).map (wrap delimiter))) := by
  obtain ⟨t, ht⟩ : ∃ t, Text.join ", ".toList ((next :: contents).map (wrap delimiter)) =
      delimiter :: t := by
    obtain ⟨s, hs⟩ := (shape_wrap delimiter next).exists_eq_cons
    rw [List.map_cons, Text.join_cons, hs]
    exact ⟨_, rfl⟩
  rw [List.map_cons, List.map_cons, Text.join_cons_cons, ← List.map_cons,
    read_wrap_append hspace hne (by simpa using hcomma), ht,
    read_plain_append (by simp) (by simp [hcomma.symm, hspace.symm])]

/-- What is read of a list of code spans: its contents, one by one, unless one of them is empty. -/
theorem read_join_wrap_iff (hspace : ' ' ≠ delimiter) (hcomma : ',' ≠ delimiter)
    {contents : List Text} (hne : contents ≠ []) :
    read delimiter (Text.join ", ".toList (contents.map (wrap delimiter))) = spans contents ↔
      [] ∉ contents := by
  induction contents with
  | nil => exact absurd rfl hne
  | cons content contents ih =>
      by_cases hcontent : content = []
      · subst hcontent
        have hhead := head?_read_join_wrap_nil hcomma contents
        constructor
        · intro heq
          rw [heq, head?_spans] at hhead
          exact absurd rfl hhead
        · simp
      · have hmem : [] ∉ content :: contents ↔ [] ∉ contents := by
          simp [Ne.symm hcontent]
        cases contents with
        | nil =>
            rw [List.map_cons, Text.join_cons, List.map_nil, List.flatMap_nil,
              read_wrap_append hspace hcontent (by simp), hmem]
            simp [read_nil, spans]
        | cons next contents =>
            rw [read_join_wrap_cons_cons hspace hcomma hcontent, spans_cons_cons,
              List.cons_inj_right, List.cons_inj_right, ih (by simp), hmem]

end AllowedValues.CodeSpan

namespace AllowedValues.Settings

variable {settings : Settings} {values : List Text}

/-- What is read after the label of a suffix line: one span for each value, with the value as it is
written and a comma and a space between spans, unless a value is empty. -/
theorem read_suffix?_iff (h : settings.fault? = none) (hcomma : settings.delimiter ≠ ',')
    (hne : values ≠ []) :
    ∃ list, settings.suffix? values = some (settings.label ++ list) ∧
      (CodeSpan.read settings.delimiter list =
        CodeSpan.spans (values.map CodeSpan.escapeControls) ↔ [] ∉ values) := by
  refine ⟨_, suffix?_eq_some_iff.2 ⟨hne, rfl⟩, ?_⟩
  rw [CodeSpan.map_render,
    CodeSpan.read_join_wrap_iff (space_ne_delimiter h) hcomma.symm (by simpa using hne)]
  simp [CodeSpan.escapeControls_eq_nil_iff]

/-- Delimiters and a newline in values that are not empty. -/
theorem read_suffix?_iff_delimiters :
    let settings : Settings := {}
    let values : List Text := [['`'], [' '], ['a', '`', '`', '\n']]
    settings.fault? = none ∧ settings.delimiter ≠ ',' ∧ values ≠ [] ∧ [] ∉ values ∧
      ∃ list, settings.suffix? values = some (settings.label ++ list) ∧
        CodeSpan.read settings.delimiter list = [.span ['`'], .plain [',', ' '], .span [' '],
          .plain [',', ' '], .span ['a', '`', '`', '\\', 'n']] := by
  intro settings values
  have hfault : settings.fault? = none := by decide +kernel
  have hcomma : settings.delimiter ≠ ',' := by decide
  have hne : values ≠ [] := by decide
  obtain ⟨list, hlist, hread⟩ := read_suffix?_iff hfault hcomma hne
  exact ⟨hfault, hcomma, hne, by decide, list, hlist, hread.2 (by decide)⟩

/-- An empty value is read as text. -/
theorem read_suffix?_empty_value :
    let settings : Settings := {}
    let values : List Text := [[], ['a']]
    let list : Text := "``, `a`".toList
    settings.fault? = none ∧ settings.delimiter ≠ ',' ∧ values ≠ [] ∧
      settings.suffix? values = some (settings.label ++ list) ∧
      CodeSpan.read settings.delimiter list =
        [.plain ['`', '`'], .plain [',', ' '], .span ['a']] ∧
      CodeSpan.read settings.delimiter list ≠
        CodeSpan.spans (values.map CodeSpan.escapeControls) := by
  decide +kernel

end AllowedValues.Settings
