import AllowedValues.Proofs.CodeSpan.Shape
import AllowedValues.Proofs.Enrichment.SuffixLine

/-!
A list of code spans can be told apart. A code span is cancelled from the start of a text if what
comes after it does not blur its end. The separator does not, unless the delimiter is a comma: then
the list is told apart from its end, where the comma of a separator comes after the space.
-/

namespace AllowedValues

namespace CodeSpan

variable {delimiter : Char} {content content' s t t' : Text} {n : Nat}

theorem replicate_cancel {m n : Nat} {c : Char} (hc : c ≠ delimiter)
    (h : List.replicate m delimiter ++ c :: t = List.replicate n delimiter ++ c :: t') :
    m = n ∧ t = t' := by
  induction m generalizing n with
  | zero =>
      cases n with
      | zero => exact ⟨rfl, (List.cons.inj h).2⟩
      | succ n => exact absurd (List.cons.inj h).1 hc
  | succ m ih =>
      cases n with
      | zero => exact absurd (List.cons.inj h).1.symm hc
      | succ n =>
          obtain ⟨rfl, rest⟩ := ih (List.cons.inj h).2
          exact ⟨rfl, rest⟩

theorem replicate_prefix_of_eq {c : Char} (hc : c ≠ delimiter)
    (h : List.replicate n delimiter ++ s = content ++ c :: t) :
    List.replicate n delimiter <+: content := by
  induction n generalizing content with
  | zero => exact List.nil_prefix
  | succ n ih =>
      cases content with
      | nil => exact absurd (List.cons.inj h).1.symm hc
      | cons d content =>
          obtain ⟨rfl, hrest⟩ := List.cons.inj h
          rw [List.replicate_succ, List.cons_prefix_cons]
          exact ⟨rfl, ih hrest⟩

theorem bare_cancel (hcontent : delimiter ∉ content) (hcontent' : delimiter ∉ content')
    (h : content ++ delimiter :: t = content' ++ delimiter :: t') :
    content = content' ∧ t = t' := by
  induction content generalizing content' with
  | nil =>
      cases content' with
      | nil => exact ⟨rfl, (List.cons.inj h).2⟩
      | cons c content' => simp [(List.cons.inj h).1] at hcontent'
  | cons c content ih =>
      rw [List.mem_cons, not_or] at hcontent
      cases content' with
      | nil => exact absurd (List.cons.inj h).1.symm hcontent.1
      | cons d content' =>
          rw [List.mem_cons, not_or] at hcontent'
          obtain ⟨rfl, hrest⟩ := List.cons.inj h
          obtain ⟨rfl, ht⟩ := ih hcontent.2 hcontent'.2 hrest
          exact ⟨rfl, ht⟩

/-- A content ends where its fence first comes after a space. -/
theorem fenced_cancel (hspace : ' ' ≠ delimiter)
    (hcontent : ¬ List.replicate n delimiter <:+: content)
    (hcontent' : ¬ List.replicate n delimiter <:+: content')
    (h : content ++ ' ' :: (List.replicate n delimiter ++ t) =
      content' ++ ' ' :: (List.replicate n delimiter ++ t')) :
    content = content' ∧ t = t' := by
  induction content generalizing content' with
  | nil =>
      cases content' with
      | nil => exact ⟨rfl, List.append_cancel_left (List.cons.inj h).2⟩
      | cons c content' =>
          have hfence := replicate_prefix_of_eq hspace (List.cons.inj h).2
          exact absurd (List.infix_cons hfence.isInfix) hcontent'
  | cons c content ih =>
      cases content' with
      | nil =>
          have hfence := replicate_prefix_of_eq hspace (List.cons.inj h).2.symm
          exact absurd (List.infix_cons hfence.isInfix) hcontent
      | cons d content' =>
          obtain ⟨rfl, hrest⟩ := List.cons.inj h
          obtain ⟨rfl, ht⟩ := ih (fun hfence => hcontent (List.infix_cons hfence))
            (fun hfence => hcontent' (List.infix_cons hfence)) hrest
          exact ⟨rfl, ht⟩

/-- What can come after a code span without blurring its end: nothing, a character that is neither a
delimiter nor a space, or a space before two delimiters. -/
inductive Resumes (delimiter : Char) : Text → Prop
  | nil : Resumes delimiter []
  | other {c : Char} {s : Text} : c ≠ delimiter → c ≠ ' ' → Resumes delimiter (c :: s)
  | space {s : Text} : Resumes delimiter (' ' :: delimiter :: delimiter :: s)

/-- A code span between single delimiters is not taken for one between fences. -/
theorem bare_ne_fenced (hspace : ' ' ≠ delimiter) (ht : Resumes delimiter t)
    (hcontent : delimiter ∉ content)
    (hcontent' : ¬ List.replicate (n + 2) delimiter <:+: content') :
    delimiter :: (content ++ [delimiter]) ++ t ≠ List.replicate (n + 2) delimiter ++
      ' ' :: (content' ++ ' ' :: List.replicate (n + 2) delimiter) ++ t' := by
  intro h
  have hbody : content ++ delimiter :: t = delimiter :: (List.replicate n delimiter ++
      ' ' :: (content' ++ ' ' :: (List.replicate (n + 2) delimiter ++ t'))) := by
    simpa [List.replicate_succ] using h
  cases content with
  | cons c content => simp [(List.cons.inj hbody).1] at hcontent
  | nil =>
      -- The content is empty, so its two delimiters would have to be the whole fence.
      have hrest := (List.cons.inj hbody).2
      cases n with
      | zero =>
          cases ht with
          | nil => cases hrest
          | other _ hc => exact hc (List.cons.inj hrest).1
          | @space s =>
              have hrun := replicate_prefix_of_eq (n := 2) (s := s) hspace (List.cons.inj hrest).2
              exact hcontent' hrun.isInfix
      | succ n =>
          cases ht with
          | nil => cases hrest
          | other hc _ => exact hc (List.cons.inj hrest).1
          | space => exact hspace (List.cons.inj hrest).1

theorem wrap_cancel (hspace : ' ' ≠ delimiter) (ht : Resumes delimiter t)
    (ht' : Resumes delimiter t')
    (h : wrap delimiter content ++ t = wrap delimiter content' ++ t') :
    content = content' ∧ t = t' := by
  have hshape := shape_wrap delimiter content
  have hshape' := shape_wrap delimiter content'
  generalize wrap delimiter content = span at h hshape
  generalize wrap delimiter content' = span' at h hshape'
  cases hshape with
  | bare hcontent =>
      cases hshape' with
      | bare hcontent' =>
          refine bare_cancel hcontent hcontent' ?_
          simpa using h
      | fenced _ hfence' =>
          exact absurd h (bare_ne_fenced hspace ht hcontent hfence')
  | fenced _ hfence =>
      cases hshape' with
      | bare hcontent' =>
          exact absurd h.symm (bare_ne_fenced hspace ht' hcontent' hfence)
      | fenced _ hfence' =>
          rw [List.append_assoc, List.append_assoc, List.cons_append, List.cons_append,
            List.append_assoc, List.append_assoc, List.cons_append, List.cons_append] at h
          obtain ⟨hlength, hrest⟩ := replicate_cancel hspace h
          obtain rfl := Nat.add_right_cancel hlength
          exact fenced_cancel hspace hfence hfence' hrest

section Lists

variable {separator : Text}
  (hseparator : ∀ content t, Resumes delimiter (separator ++ (wrap delimiter content ++ t)))

include hseparator

theorem resumes_separated (contents : List Text) :
    Resumes delimiter ((contents.map (wrap delimiter)).flatMap (separator ++ ·)) := by
  cases contents with
  | nil => exact .nil
  | cons content contents =>
      rw [List.map_cons, List.flatMap_cons, List.append_assoc]
      exact hseparator content _

theorem separated_cancel (hspace : ' ' ≠ delimiter) {contents contents' : List Text}
    (h : (contents.map (wrap delimiter)).flatMap (separator ++ ·) =
      (contents'.map (wrap delimiter)).flatMap (separator ++ ·)) : contents = contents' := by
  induction contents generalizing contents' with
  | nil =>
      cases contents' with
      | nil => rfl
      | cons content' contents' =>
          obtain ⟨s, hs⟩ := (shape_wrap delimiter content').exists_eq_cons
          simp [hs] at h
  | cons content contents ih =>
      cases contents' with
      | nil =>
          obtain ⟨s, hs⟩ := (shape_wrap delimiter content).exists_eq_cons
          simp [hs] at h
      | cons content' contents' =>
          rw [List.map_cons, List.map_cons, List.flatMap_cons, List.flatMap_cons,
            List.append_assoc, List.append_assoc] at h
          obtain ⟨rfl, hrest⟩ := wrap_cancel hspace (resumes_separated hseparator contents)
            (resumes_separated hseparator contents') (List.append_cancel_left h)
          rw [ih hrest]

theorem join_wrap_cancel (hspace : ' ' ≠ delimiter) {contents contents' : List Text}
    (h : Text.join separator (contents.map (wrap delimiter)) =
      Text.join separator (contents'.map (wrap delimiter))) : contents = contents' := by
  have hne (content : Text) (parts : List Text) :
      Text.join separator (wrap delimiter content :: parts) ≠ [] := by
    obtain ⟨s, hs⟩ := (shape_wrap delimiter content).exists_eq_cons
    rw [Text.join_cons, hs]
    exact List.cons_ne_nil _ _
  cases contents with
  | nil =>
      cases contents' with
      | nil => rfl
      | cons content' contents' => exact absurd h.symm (hne _ _)
  | cons content contents =>
      cases contents' with
      | nil => exact absurd h (hne _ _)
      | cons content' contents' =>
          rw [List.map_cons, List.map_cons, Text.join_cons, Text.join_cons] at h
          obtain ⟨rfl, hrest⟩ := wrap_cancel hspace (resumes_separated hseparator contents)
            (resumes_separated hseparator contents') h
          rw [separated_cancel hseparator hspace hrest]

end Lists

/-- Lists of code spans behind a comma and a space are the same only if their contents are, whatever
the delimiter. -/
theorem join_wrap_injective (hspace : ' ' ≠ delimiter) {contents contents' : List Text}
    (h : Text.join ", ".toList (contents.map (wrap delimiter)) =
      Text.join ", ".toList (contents'.map (wrap delimiter))) : contents = contents' := by
  by_cases hcomma : ',' = delimiter
  · -- A comma before a fence makes it longer, so the list is read from its end.
    subst hcomma
    have hreverse := congrArg List.reverse h
    have hspans (contents : List Text) : (contents.map (wrap ',')).reverse.map List.reverse =
        (contents.reverse.map List.reverse).map (wrap ',') := by
      simp [Function.comp_def, reverse_wrap]
    rw [Text.reverse_join, Text.reverse_join, hspans, hspans] at hreverse
    have hcontents := join_wrap_cancel (fun content t => ?_) hspace hreverse
    · exact List.reverse_injective (List.map_injective_iff.2 List.reverse_injective hcontents)
    · obtain ⟨s, hs⟩ := (shape_wrap ',' content).exists_eq_cons
      rw [hs]
      exact .space
  · exact join_wrap_cancel (fun content t => .other hcomma (by decide)) hspace h

end CodeSpan

namespace Settings

variable {settings : Settings} {values values' : List Text}

theorem space_ne_delimiter (h : settings.fault? = none) : ' ' ≠ settings.delimiter := by
  intro hd
  have hspace := (fault?_eq_none_iff.1 h).2.2.1
  rw [← hd] at hspace
  exact absurd hspace (by decide)

theorem suffix?_eq_ite (settings : Settings) (values : List Text) : settings.suffix? values =
    if values.map CodeSpan.escapeControls = [] then none
    else some (settings.label ++ Text.join ", ".toList
      ((values.map CodeSpan.escapeControls).map (CodeSpan.wrap settings.delimiter))) := by
  rw [← CodeSpan.map_render]
  cases values with
  | nil => rfl
  | cons value values => rfl

theorem map_escapeControls_of_suffix?_eq (h : settings.fault? = none)
    (heq : settings.suffix? values = settings.suffix? values') :
    values.map CodeSpan.escapeControls = values'.map CodeSpan.escapeControls := by
  rw [suffix?_eq_ite, suffix?_eq_ite] at heq
  split_ifs at heq with hnil hnil'
  · rw [hnil, hnil']
  · exact CodeSpan.join_wrap_injective (space_ne_delimiter h)
      (List.append_cancel_left (Option.some.inj heq))

/-- Two lists of values have the same suffix line only if they are equally long and corresponding
values are the same but for how control characters are written. -/
theorem suffix?_eq_suffix?_iff (h : settings.fault? = none) :
    settings.suffix? values = settings.suffix? values' ↔
      values.map CodeSpan.escapeControls = values'.map CodeSpan.escapeControls := by
  constructor
  · exact map_escapeControls_of_suffix?_eq h
  · intro heq
    rw [suffix?_eq_ite, heq, ← suffix?_eq_ite]

/-- A comma as the delimiter: an empty value and what a fence of three could be. -/
theorem suffix?_eq_suffix?_iff_comma :
    let settings : Settings := { delimiter := ',' }
    settings.fault? = none ∧
      settings.suffix? [[], ['a', ',', '\n']] = settings.suffix? [[], ['a', ',', '\\', 'n']] ∧
      settings.suffix? [[], [',', ',', 'x']] ≠ settings.suffix? [[',', ',', ',', 'x']] := by
  intro settings
  have hfault : settings.fault? = none := by decide +kernel
  refine ⟨hfault, (suffix?_eq_suffix?_iff hfault).2 (by decide), fun heq => ?_⟩
  have hvalues := (suffix?_eq_suffix?_iff hfault).1 heq
  exact absurd hvalues (by decide)

/-- Lists of values without control characters have the same suffix line only if they are equal. -/
theorem eq_of_suffix?_eq (h : settings.fault? = none)
    (hvalues : ∀ value ∈ values, ∀ c ∈ value, Unicode.isControl c = false)
    (hvalues' : ∀ value ∈ values', ∀ c ∈ value, Unicode.isControl c = false)
    (heq : settings.suffix? values = settings.suffix? values') : values = values' := by
  have hmap := map_escapeControls_of_suffix?_eq h heq
  rwa [CodeSpan.map_escapeControls_eq_self hvalues,
    CodeSpan.map_escapeControls_eq_self hvalues'] at hmap

end Settings

end AllowedValues
