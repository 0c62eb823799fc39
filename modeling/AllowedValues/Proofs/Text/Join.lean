import AllowedValues.Text
import Mathlib.Data.List.Basic

/-!
Texts joined with a separator between them.
-/

namespace AllowedValues.Text

theorem join_cons_cons (separator part next : Text) (parts : List Text) :
    join separator (part :: next :: parts) =
      part ++ (separator ++ join separator (next :: parts)) := by
  rw [join, List.intercalate_cons_cons, List.append_assoc, join]

/-- Joined parts are the first of them and each of the others behind a separator. -/
theorem join_cons (separator part : Text) (parts : List Text) :
    join separator (part :: parts) = part ++ parts.flatMap (separator ++ ·) := by
  induction parts generalizing part with
  | nil => simp [join]
  | cons next parts ih => rw [join_cons_cons, ih, List.flatMap_cons, List.append_assoc]

theorem join_append (separator : Text) {parts : List Text} (h : parts ≠ []) (others : List Text) :
    join separator (parts ++ others) =
      join separator parts ++ others.flatMap (separator ++ ·) := by
  obtain ⟨first, parts, rfl⟩ := List.exists_cons_of_ne_nil h
  rw [List.cons_append, join_cons, join_cons, List.flatMap_append, List.append_assoc]

theorem join_append_right (separator : Text) (parts : List Text) {others : List Text}
    (h : others ≠ []) : join separator (parts ++ others) =
      parts.flatMap (· ++ separator) ++ join separator others := by
  induction parts with
  | nil => rfl
  | cons part parts ih =>
      obtain ⟨next, rest, hnext⟩ :=
        List.exists_cons_of_ne_nil (List.append_ne_nil_of_right_ne_nil parts h)
      rw [List.cons_append, hnext, join_cons_cons, ← hnext, ih, List.flatMap_cons,
        List.append_assoc, List.append_assoc]

theorem join_concat (separator part : Text) {parts : List Text} (h : parts ≠ []) :
    join separator (parts ++ [part]) = join separator parts ++ separator ++ part := by
  rw [join_append separator h, List.flatMap_singleton, List.append_assoc]

theorem reverse_join (separator : Text) (parts : List Text) :
    (join separator parts).reverse =
      join separator.reverse (parts.reverse.map List.reverse) := by
  induction parts with
  | nil => rfl
  | cons part parts ih =>
      cases parts with
      | nil => simp [join]
      | cons next parts =>
          rw [join_cons_cons, List.reverse_append, List.reverse_append, ih,
            List.reverse_cons (a := part), List.map_append, List.map_cons, List.map_nil,
            join_concat _ _ (by simp)]

theorem mem_join {separator : Text} {parts : List Text} {c : Char}
    (h : c ∈ join separator parts) : c ∈ separator ∨ ∃ part ∈ parts, c ∈ part := by
  cases parts with
  | nil => simp [join] at h
  | cons part parts =>
      rw [join_cons, List.mem_append, List.mem_flatMap] at h
      rcases h with h | ⟨next, hnext, h⟩
      · exact Or.inr ⟨part, by simp, h⟩
      · rcases List.mem_append.1 h with h | h
        · exact Or.inl h
        · exact Or.inr ⟨next, List.mem_cons_of_mem _ hnext, h⟩

theorem getLast?_join {separator : Text} {parts : List Text} {c : Char} (hne : parts ≠ [])
    (h : ∀ part ∈ parts, part.getLast? = some c) :
    (join separator parts).getLast? = some c := by
  obtain rfl | ⟨front, part, rfl⟩ := parts.eq_nil_or_concat'
  · exact absurd rfl hne
  · have hpart := h part (by simp)
    by_cases hfront : front = []
    · simpa [hfront, join] using hpart
    · rw [join_concat _ _ hfront, List.getLast?_append, hpart, Option.some_or]

end AllowedValues.Text
