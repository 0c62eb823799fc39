import AllowedValues.Text
import Mathlib.Data.List.TakeWhile

/-!
Runs at the beginning of a text: as many characters as have a property, one after the other. A run
goes on into the text that comes after it only if the first character there has the property, so a
run that ends within a text is the same whatever comes next.
-/

namespace AllowedValues.Text

variable {p : Char → Bool} {s t : Text}

theorem takeWhile_eq_nil_iff : t.takeWhile p = [] ↔ ∀ d, t.head? = some d → p d = false := by
  cases t with
  | nil => simp
  | cons c t => simp [List.takeWhile_cons]

theorem takeWhile_append_of_eq_nil (h : t.takeWhile p = []) :
    (s ++ t).takeWhile p = s.takeWhile p := by
  rw [List.takeWhile_append, h, List.append_nil]
  split
  · rename_i hall
    exact ((List.takeWhile_prefix p).eq_of_length hall).symm
  · rfl

theorem takeWhile_append_of_head? (ht : ∀ d, t.head? = some d → p d = false) :
    (s ++ t).takeWhile p = s.takeWhile p :=
  takeWhile_append_of_eq_nil (takeWhile_eq_nil_iff.2 ht)

theorem takeWhile_append_of_length_le (h : ((s ++ t).takeWhile p).length ≤ s.length) :
    (s ++ t).takeWhile p = s.takeWhile p := by
  by_cases hall : (s.takeWhile p).length = s.length
  · apply takeWhile_append_of_eq_nil
    rw [List.takeWhile_append, if_pos hall, List.length_append] at h
    exact List.eq_nil_of_length_eq_zero (by omega)
  · rw [List.takeWhile_append, if_neg hall]

theorem takeWhile_append_eq (hs : ∀ d ∈ s, p d = true)
    (ht : ∀ d, t.head? = some d → p d = false) : (s ++ t).takeWhile p = s := by
  rw [takeWhile_append_of_head? ht, List.takeWhile_eq_self_iff.2 hs]

theorem length_takeWhile_append_le (ht : ∀ d, t.head? = some d → p d = false) :
    ((s ++ t).takeWhile p).length ≤ s.length := by
  rw [takeWhile_append_of_head? ht]
  exact (List.takeWhile_prefix p).length_le

theorem length_le_takeWhile_append (hs : ∀ d ∈ s, p d = true) :
    s.length ≤ ((s ++ t).takeWhile p).length := by
  rw [List.takeWhile_append_of_pos hs, List.length_append]
  exact Nat.le_add_right _ _

/-- A run that ends where a part of a text ends is not gone on with after it. -/
theorem eq_false_of_length_takeWhile (h : ((s ++ t).takeWhile p).length = s.length) :
    ∀ d, t.head? = some d → p d = false := by
  have hrun := takeWhile_append_of_length_le h.le
  rw [hrun] at h
  rw [List.takeWhile_append, if_pos h, (List.takeWhile_prefix p).eq_of_length h] at hrun
  exact takeWhile_eq_nil_iff.1 (List.append_right_eq_self.1 hrun)

theorem head?_dropWhile (p : Char → Bool) (s : Text) :
    ∀ d, (s.dropWhile p).head? = some d → p d = false := by
  intro d hd
  simpa [hd] using List.head?_dropWhile_not p s

/-- Every text is a run and what comes after it. -/
theorem exists_run (p : Char → Bool) (s : Text) : ∃ run rest, s = run ++ rest ∧
    s.takeWhile p = run ∧ (∀ d ∈ run, p d = true) ∧ ∀ d, rest.head? = some d → p d = false :=
  ⟨s.takeWhile p, s.dropWhile p, List.takeWhile_append_dropWhile.symm, rfl,
    fun _ hd => List.mem_takeWhile_imp hd, head?_dropWhile p s⟩

end AllowedValues.Text
