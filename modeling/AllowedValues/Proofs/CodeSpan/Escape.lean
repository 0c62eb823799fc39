import AllowedValues.CodeSpan
import Mathlib.Data.List.Basic
import Mathlib.Data.Nat.Init

/-!
Escapes of control characters. What is written for a value holds no control character, and it is
the value itself exactly if the value holds none.
-/

namespace AllowedValues

theorem Text.exists_digitChar_of_mem_hexadecimal {n : Nat} {c : Char}
    (h : c ∈ Text.hexadecimal n) : ∃ k < 16, c = Nat.digitChar k := by
  induction n using Nat.strong_induction_on with
  | _ n ih =>
      simp only [Text.hexadecimal] at h ih
      by_cases hn : n < 16
      · rw [Nat.toDigits_of_lt_base hn, List.mem_singleton] at h
        exact ⟨n, hn, h⟩
      · rw [Nat.toDigits_of_base_le (by decide) (by omega), List.mem_append,
          List.mem_singleton] at h
        rcases h with h | h
        · exact ih (n / 16) (by omega) h
        · exact ⟨n % 16, Nat.mod_lt _ (by decide), h⟩

namespace CodeSpan

variable {c d : Char} {value : Text}

theorem isControl_of_mem_codePointEscape (h : d ∈ Text.codePointEscape c) :
    Unicode.isControl d = false := by
  have hdigit : ∀ k < 16, Unicode.isControl (Nat.digitChar k) = false := by decide
  rw [Text.codePointEscape, List.mem_append] at h
  simp only [List.mem_cons, List.not_mem_nil, or_false] at h
  rcases h with (rfl | rfl | rfl | h) | rfl
  · decide
  · decide
  · decide
  · obtain ⟨k, hk, rfl⟩ := Text.exists_digitChar_of_mem_hexadecimal h
    exact hdigit k hk
  · decide

theorem isControl_of_mem_escapeChar (h : d ∈ escapeChar c) : Unicode.isControl d = false := by
  have hletter (e : Char) (he : Unicode.isControl e = false) (h : d ∈ ['\\', e]) :
      Unicode.isControl d = false := by
    rcases List.mem_pair.1 h with rfl | rfl
    · decide
    · exact he
  rw [escapeChar] at h
  split_ifs at h with hn hr ht hc
  · exact hletter 'n' (by decide) h
  · exact hletter 'r' (by decide) h
  · exact hletter 't' (by decide) h
  · exact isControl_of_mem_codePointEscape h
  · obtain rfl := List.mem_singleton.1 h
    simpa using hc

theorem isControl_of_mem_escapeControls (h : d ∈ escapeControls value) :
    Unicode.isControl d = false := by
  obtain ⟨c, -, hd⟩ := List.mem_flatMap.1 h
  exact isControl_of_mem_escapeChar hd

theorem newline_notMem_escapeControls (value : Text) : '\n' ∉ escapeControls value := by
  intro h
  exact absurd (isControl_of_mem_escapeControls h) (by decide)

theorem escapeChar_eq_singleton (h : Unicode.isControl c = false) : escapeChar c = [c] := by
  have hne {d : Char} (hd : Unicode.isControl d = true) : c ≠ d := by
    rintro rfl
    rw [h] at hd
    exact absurd hd (by decide)
  rw [escapeChar, if_neg (hne (by decide)), if_neg (hne (by decide)), if_neg (hne (by decide)),
    if_neg (by simp [h])]

theorem escapeControls_eq_self_iff :
    escapeControls value = value ↔ ∀ c ∈ value, Unicode.isControl c = false := by
  constructor
  · intro h c hc
    rw [← h] at hc
    exact isControl_of_mem_escapeControls hc
  · intro h
    induction value with
    | nil => rfl
    | cons c value ih =>
        rw [List.forall_mem_cons] at h
        rw [escapeControls, List.flatMap_cons, escapeChar_eq_singleton h.1, ← escapeControls,
          ih h.2, List.singleton_append]

theorem map_escapeControls_eq_self {values : List Text}
    (h : ∀ value ∈ values, ∀ c ∈ value, Unicode.isControl c = false) :
    values.map escapeControls = values := by
  rw [List.map_congr_left fun value hvalue => escapeControls_eq_self_iff.2 (h value hvalue),
    List.map_id']

theorem escapeControls_eq_nil_iff : escapeControls value = [] ↔ value = [] := by
  have hchar (c : Char) : escapeChar c ≠ [] := by
    rw [escapeChar]
    split_ifs <;> simp [Text.codePointEscape]
  cases value with
  | nil => simp [escapeControls]
  | cons c value => simp [escapeControls, hchar c]

end CodeSpan

end AllowedValues
