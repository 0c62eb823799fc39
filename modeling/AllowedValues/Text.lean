/-!
Text is a list of characters. Positions in it are counted in bytes of its UTF-8 form, so that a
character takes one to four places, and a cut between two characters is named by the bytes
before it.
-/

namespace AllowedValues

/-- A text, character by character. -/
abbrev Text := List Char

namespace Text

/-- The number of bytes of the UTF-8 form. -/
def byteSize : Text → Nat
  | [] => 0
  | c :: s => c.utf8Size + byteSize s

/-- The text from byte `n` on. -/
def dropBytes : Nat → Text → Text
  | 0, s => s
  | _ + 1, [] => []
  | n + 1, c :: s => dropBytes (n + 1 - c.utf8Size) s

/-- The text before byte `n`. -/
def takeBytes : Nat → Text → Text
  | 0, _ => []
  | _ + 1, [] => []
  | n + 1, c :: s => c :: takeBytes (n + 1 - c.utf8Size) s

/-- The text between two byte positions. -/
def slice (s : Text) (start stop : Nat) : Text :=
  takeBytes (stop - start) (dropBytes start s)

def join (separator : Text) (parts : List Text) : Text :=
  separator.intercalate parts

theorem byteSize_append (s t : Text) : byteSize (s ++ t) = byteSize s + byteSize t := by
  induction s with
  | nil => simp [byteSize]
  | cons c s ih => simp only [List.cons_append, byteSize, ih, Nat.add_assoc]

theorem dropBytes_append (s t : Text) : dropBytes (byteSize s) (s ++ t) = t := by
  induction s with
  | nil => simp [byteSize, dropBytes]
  | cons c s ih =>
      have hc := c.utf8Size_pos
      obtain ⟨n, hn⟩ : ∃ n, byteSize (c :: s) = n + 1 :=
        ⟨byteSize (c :: s) - 1, by simp only [byteSize]; omega⟩
      have hrest : n + 1 - c.utf8Size = byteSize s := by
        rw [← hn]; simp only [byteSize]; omega
      rw [hn, List.cons_append, dropBytes, hrest, ih]

theorem takeBytes_append (s t : Text) : takeBytes (byteSize s) (s ++ t) = s := by
  induction s with
  | nil => simp [byteSize, takeBytes]
  | cons c s ih =>
      have hc := c.utf8Size_pos
      obtain ⟨n, hn⟩ : ∃ n, byteSize (c :: s) = n + 1 :=
        ⟨byteSize (c :: s) - 1, by simp only [byteSize]; omega⟩
      have hrest : n + 1 - c.utf8Size = byteSize s := by
        rw [← hn]; simp only [byteSize]; omega
      rw [hn, List.cons_append, takeBytes, hrest, ih]

theorem eq_nil_of_byteSize_eq_zero {s : Text} (h : byteSize s = 0) : s = [] := by
  cases s with
  | nil => rfl
  | cons c s =>
      have hc := c.utf8Size_pos
      simp only [byteSize] at h
      omega

/-- Of two beginnings of a text the one with fewer bytes is a beginning of the other. -/
theorem exists_append_of_byteSize_le {s t u v : Text} (h : s ++ t = u ++ v)
    (hle : byteSize u ≤ byteSize s) : ∃ w, s = u ++ w := by
  rcases List.append_eq_append_iff.1 h with ⟨w, rfl, -⟩ | ⟨w, hs, -⟩
  · rw [byteSize_append] at hle
    obtain rfl := eq_nil_of_byteSize_eq_zero (s := w) (by omega)
    exact ⟨[], by simp⟩
  · exact ⟨w, hs⟩

/-- The slice between the byte positions of a middle part is that part. -/
theorem slice_middle (s t u : Text) :
    slice (s ++ (t ++ u)) (byteSize s) (byteSize s + byteSize t) = t := by
  rw [slice, Nat.add_sub_cancel_left, dropBytes_append, takeBytes_append]

end Text

end AllowedValues
