/-!
Sets of characters given as closed ranges of code points, in ascending order. All tables of this
folder are those of Unicode 17.
-/

namespace AllowedValues.Unicode

/-- Whether the code point `n` lies in one of the ranges, which ascend: the first range that starts
above `n` ends the search. -/
def inRanges : List (Nat × Nat) → Nat → Bool
  | [], _ => false
  | (low, high) :: rest, n => low ≤ n && (n ≤ high || inRanges rest n)

end AllowedValues.Unicode
