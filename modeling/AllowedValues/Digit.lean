import AllowedValues.Text

/-!
Digits as characters and as numbers.
-/

namespace AllowedValues

/-- The value of an ASCII digit in a base of at most sixteen. -/
def digitValue? (radix : Nat) (c : Char) : Option Nat :=
  let value? : Option Nat :=
    if c.isDigit then some (c.toNat - '0'.toNat)
    else if 'a' ≤ c ∧ c ≤ 'f' then some (c.toNat - 'a'.toNat + 10)
    else if 'A' ≤ c ∧ c ≤ 'F' then some (c.toNat - 'A'.toNat + 10)
    else none
  value?.filter (· < radix)

namespace Text

/-- The digits of `n` in base ten. -/
def decimal (n : Nat) : Text := Nat.toDigits 10 n

/-- The digits of `n` in base sixteen, in lower case. -/
def hexadecimal (n : Nat) : Text := Nat.toDigits 16 n

/-- A text behind as many zeros as it takes to make it `width` characters long. -/
def zeroPadded (width : Nat) (s : Text) : Text := List.replicate (width - s.length) '0' ++ s

/-- The digits at the start of a text, as numbers, and the text after them. -/
def digitRun (s : Text) : List Nat × Text :=
  (s.takeWhile Char.isDigit |>.map fun c => c.toNat - '0'.toNat, s.dropWhile Char.isDigit)

end Text

end AllowedValues
