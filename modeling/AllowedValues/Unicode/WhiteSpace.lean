import AllowedValues.Unicode.Ranges

/-!
White space and control characters.
-/

namespace AllowedValues.Unicode

def whiteSpaceRanges : List (Nat × Nat) :=
  [(0x9, 0xD), (0x20, 0x20), (0x85, 0x85), (0xA0, 0xA0), (0x1680, 0x1680), (0x2000, 0x200A),
   (0x2028, 0x2029), (0x202F, 0x202F), (0x205F, 0x205F), (0x3000, 0x3000)]

/-- White space of any kind, line breaks included. -/
def isWhiteSpace (c : Char) : Bool := inRanges whiteSpaceRanges c.toNat

def controlRanges : List (Nat × Nat) :=
  [(0x0, 0x1F), (0x7F, 0x9F)]

def isControl (c : Char) : Bool := inRanges controlRanges c.toNat

end AllowedValues.Unicode
