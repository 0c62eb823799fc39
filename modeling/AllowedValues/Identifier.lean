import AllowedValues.Text
import AllowedValues.Unicode.Alphabetic
import AllowedValues.Unicode.Numeric

/-!
Identifiers: a letter of any script or an underscore, then letters, number characters and
underscores.
-/

namespace AllowedValues

def isIdentifierStart (c : Char) : Bool := c = '_' || Unicode.isAlphabetic c

/-- A character that may stand inside an identifier. -/
def isIdentifierPart (c : Char) : Bool :=
  c = '_' || Unicode.isAlphabetic c || Unicode.isNumeric c

def Text.isIdentifier : Text → Bool
  | [] => false
  | c :: s => isIdentifierStart c && s.all isIdentifierPart

end AllowedValues
