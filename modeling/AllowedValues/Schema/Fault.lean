import AllowedValues.Decimal
import AllowedValues.Text.Quoted

/-!
What can be wrong with a document as the record it should hold.
-/

namespace AllowedValues.Schema

inductive Found where
  | null
  | boolean (value : Bool)
  | integer (value : Int)
  | float (value : Float)
  | string (value : Text)
  | sequence
  | map
deriving Repr

inductive Expected where
  | settings
  | request
  | validator
  | text
  | character
  | sequence
deriving DecidableEq, Repr

/-- Why a document does not hold the record it should. -/
inductive Fault where
  /-- The record has no field of this name; the names it has follow. -/
  | unknownField (name : Text) (known : List Text)
  /-- A field without a default is not there. -/
  | missingField (name : Text)
  | duplicateField (name : Text)
  | invalidType (found : Found) (expected : Expected)
  /-- A value is of the right type and not acceptable. -/
  | invalidValue (found : Found) (expected : Expected)
  /-- The text is no document of its format, or a list has the wrong length. -/
  | malformed
deriving Repr

def ticked (s : Text) : Text := '`' :: s ++ ['`']

def Found.wording : Found → Text
  | null => "null".toList
  | boolean true => "boolean `true`".toList
  | boolean false => "boolean `false`".toList
  | integer n =>
      "integer ".toList ++ ticked ((if n < 0 then ['-'] else []) ++ Text.decimal n.natAbs)
  | float x => "floating point ".toList ++ ticked (Decimal.ofFloat x)
  | string s => "string ".toList ++ s.quoted
  | sequence => "sequence".toList
  | map => "map".toList

def Expected.wording : Expected → Text
  | settings => "struct EnrichConfig".toList
  | request => "struct EnrichRequest".toList
  | validator => "struct ValidatorFragment".toList
  | text => "a string".toList
  | character => "a character".toList
  | sequence => "a sequence".toList

/-- The names that may stand in a place, as alternatives. -/
def alternatives : List Text → Text
  | [] => []
  | [a] => ticked a
  | [a, b] => ticked a ++ " or ".toList ++ ticked b
  | names => "one of ".toList ++ Text.join ", ".toList (names.map ticked)

/-- The wording of a fault, apart from those of the format itself. -/
def Fault.detail? : Fault → Option Text
  | unknownField name known =>
      some ("unknown field ".toList ++ ticked name ++ ", expected ".toList ++ alternatives known)
  | missingField name => some ("missing field ".toList ++ ticked name)
  | duplicateField name => some ("duplicate field ".toList ++ ticked name)
  | invalidType found expected =>
      some ("invalid type: ".toList ++ found.wording ++ ", expected ".toList ++ expected.wording)
  | invalidValue found expected =>
      some ("invalid value: ".toList ++ found.wording ++ ", expected ".toList ++ expected.wording)
  | malformed => none

end AllowedValues.Schema
