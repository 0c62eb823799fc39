import AllowedValues.Json.Tree
import AllowedValues.Schema.Content

/-!
Settings and requests as JSON documents. A record is an object, or an array of its fields in their
order.
-/

namespace AllowedValues.Schema

def found? : Json.Tree → Option Found
  | .null => some .null
  | .boolean b => some (.boolean b)
  | .number (some (.integer n)) => some (.integer n)
  | .number (some (.float x)) => some (.float x)
  | .string (some s) => some (.string s)
  | .array _ => some .sequence
  | .object _ => some .map
  | .number none | .string none | .broken => none

def mismatch (expected : Expected) (t : Json.Tree) : Fault :=
  match found? t with
  | some found => .invalidType found expected
  | none => .malformed

def textOfJson : Json.Tree → Except Fault Text
  | .string (some s) => .ok s
  | t => .error (mismatch .text t)

/-- The values of a JSON document. A value that nothing needs must still be whole. -/
def jsonValues : Values Json.Tree where
  text := textOfJson
  optionalText
    | .null => .ok none
    | t => some <$> textOfJson t
  character
    | .string (some [c]) => .ok c
    | .string (some s) => .error (.invalidValue (.string s) .character)
    | t => .error (mismatch .character t)
  items
    | .array items => .ok items
    | t => .error (mismatch .sequence t)
  parts
    | _, .object members => .ok (.named members)
    | _, .array items => .ok (.positional items)
    | expected, t => .error (mismatch expected t)
  skip t := if t.isWhole then .ok () else .error .malformed

/-- Reads the value of a text, after which nothing may come. -/
def ofJson {α : Type} (read : Json.Tree → Except Fault α) (source : Text) : Except Fault α := do
  let document := Json.Document.read source
  let a ← read document.root
  if document.complete then return a else throw .malformed

def settingsOfJson (source : Text) : Except Fault Settings := ofJson jsonValues.settings source

def requestOfJson (source : Text) : Except Fault Request := ofJson jsonValues.request source

end AllowedValues.Schema
