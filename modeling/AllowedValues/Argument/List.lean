import AllowedValues.Argument.Lexeme
import AllowedValues.Literal.Value

/-!
The arguments of an argument list, and the values among them. Commas outside of brackets part the
list; a part without a lexeme is no argument. An argument has a value if it is exactly one string
literal that can be decoded.
-/

namespace AllowedValues.Argument

/-- The bracket depth after a lexeme. Closing brackets that nothing opened count for nothing. -/
def depthAfter (depth : Nat) : Lexeme.Class → Nat
  | .opening _ => depth + 1
  | .closing _ => depth - 1
  | _ => depth

/-- The parts between the commas of depth zero, the first one apart, for lexemes that begin at the
given depth. -/
def partsFrom (depth : Nat) : List Lexeme → List Lexeme × List (List Lexeme)
  | [] => ([], [])
  | l :: ls =>
      if l.cls = .comma ∧ depth = 0 then
        let (part, parts) := partsFrom 0 ls
        ([], part :: parts)
      else
        let (part, parts) := partsFrom (depthAfter depth l.cls) ls
        (l :: part, parts)

def arguments (source : Text) : List (List Lexeme) :=
  let (part, parts) := partsFrom 0 (lexemes source)
  (part :: parts).filter (!·.isEmpty)

/-- The value of an argument, if it is one string literal that can be decoded. -/
def value? : List Lexeme → Option Text
  | [l] =>
      if l.cls = .interpretedString ∨ l.cls = .rawString then (Literal.value l.text).toOption
      else none
  | _ => none

/-- The values of an argument list, in order. -/
def values (source : Text) : List Text := (arguments source).filterMap value?

end AllowedValues.Argument
