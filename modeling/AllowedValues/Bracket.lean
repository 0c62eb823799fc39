/-!
The three kinds of bracket.
-/

namespace AllowedValues

inductive Bracket where
  | paren
  | square
  | curly
deriving DecidableEq, Repr

namespace Bracket

def ofOpening? : Char → Option Bracket
  | '(' => some paren
  | '[' => some square
  | '{' => some curly
  | _ => none

def ofClosing? : Char → Option Bracket
  | ')' => some paren
  | ']' => some square
  | '}' => some curly
  | _ => none

end Bracket

end AllowedValues
