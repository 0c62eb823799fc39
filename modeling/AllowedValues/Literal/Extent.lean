import AllowedValues.Text

/-!
How far a literal or a comment reaches. Lengths are numbers of characters after the opening quote,
or after the two characters that open a comment.
-/

namespace AllowedValues.Literal

/-- The length of the longest run of complete units at the start of a quoted body: a unit is a
character other than the quote, a backslash and a newline, or a backslash with a character other
than a newline after it. -/
def bodyLength (quote : Char) : Text → Nat
  | [] => 0
  | [c] => if c = quote ∨ c = '\\' ∨ c = '\n' then 0 else 1
  | c :: d :: s =>
      if c = '\\' then if d = '\n' then 0 else bodyLength quote s + 2
      else if c = quote ∨ c = '\n' then 0
      else bodyLength quote (d :: s) + 1

/-- The length of a quoted body together with its closing quote, if the quote comes right after the
complete units. -/
def closedLength? (quote : Char) (s : Text) : Option Nat :=
  let n := bodyLength quote s
  if (s.drop n).head? = some quote then some (n + 1) else none

/-- The length of a raw body together with its closing backtick, if there is one. -/
def rawLength? : Text → Option Nat
  | [] => none
  | c :: s => if c = '`' then some 1 else (rawLength? s).map (· + 1)

/-- The length of the text through the first `*/`, if there is one. -/
def blockCommentLength? : Text → Option Nat
  | [] => none
  | [_] => none
  | c :: d :: s =>
      if c = '*' ∧ d = '/' then some 2 else (blockCommentLength? (d :: s)).map (· + 1)

def lineLength (s : Text) : Nat := (s.takeWhile (· ≠ '\n')).length

end AllowedValues.Literal
