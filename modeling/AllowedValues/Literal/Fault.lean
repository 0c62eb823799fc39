import AllowedValues.Text.Quoted

/-!
What can be wrong with a literal.
-/

namespace AllowedValues.Literal

inductive Fault where
  /-- The text does not begin and end with the same quote. -/
  | missingQuotes
  /-- A newline stands inside an interpreted literal. -/
  | rawNewline
  | unescapedQuote
  | invalidEscape (c : Char)
  | truncatedEscape
  /-- An octal escape is no byte. -/
  | octalOutOfRange (value : Nat)
  | invalidCodePoint (value : Nat)
  /-- The bytes of the body are not the UTF-8 form of a text. -/
  | invalidUtf8
deriving DecidableEq, Repr

def Fault.message : Fault → Text
  | missingQuotes => "literal is not quoted".toList
  | rawNewline => "newline in string literal".toList
  | unescapedQuote => "unescaped quote in string literal".toList
  | invalidEscape c => "unknown escape sequence: \\".toList ++ [c]
  | truncatedEscape => "escape sequence not terminated".toList
  | octalOutOfRange value =>
      "octal escape value ".toList ++ Text.decimal value ++ " > 255".toList
  | invalidCodePoint value =>
      "escape sequence is invalid Unicode code point: 0x".toList ++ Text.hexadecimal value
  | invalidUtf8 => "literal bytes are not valid UTF-8".toList

end AllowedValues.Literal
