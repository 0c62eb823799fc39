import AllowedValues.Digit
import AllowedValues.Unicode.GraphemeExtend
import AllowedValues.Unicode.Printable

/-!
Quoted text for messages. Between the quotes a character stands for itself if it is printable and
is not drawn on the character before it; the common controls, the backslash and the quote itself
have a letter after a backslash; every other character is given by its code point in hexadecimal.
-/

namespace AllowedValues.Text

/-- A character by its code point, as in `\u{7f}`. -/
def codePointEscape (c : Char) : Text := '\\' :: 'u' :: '{' :: hexadecimal c.toNat ++ ['}']

/-- One character as it is written inside the quotes `quote`. -/
def quotedChar (quote c : Char) : Text :=
  if c = Char.ofNat 0 then "\\0".toList
  else if c = '\t' then "\\t".toList
  else if c = '\r' then "\\r".toList
  else if c = '\n' then "\\n".toList
  else if c = '\\' ∨ c = quote then ['\\', c]
  else if Unicode.isCombining c || !Unicode.isPrintable c then codePointEscape c
  else [c]

/-- A text between double quotes. A single quote in it stands for itself. -/
def quoted (s : Text) : Text := '"' :: s.flatMap (quotedChar '"') ++ ['"']

/-- A character between single quotes. A double quote stands for itself. -/
def singleQuoted (c : Char) : Text := '\'' :: quotedChar '\'' c ++ ['\'']

end AllowedValues.Text
