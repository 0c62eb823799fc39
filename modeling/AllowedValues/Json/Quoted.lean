import AllowedValues.Digit

/-!
Text as a JSON string. The quote, the backslash and the control characters of ASCII are escaped,
and every other character stands for itself.
-/

namespace AllowedValues.Json

def quotedChar (c : Char) : Text :=
  if c = '"' ∨ c = '\\' then ['\\', c]
  else if c = Char.ofNat 8 then "\\b".toList
  else if c = Char.ofNat 12 then "\\f".toList
  else if c = '\n' then "\\n".toList
  else if c = '\r' then "\\r".toList
  else if c = '\t' then "\\t".toList
  else if c.toNat < 32 then "\\u".toList ++ Text.zeroPadded 4 (Text.hexadecimal c.toNat)
  else [c]

def quoted (s : Text) : Text := '"' :: s.flatMap quotedChar ++ ['"']

end AllowedValues.Json
