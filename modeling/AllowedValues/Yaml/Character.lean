import AllowedValues.Text

/-!
The characters of a YAML stream. Line breaks are made uniform before anything else is read: a
carriage return with or without a newline, and the next-line character, count as a newline, while
the line and paragraph separators are breaks that stay what they are.
-/

namespace AllowedValues.Yaml

/-- The separators that end a line and are kept in the text of a scalar. -/
def isSeparator (c : Char) : Bool := c = Char.ofNat 0x2028 || c = Char.ofNat 0x2029

def isBreak (c : Char) : Bool := c = '\n' || isSeparator c

/-- A space or a tab. -/
def isBlank (c : Char) : Bool := c = ' ' || c = '\t'

/-- Whether a text is at its end, at a blank or at a break. -/
def atGap (s : Text) : Bool :=
  match s with
  | [] => true
  | c :: _ => isBlank c || isBreak c

def isAllowed (c : Char) : Bool :=
  let n := c.toNat
  n = 0x09 || n = 0x0A || n = 0x0D || (0x20 ≤ n && n ≤ 0x7E) || n = 0x85 ||
    (0xA0 ≤ n && n ≤ 0xFFFD) || 0x10000 ≤ n

/-- The mark of byte order. At the start of a line it is passed over, and takes up a column. -/
def byteOrderMark : Char := Char.ofNat 0xFEFF

/-- A text with every break that is no separator made a newline. -/
def uniformBreaks : Text → Text
  | [] => []
  | [c] => if c = '\r' ∨ c = Char.ofNat 0x85 then ['\n'] else [c]
  | c :: d :: s =>
      if c = '\r' ∧ d = '\n' then uniformBreaks (d :: s)
      else if c = '\r' ∨ c = Char.ofNat 0x85 then '\n' :: uniformBreaks (d :: s)
      else c :: uniformBreaks (d :: s)

/-- The characters of a stream, if all of them are allowed. -/
def characters? (source : Text) : Option Text :=
  if source.all isAllowed then some (uniformBreaks source) else none

/-- Whether a text begins with three hyphens, or three dots, that stand by themselves. -/
def startsWithMarker (mark : Char) (s : Text) : Bool :=
  s.take 3 = [mark, mark, mark] && atGap (s.drop 3)

/-- Whether a text, at the start of a line, begins with a marker of documents. -/
def atMarker (s : Text) : Bool := startsWithMarker '-' s || startsWithMarker '.' s

end AllowedValues.Yaml
