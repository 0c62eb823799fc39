import AllowedValues.Yaml.Character

/-!
White space inside of plain and quoted scalars. Blanks within a line are kept. Across lines, blanks
at the ends of lines go, a single newline becomes a space, and of several the first one goes.
-/

namespace AllowedValues.Yaml

/-- The white space read since the last visible character, what was read last coming first. -/
inductive Gap where
  | blanks (read : Text)
  /-- Line breaks: the first, unless it was escaped, and the others. -/
  | breaks (first? : Option Char) (others : Text)
deriving DecidableEq, Repr

namespace Gap

def none : Gap := blanks []

def endsLine : Gap → Bool
  | blanks _ => false
  | breaks _ _ => true

def addBlank (c : Char) : Gap → Gap
  | blanks read => blanks (c :: read)
  | breaks first? others => breaks first? others

def addBreak (c : Char) : Gap → Gap
  | blanks _ => breaks (some c) []
  | breaks first? others => breaks first? (c :: others)

def folded : Gap → Text
  | blanks read => read.reverse
  | breaks (some '\n') [] => [' ']
  | breaks (some '\n') others => others.reverse
  | breaks first? others => first?.toList ++ others.reverse

end Gap

end AllowedValues.Yaml
