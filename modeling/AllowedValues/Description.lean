import AllowedValues.Text

/-!
The description of an attribute: a text, or none at all. Lines are only ever added at its end, and
a line that already occupies whole lines of the text is not added again.
-/

namespace AllowedValues

/-- A description, which may be absent. -/
structure Description where
  content : Option Text := none
deriving DecidableEq, Repr

namespace Description

/-- The text of a description, empty if it is absent. -/
def text (d : Description) : Text := d.content.getD []

/-- Searches a text for a block of lines, from left to right. An occurrence counts if it begins a
line and ends one; the search goes on after an occurrence, so occurrences do not overlap. `fresh`
says that the text begins a line. -/
def holdsBlock (block : Text) (fresh : Bool) : Text → Bool
  | [] => false
  | c :: s =>
      if block.isPrefixOf (c :: s) then
        let rest := s.drop (block.length - 1)
        fresh && (rest = [] || rest.head? = some '\n') ||
          holdsBlock block (block.getLast? = some '\n') rest
      else holdsBlock block (c = '\n') s
termination_by s => s.length
decreasing_by all_goals simp only [List.length_cons, List.length_drop]; omega

/-- Whether a line, or a block of lines, already occupies whole lines of a description. -/
def containsLine (d : Description) (line : Text) : Bool :=
  line ≠ [] && holdsBlock line true d.text

/-- Whether a line is still to be added: it is not empty and not there yet. -/
def lacksLine (d : Description) (line : Text) : Bool :=
  line ≠ [] && !d.containsLine line

/-- Adds a line at the end, after a newline if there is text before it. -/
def appendLine (d : Description) (line : Text) : Description :=
  if d.lacksLine line then
    ⟨some (if d.text = [] then line else d.text ++ '\n' :: line)⟩
  else d

end Description

end AllowedValues
