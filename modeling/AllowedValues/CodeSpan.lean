import AllowedValues.Text.Quoted
import AllowedValues.Unicode.WhiteSpace

/-!
Inline code spans. A value is written between two fences of delimiters. A fence is one delimiter
longer than the longest run of delimiters in the value, so the value cannot close it, and a value
that holds delimiters is padded with a space on each side. Control characters are written as
escapes, so a span is always on one line.
-/

namespace AllowedValues.CodeSpan

def escapeChar (c : Char) : Text :=
  if c = '\n' then "\\n".toList
  else if c = '\r' then "\\r".toList
  else if c = '\t' then "\\t".toList
  else if Unicode.isControl c then Text.codePointEscape c
  else [c]

/-- A value without control characters. -/
def escapeControls (value : Text) : Text := value.flatMap escapeChar

/-- The length of the run of delimiters at the start, and of the longest run. -/
def runs (delimiter : Char) : Text → Nat × Nat
  | [] => (0, 0)
  | c :: s =>
      let (lead, longest) := runs delimiter s
      if c = delimiter then (lead + 1, max (lead + 1) longest) else (0, longest)

def longestRun (delimiter : Char) (s : Text) : Nat := (runs delimiter s).2

/-- The code span of a content, which has its control characters escaped already. -/
def wrap (delimiter : Char) (content : Text) : Text :=
  let longest := longestRun delimiter content
  let fence := List.replicate (longest + 1) delimiter
  if longest = 0 then fence ++ content ++ fence
  else fence ++ ' ' :: content ++ ' ' :: fence

/-- A value as an inline code span. -/
def render (delimiter : Char) (value : Text) : Text := wrap delimiter (escapeControls value)

end AllowedValues.CodeSpan
