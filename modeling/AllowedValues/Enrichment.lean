import AllowedValues.Argument.List
import AllowedValues.CodeSpan
import AllowedValues.Description
import AllowedValues.Settings
import AllowedValues.Source.Call

/-!
Enriching a description: each recognised call of a source fragment gives a set of values, each set
that is not empty a suffix line, and the lines are appended in order. A fragment that is not well
formed, or has no such call, gives none.
-/

namespace AllowedValues

namespace Settings

/-- The values of each recognised call, in source order. -/
def valueSets (settings : Settings) (fragment : Text) : List (List Text) :=
  (Source.calls settings.package settings.function fragment).map (Argument.values ·.arguments)

/-- The line that lists values, unless there are none. -/
def suffix? (settings : Settings) : List Text → Option Text
  | [] => none
  | value :: values =>
      some (settings.label ++
        Text.join ", ".toList ((value :: values).map (CodeSpan.render settings.delimiter)))

def suffixLines (settings : Settings) (fragment : Text) : List Text :=
  (settings.valueSets fragment).filterMap settings.suffix?

end Settings

def Description.enrich (settings : Settings) (fragments : List Text) (d : Description) :
    Description :=
  (fragments.flatMap settings.suffixLines).foldl appendLine d

end AllowedValues
