import AllowedValues.Command.Invocation
import AllowedValues.Document
import AllowedValues.Json.Quoted

/-!
What a command line comes to: a text that is printed, or a fault.
-/

namespace AllowedValues.Command

inductive Outcome where
  | printed (text : Text)
  | failed (fault : LoadFault)
  | misused
deriving Repr

namespace Outcome

def status : Outcome → Nat
  | printed _ => 0
  | failed _ => 1
  | misused => 2

def output : Outcome → Text
  | printed text => text
  | failed _ | misused => []

/-- The complaint about settings or a request. -/
def complaint? : Outcome → Option Text
  | failed fault => some ("Error: ".toList ++ fault.message)
  | printed _ | misused => none

/-- What is wrong with a document, to be told after the complaint. -/
def detail? : Outcome → Option Text
  | failed fault => fault.detail?
  | printed _ | misused => none

end Outcome

def versionLine : Text := "valdoc 0.1.0\n".toList

def line (s : Text) : Text := s ++ ['\n']

def Style.print (d : Description) : Style → Text
  | text => line d.text
  | json =>
      let value := match d.content with
        | none => "null".toList
        | some content => Json.quoted content
      line ("\x7b\"description\":".toList ++ value ++ ['}'])

/-- Sets of values as they are printed: a value on each line, and an empty line between two sets. -/
def printSets : List (List Text) → Text
  | [] => []
  | sets => line (Text.join "\n\n".toList (sets.map (Text.join ['\n'])))

def Task.run (settings : Settings) (contents : Text → Files.Contents) : Task → Outcome
  | enrich description fragments =>
      .printed (Style.text.print (Description.enrich settings fragments ⟨description⟩))
  | file path style =>
      match Request.load contents path with
      | .error fault => .failed fault
      | .ok request => .printed (style.print (request.enrich settings))
  | values fragment => .printed (printSets (settings.valueSets fragment))

/-- Carries out what is asked for. The settings come first, so that a fault in them is the one
reported. -/
def Invocation.run (contents : Text → Files.Contents) (i : Invocation) : Outcome :=
  match i.settingsPath? with
  | none => i.task.run {} contents
  | some path =>
      match Settings.load contents path with
      | .error fault => .failed fault
      | .ok settings => i.task.run settings contents

/-- The outcome of a command line, given what each path holds. -/
def outcome (contents : Text → Files.Contents) (arguments : List Text) : Outcome :=
  match Invocation.ofArguments arguments with
  | .ok invocation => invocation.run contents
  | .error .misuse => .misused
  | .error .help => .printed []
  | .error .version => .printed versionLine

/-- The paths that are read to carry out what is asked for. -/
def Invocation.paths (i : Invocation) : List Text :=
  let paths := i.settingsPath?.toList ++ match i.task with
    | .file path _ => [path]
    | .enrich _ _ | .values _ => []
  paths.filter fun path => (Format.ofPath? path).isSome

end AllowedValues.Command
