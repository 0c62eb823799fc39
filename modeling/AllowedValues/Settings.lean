import AllowedValues.Identifier
import AllowedValues.Text.Quoted
import AllowedValues.Unicode.WhiteSpace

/-!
Which call is recognised and how its values are listed. A field that a document leaves out has its
default.
-/

namespace AllowedValues

/-- The settings of an enrichment. -/
structure Settings where
  /-- The package of the recognised call. -/
  package : Text := "stringvalidator".toList
  /-- The function of the recognised call. -/
  function : Text := "OneOf".toList
  /-- The text before the list of values. -/
  label : Text := "Possible values: ".toList
  /-- The character around each value. -/
  delimiter : Char := '`'
deriving DecidableEq, Repr

namespace Settings

inductive Field where
  | package
  | function
  | label
  | delimiter
deriving DecidableEq, Repr

def Field.all : List Field := [.package, .function, .label, .delimiter]

def Field.name : Field → Text
  | package => "package".toList
  | function => "function".toList
  | label => "label".toList
  | delimiter => "delimiter".toList

inductive Fault where
  /-- A package or function that no source text can name. -/
  | notIdentifier (field : Field) (value : Text)
  /-- A delimiter that cannot be seen. -/
  | invisibleDelimiter (delimiter : Char)
deriving DecidableEq, Repr

def Fault.message : Fault → Text
  | notIdentifier field value => wording field (value.quoted ++ " is not an identifier".toList)
  | invisibleDelimiter c =>
      wording .delimiter (Text.singleQuoted c ++ " is not a visible character".toList)
where
  wording (field : Field) (reason : Text) : Text :=
    "Invalid value for '".toList ++ field.name ++ "': ".toList ++ reason

/-- The first thing that makes settings unusable, if there is one: package and function must be
identifiers, the delimiter neither white space nor a control character. -/
def fault? (s : Settings) : Option Fault :=
  if !s.package.isIdentifier then some (.notIdentifier .package s.package)
  else if !s.function.isIdentifier then some (.notIdentifier .function s.function)
  else if Unicode.isWhiteSpace s.delimiter || Unicode.isControl s.delimiter then
    some (.invisibleDelimiter s.delimiter)
  else none

end Settings

end AllowedValues
