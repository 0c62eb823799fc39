import AllowedValues.Text

/-!
The words of the command line: its actions, and the switches that may be given before an action and
to it.
-/

namespace AllowedValues.Command

inductive Style where
  | text
  | json
deriving DecidableEq, Repr

def Style.ofName? (name : Text) : Option Style :=
  if name = "text".toList then some text
  else if name = "json".toList then some json
  else none

inductive Switch where
  | settings
  | verbose
  | help
  | version
  | description
  | style
deriving DecidableEq, Repr

namespace Switch

/-- The letter of a switch, after one hyphen. -/
def letter : Switch → Char
  | settings => 'c'
  | verbose => 'v'
  | help => 'h'
  | version => 'V'
  | description => 'd'
  | style => 'f'

/-- The name of a switch, after two hyphens. -/
def name : Switch → Text
  | settings => "config".toList
  | verbose => "verbose".toList
  | help => "help".toList
  | version => "version".toList
  | description => "description".toList
  | style => "format".toList

def takesValue : Switch → Bool
  | settings | description | style => true
  | verbose | help | version => false

end Switch

inductive Action where
  /-- Enriches a description given on the command line. -/
  | enrich
  /-- Enriches the description of a request in a file. -/
  | file
  | values
deriving DecidableEq, Repr

namespace Action

def all : List Action := [enrich, file, values]

def name : Action → Text
  | enrich => "enrich".toList
  | file => "file".toList
  | values => "values".toList

def ofName? (name : Text) : Option Action := all.find? (·.name = name)

end Action

/-- What may be given at one level of the command line. -/
structure Level where
  switches : List Switch
  /-- The greatest number of operands, if there is one. -/
  operandLimit? : Option Nat
deriving Repr

def Level.outer : Level where
  switches := [.settings, .verbose, .help, .version]
  operandLimit? := some 0

def Action.level : Action → Level
  | enrich => ⟨[.settings, .verbose, .help, .description], none⟩
  | file => ⟨[.settings, .verbose, .help, .style], some 1⟩
  | values => ⟨[.settings, .verbose, .help], some 1⟩

end AllowedValues.Command
