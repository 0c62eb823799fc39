import AllowedValues.Files.Contents
import AllowedValues.Files.Path
import AllowedValues.Schema.OfJson
import AllowedValues.Schema.OfYaml

/-!
Documents that hold settings or a request. The extension of a file decides on its format before
anything is read; settings must be usable, a request need not recognise anything.
-/

namespace AllowedValues

inductive Format where
  | json
  | yaml
deriving DecidableEq, Repr

def Format.name : Format → Text
  | json => "JSON".toList
  | yaml => "YAML".toList

/-- The format of a file, by its extension in either case of letters. -/
def Format.ofPath? (path : Text) : Option Format :=
  match Files.extension? path with
  | none => none
  | some extension =>
      let extension := extension.map Char.toLower
      if extension = "json".toList then some json
      else if extension = "yaml".toList ∨ extension = "yml".toList then some yaml
      else none

/-- Why there are no settings, or no request. -/
inductive LoadFault where
  | unknownFormat (path : Text)
  | unreadable (path : Text) (fault : Files.Fault)
  | invalidDocument (format : Format) (fault : Schema.Fault)
  | invalidSettings (fault : Settings.Fault)
deriving Repr

namespace LoadFault

/-- The wording of a fault. What is wrong with a document is told apart from it. -/
def message : LoadFault → Text
  | unknownFormat path =>
      "Unsupported file type: ".toList ++ path ++ " (expected .json, .yaml or .yml)".toList
  | unreadable path fault => "Cannot read ".toList ++ path ++ ": ".toList ++ fault.message
  | invalidDocument format _ => "Invalid ".toList ++ format.name ++ " document: ".toList
  | invalidSettings fault => fault.message

/-- What is wrong with a JSON document as the record it should hold. -/
def detail? : LoadFault → Option Text
  | invalidDocument .json fault => fault.detail?
  | _ => none

end LoadFault

/-- The settings of a document, which must be usable. -/
def Settings.ofDocument (format : Format) (source : Text) : Except LoadFault Settings :=
  let settings := match format with
    | .json => Schema.settingsOfJson source
    | .yaml => Schema.settingsOfYaml source
  match settings with
  | .error fault => .error (.invalidDocument format fault)
  | .ok settings =>
      match settings.fault? with
      | some fault => .error (.invalidSettings fault)
      | none => .ok settings

def Request.ofDocument (format : Format) (source : Text) : Except LoadFault Request :=
  let request := match format with
    | .json => Schema.requestOfJson source
    | .yaml => Schema.requestOfYaml source
  match request with
  | .error fault => .error (.invalidDocument format fault)
  | .ok request => .ok request

/-- Reads the document of a path, given what each path holds. -/
def load {α : Type} (ofDocument : Format → Text → Except LoadFault α)
    (contents : Text → Files.Contents) (path : Text) : Except LoadFault α :=
  match Format.ofPath? path with
  | none => .error (.unknownFormat path)
  | some format =>
      match contents path with
      | .error fault => .error (.unreadable path fault)
      | .ok source => ofDocument format source

def Settings.load (contents : Text → Files.Contents) (path : Text) : Except LoadFault Settings :=
  AllowedValues.load Settings.ofDocument contents path

def Request.load (contents : Text → Files.Contents) (path : Text) : Except LoadFault Request :=
  AllowedValues.load Request.ofDocument contents path

end AllowedValues
