import AllowedValues.Schema.Content
import AllowedValues.Yaml.Value

/-!
Settings and requests as YAML documents. A record is a mapping, a text is any scalar as it is
written, and a value that is not written at all stands for what is empty.
-/

namespace AllowedValues.Schema

/-- Whether a value is not written at all. -/
def isLeftOut : Yaml.Value → Bool
  | .scalar text plain => plain && text.isEmpty
  | _ => false

/-- The ways to write without quotes that there is no text. -/
def nullNames : List Text := ["", "~", "null", "Null", "NULL"].map String.toList

def keyName? : Yaml.Value → Option Text
  | .scalar text _ => some text
  | _ => none

def yamlValues : Values Yaml.Value where
  text
    | .scalar text _ => .ok text
    | _ => .error .malformed
  optionalText
    | .scalar text plain => .ok (if plain && nullNames.contains text then none else some text)
    | _ => .error .malformed
  character
    | .scalar [c] _ => .ok c
    | _ => .error .malformed
  items
    | .sequence items => .ok items
    | v => if isLeftOut v then .ok [] else .error .malformed
  parts
    | _, .mapping entries =>
        .ok (.named (entries.map fun (key, value) => (keyName? key, value)))
    | _, v => if isLeftOut v then .ok (.named []) else .error .malformed
  skip _ := .ok ()

def ofYaml {α : Type} (read : Yaml.Value → Except Fault α) (source : Text) : Except Fault α :=
  match Yaml.Value.ofText? source with
  | some v => read v
  | none => .error .malformed

def settingsOfYaml (source : Text) : Except Fault Settings := ofYaml yamlValues.settings source

def requestOfYaml (source : Text) : Except Fault Request := ofYaml yamlValues.request source

end AllowedValues.Schema
