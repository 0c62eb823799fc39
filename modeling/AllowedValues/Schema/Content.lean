import AllowedValues.Request
import AllowedValues.Schema.Record

/-!
The records that documents hold: settings, requests and the validators of a request.
-/

namespace AllowedValues.Schema

def settings : Record Settings.Field where
  fields := Settings.Field.all
  name := Settings.Field.name
  otherName? _ := none
  required _ := false
  strict := true
  expected := .settings

/-- The one field of a validator: its source text. -/
inductive ValidatorField where
  | sourceText
deriving DecidableEq, Repr

/-- The record of a validator. Other fields may stand beside the source text. -/
def validator : Record ValidatorField where
  fields := [.sourceText]
  name _ := "schema_definition".toList
  otherName? _ := some "source_text".toList
  required _ := true
  strict := false
  expected := .validator

inductive RequestField where
  | description
  | validators
deriving DecidableEq, Repr

def request : Record RequestField where
  fields := [.description, .validators]
  name
    | .description => "description".toList
    | .validators => "validators".toList
  otherName? _ := none
  required _ := false
  strict := true
  expected := .request

namespace Values

variable {ν : Type}

def settings (values : Values ν) (v : ν) : Except Fault Settings :=
  Schema.settings.read values set {} v
where
  set : Settings.Field → ν → Settings → Except Fault Settings
    | .package, v, s => do return { s with package := ← values.text v }
    | .function, v, s => do return { s with function := ← values.text v }
    | .label, v, s => do return { s with label := ← values.text v }
    | .delimiter, v, s => do return { s with delimiter := ← values.character v }

/-- The source text of a value that is a validator. -/
def validator (values : Values ν) (v : ν) : Except Fault Text :=
  Schema.validator.read values (fun _ v _ => values.text v) [] v

def request (values : Values ν) (v : ν) : Except Fault Request :=
  Schema.request.read values set {} v
where
  set : RequestField → ν → Request → Except Fault Request
    | .description, v, r => do return { r with description := ← values.optionalText v }
    | .validators, v, r => do
        return { r with validators := ← (← values.items v).mapM values.validator }

end Values

end AllowedValues.Schema
