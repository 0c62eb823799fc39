import AllowedValues.Schema.Fault

/-!
Records and how they are read from a document. The values come in the order of the document, and the
first fault among them is the one reported; that a field is missing is known only after them.
-/

namespace AllowedValues.Schema

/-- A record with fields of the type `φ`. -/
structure Record (φ : Type) where
  fields : List φ
  name : φ → Text
  /-- A second name that a field goes by. -/
  otherName? : φ → Option Text
  /-- Whether a field has no default. -/
  required : φ → Bool
  /-- Whether a name that no field has is a fault. -/
  strict : Bool
  expected : Expected

/-- The values of a record as a document gives them. -/
inductive Parts (ν : Type) where
  /-- Each value with its key, which may be no name at all. -/
  | named (entries : List (Option Text × ν))
  /-- The values of the fields in their order. -/
  | positional (items : List ν)
deriving Repr

structure Values (ν : Type) where
  text : ν → Except Fault Text
  optionalText : ν → Except Fault (Option Text)
  character : ν → Except Fault Char
  items : ν → Except Fault (List ν)
  parts : Expected → ν → Except Fault (Parts ν)
  /-- Passes over a value that nothing needs. -/
  skip : ν → Except Fault Unit

namespace Record

def field? {φ : Type} (r : Record φ) (name : Text) : Option φ :=
  r.fields.find? fun f => r.name f = name || r.otherName? f = some name

def names {φ : Type} (r : Record φ) : List Text := r.fields.map r.name

variable {φ ν σ : Type} [DecidableEq φ]

/-- Puts named values into their fields, of which `seen` have been there already. -/
def readNamed (r : Record φ) (values : Values ν) (set : φ → ν → σ → Except Fault σ)
    (seen : List φ) (s : σ) : List (Option Text × ν) → Except Fault σ
  | [] =>
      match r.fields.find? fun f => r.required f && !seen.contains f with
      | some f => .error (.missingField (r.name f))
      | none => .ok s
  | (none, _) :: _ => .error .malformed
  | (some name, v) :: rest =>
      match r.field? name with
      | none =>
          if r.strict then .error (.unknownField name r.names)
          else do
            values.skip v
            r.readNamed values set seen s rest
      | some f =>
          if seen.contains f then .error (.duplicateField (r.name f))
          else do
            let s ← set f v s
            r.readNamed values set (f :: seen) s rest

/-- Puts values into the fields in their order. Fields at the end may be left out if they have a
default; a value too many is a fault. -/
def readPositional (r : Record φ) (set : φ → ν → σ → Except Fault σ) (s : σ) :
    List φ → List ν → Except Fault σ
  | fs, [] => if fs.any r.required then .error .malformed else .ok s
  | [], _ :: _ => .error .malformed
  | f :: fs, v :: vs => do
      let s ← set f v s
      r.readPositional set s fs vs

/-- Reads a record, starting from its defaults. -/
def read (r : Record φ) (values : Values ν) (set : φ → ν → σ → Except Fault σ) (start : σ)
    (v : ν) : Except Fault σ := do
  match ← values.parts r.expected v with
  | .named entries => r.readNamed values set [] start entries
  | .positional items => r.readPositional set start r.fields items

end Record

end AllowedValues.Schema
