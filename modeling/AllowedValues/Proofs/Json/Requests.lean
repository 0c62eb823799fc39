import AllowedValues.Command.Outcome
import AllowedValues.Document
import AllowedValues.Proofs.Json.Written

/-!
Requests as JSON documents. A request in compact writing is read as the request, and what a
description is printed as is the request of the description alone.
-/

namespace AllowedValues

open Json (Writes Tree quoted writeArray writeMember writeObject)

section Writing

/-- A description as a value of a JSON document: null if and only if it is absent. -/
def Description.tree (d : Description) : Tree :=
  match d.content with
  | none => .null
  | some content => .string (some content)

/-- A description in JSON. -/
def Description.write (d : Description) : Text :=
  match d.content with
  | none => "null".toList
  | some content => quoted content

theorem Description.writes (d : Description) : Writes d.tree d.write := by
  rw [tree, write]
  split
  · exact Json.writes_null
  · exact Json.writes_quoted _

theorem Description.print_eq (d : Description) : Command.Style.json.print d =
    writeObject [("description".toList, d.write)] ++ ['\n'] := by
  have hprint : Command.Style.json.print d =
      Command.line ("\x7b\"description\":".toList ++ d.write ++ ['}']) := by
    obtain ⟨_ | content⟩ := d <;> rfl
  have hopen : "\x7b\"description\":".toList = '{' :: (quoted "description".toList ++ [':']) := by
    decide
  rw [hprint, hopen]
  simp [Command.line, writeObject, writeMember, Text.join]

theorem Description.read_print (d : Description) : Json.Document.read (Command.Style.json.print d) =
    ⟨.object [(some "description".toList, d.tree)], true⟩ := by
  rw [print_eq]
  refine Writes.read (@Writes.object [("description".toList, _, _)] fun p hp => ?_)
    (List.forall_mem_singleton.2 rfl)
  rw [List.mem_singleton.1 hp]
  exact d.writes

/-- The validator of a source text as a value of a JSON document. -/
def validatorTree (source : Text) : Tree :=
  .object [(some "schema_definition".toList, .string (some source))]

/-- The validator of a source text in JSON. -/
def writeValidator (source : Text) : Text :=
  writeObject [("schema_definition".toList, quoted source)]

theorem writes_validator (source : Text) : Writes (validatorTree source) (writeValidator source) :=
  @Writes.object [("schema_definition".toList, .string (some source), quoted source)]
    (by simpa using Json.writes_quoted source)

namespace Request

/-- The root of the JSON document of a request. -/
def tree (request : Request) : Tree :=
  .object [(some "description".toList, Description.tree ⟨request.description⟩),
    (some "validators".toList, .array (request.validators.map validatorTree))]

/-- A request as a JSON document. -/
def write (request : Request) : Text :=
  writeObject [("description".toList, Description.write ⟨request.description⟩),
    ("validators".toList, writeArray (request.validators.map writeValidator))]

theorem writes (request : Request) : Writes request.tree request.write := by
  have hvalidators : Writes (.array (request.validators.map validatorTree))
      (writeArray (request.validators.map writeValidator)) := by
    have h := @Writes.array
      (request.validators.map fun source => (validatorTree source, writeValidator source))
      (by simpa using fun source _ => writes_validator source)
    simpa [Function.comp_def] using h
  exact @Writes.object [("description".toList, _, _), ("validators".toList, _, _)]
    (by simpa using ⟨Description.writes ⟨request.description⟩, hvalidators⟩)

end Request

end Writing

section Loading

open Schema (jsonValues)

/-- A record goes on with the other parts once a field is set. -/
theorem readNamed_of_field {φ ν σ : Type} [DecidableEq φ] {r : Schema.Record φ}
    {values : Schema.Values ν} {set : φ → ν → σ → Except Schema.Fault σ} {seen : List φ}
    {name : Text} {f : φ} {v : ν} {s s' : σ} (hfield : r.field? name = some f)
    (hseen : seen.contains f = false) (hset : set f v s = .ok s')
    (rest : List (Option Text × ν)) :
    r.readNamed values set seen s ((some name, v) :: rest) =
      r.readNamed values set (f :: seen) s' rest := by
  rw [Schema.Record.readNamed, hfield]
  simp only [hseen, Bool.false_eq_true, if_false, hset]
  rfl

theorem optionalText_tree (d : Description) : jsonValues.optionalText d.tree = .ok d.content := by
  obtain ⟨_ | content⟩ := d <;> rfl

theorem mapM_validatorTree (sources : List Text) :
    (sources.map validatorTree).mapM jsonValues.validator = .ok sources := by
  induction sources with
  | nil => rfl
  | cons source sources ih =>
      have hsource : jsonValues.validator (validatorTree source) = .ok source := rfl
      rw [List.map_cons, List.mapM_cons, hsource, ih]
      rfl

theorem set_description (d : Description) :
    Schema.Values.request.set jsonValues .description d.tree {} = .ok ⟨d.content, []⟩ := by
  rw [Schema.Values.request.set, optionalText_tree]
  rfl

theorem set_validators (description : Option Text) (sources : List Text) :
    Schema.Values.request.set jsonValues .validators (.array (sources.map validatorTree))
      ⟨description, []⟩ = .ok ⟨description, sources⟩ := by
  have hset : Schema.Values.request.set jsonValues .validators (.array (sources.map validatorTree))
      ⟨description, []⟩ = ((sources.map validatorTree).mapM jsonValues.validator).bind
        fun validators => .ok ⟨description, validators⟩ := rfl
  rw [hset, mapM_validatorTree]
  rfl

theorem request_description (d : Description) :
    jsonValues.request (.object [(some "description".toList, d.tree)]) = .ok ⟨d.content, []⟩ := by
  change Schema.request.readNamed jsonValues (Schema.Values.request.set jsonValues) [] {} _ = _
  rw [readNamed_of_field (by decide) rfl (set_description d)]
  rfl

theorem request_tree (request : Request) : jsonValues.request request.tree = .ok request := by
  change Schema.request.readNamed jsonValues (Schema.Values.request.set jsonValues) [] {} _ = _
  rw [readNamed_of_field (by decide) rfl (set_description ⟨request.description⟩),
    readNamed_of_field (by decide) (by decide) (set_validators _ request.validators)]
  rfl

theorem Request.ofDocument_of_read {source : Text} {root : Tree} {request : Request}
    (hread : Json.Document.read source = ⟨root, true⟩) (h : jsonValues.request root = .ok request) :
    Request.ofDocument .json source = .ok request := by
  have hrequest : Schema.requestOfJson source = .ok request := by
    rw [Schema.requestOfJson, Schema.ofJson, hread]
    change (jsonValues.request root).bind _ = _
    rw [h]
    rfl
  simp only [Request.ofDocument, hrequest]

theorem Request.ofDocument_print (d : Description) :
    Request.ofDocument .json (Command.Style.json.print d) = .ok ⟨d.content, []⟩ :=
  Request.ofDocument_of_read d.read_print (request_description d)

/-- A request is read back from the document that it is written as. -/
theorem Request.ofDocument_write (request : Request) :
    Request.ofDocument .json request.write = .ok request := by
  have hread := request.writes.read (List.forall_mem_nil _)
  rw [List.append_nil] at hread
  exact Request.ofDocument_of_read hread (request_tree request)

theorem Request.load_of_ofDocument {contents : Text → Files.Contents} {path source : Text}
    {request : Request} (hpath : Format.ofPath? path = some .json)
    (hsource : contents path = .ok source) (h : Request.ofDocument .json source = .ok request) :
    Request.load contents path = .ok request := by
  rw [Request.load, AllowedValues.load, hpath]
  simp only [hsource, h]

end Loading

end AllowedValues
