import AllowedValues.Json.Tree
import AllowedValues.Proofs.Json.Quoted
import AllowedValues.Proofs.Text.Join

/-!
Values in compact writing, with nothing between their parts but commas and colons. Wherever a value
may stand, such a text is read as the value, and as a whole document of it.
-/

namespace AllowedValues.Json

/-- Where a value may stand, the text is read as this one, whatever comes after it. -/
def Writes (t : Tree) (s : Text) : Prop :=
  ∃ ts, Lexes s ts ∧ ∀ mayClose stack,
    ts.foldl Reading.step (.value mayClose stack) = .after t stack

theorem writes_null : Writes .null "null".toList :=
  ⟨[.null], lexes_null, fun _ _ => rfl⟩

theorem writes_quoted (s : Text) : Writes (.string (some s)) (quoted s) :=
  ⟨[.string (some s)], lexes_quoted s, fun _ _ => rfl⟩

/-- An array in compact writing. -/
def writeArray (items : List Text) : Text := '[' :: (Text.join [','] items ++ [']'])

/-- A member of an object in compact writing. -/
def writeMember (key value : Text) : Text := quoted key ++ ':' :: value

/-- An object in compact writing. -/
def writeObject (members : List (Text × Text)) : Text :=
  '{' :: (Text.join [','] (members.map fun m => writeMember m.1 m.2) ++ ['}'])

section Array

variable {parts : List (Tree × Text)}

/-- The items of an array behind the first one, through its end. -/
theorem exists_tokens_of_items (h : ∀ p ∈ parts, Writes p.1 p.2) : ∃ ts,
    Lexes (parts.flatMap (fun p => ',' :: p.2) ++ [']']) ts ∧ ∀ t before stack,
      ts.foldl Reading.step (.after t (.array before :: stack)) =
        .after (.array ((t :: before).reverse ++ parts.map Prod.fst)) stack := by
  induction parts with
  | nil => exact ⟨[.closeArray], lexes_mark rfl, fun t before stack => by simp [Reading.step,
      Reading.readAfter]⟩
  | cons p parts ih =>
      obtain ⟨own, hown, hvalue⟩ := h p List.mem_cons_self
      obtain ⟨rest, hrest, hread⟩ := ih fun q hq => h q (List.mem_cons_of_mem p hq)
      refine ⟨.comma :: (own ++ rest), ?_, fun t before stack => ?_⟩
      · rw [List.flatMap_cons, List.append_assoc, List.cons_append]
        exact .cons (lexes_mark rfl) (hown.append hrest)
      · have hcomma : Reading.step (.after t (.array before :: stack)) .comma =
            .value false (.array (t :: before) :: stack) := rfl
        rw [List.foldl_cons, hcomma, List.foldl_append, hvalue, hread]
        simp

theorem Writes.array (h : ∀ p ∈ parts, Writes p.1 p.2) :
    Writes (.array (parts.map Prod.fst)) (writeArray (parts.map Prod.snd)) := by
  have hopen (mayClose : Bool) (stack : List Frame) :
      Reading.step (.value mayClose stack) .openArray = .value true (.array [] :: stack) := rfl
  cases parts with
  | nil =>
      refine ⟨[.openArray, .closeArray], .cons (lexes_mark rfl) (lexes_mark rfl), fun _ _ => rfl⟩
  | cons p parts =>
      obtain ⟨own, hown, hvalue⟩ := h p List.mem_cons_self
      obtain ⟨rest, hrest, hread⟩ :=
        exists_tokens_of_items fun q hq => h q (List.mem_cons_of_mem p hq)
      refine ⟨.openArray :: (own ++ rest), ?_, fun mayClose stack => ?_⟩
      · rw [writeArray, List.map_cons, Text.join_cons, List.append_assoc, List.flatMap_map]
        exact .cons (lexes_mark rfl) (hown.append hrest)
      · rw [List.foldl_cons, hopen, List.foldl_append, hvalue, hread]
        rfl

end Array

section Object

variable {parts : List (Text × Tree × Text)}

theorem exists_tokens_of_member (key : Text) {value : Text} {t : Tree} (h : Writes t value) : ∃ ts,
    Lexes (writeMember key value) ts ∧ ∀ mayClose before stack,
      ts.foldl Reading.step (.key mayClose before stack) =
        .after t (.object before (some key) :: stack) := by
  obtain ⟨own, hown, hvalue⟩ := h
  refine ⟨.string (some key) :: .colon :: own, ?_, fun mayClose before stack => ?_⟩
  · exact (lexes_quoted key).append (.cons (lexes_mark rfl) hown)
  · have hkey : Reading.step (.key mayClose before stack) (.string (some key)) =
        .colon before (some key) stack := by cases mayClose <;> rfl
    have hcolon : Reading.step (.colon before (some key) stack) .colon =
        .value false (.object before (some key) :: stack) := rfl
    rw [List.foldl_cons, hkey, List.foldl_cons, hcolon, hvalue]

theorem exists_tokens_of_members (h : ∀ p ∈ parts, Writes p.2.1 p.2.2) : ∃ ts,
    Lexes (parts.flatMap (fun p => ',' :: writeMember p.1 p.2.2) ++ ['}']) ts ∧
      ∀ t key before stack,
        ts.foldl Reading.step (.after t (.object before key :: stack)) =
          .after (.object (((key, t) :: before).reverse ++ parts.map fun p => (some p.1, p.2.1)))
            stack := by
  induction parts with
  | nil => exact ⟨[.closeObject], lexes_mark rfl, fun t key before stack => by simp [Reading.step,
      Reading.readAfter]⟩
  | cons p parts ih =>
      obtain ⟨own, hown, hmember⟩ := exists_tokens_of_member p.1 (h p List.mem_cons_self)
      obtain ⟨rest, hrest, hread⟩ := ih fun q hq => h q (List.mem_cons_of_mem p hq)
      refine ⟨.comma :: (own ++ rest), ?_, fun t key before stack => ?_⟩
      · rw [List.flatMap_cons, List.append_assoc, List.cons_append]
        exact .cons (lexes_mark rfl) (hown.append hrest)
      · have hcomma : Reading.step (.after t (.object before key :: stack)) .comma =
            .key false ((key, t) :: before) stack := rfl
        rw [List.foldl_cons, hcomma, List.foldl_append, hmember, hread]
        simp

theorem Writes.object (h : ∀ p ∈ parts, Writes p.2.1 p.2.2) :
    Writes (.object (parts.map fun p => (some p.1, p.2.1)))
      (writeObject (parts.map fun p => (p.1, p.2.2))) := by
  have hopen (mayClose : Bool) (stack : List Frame) :
      Reading.step (.value mayClose stack) .openObject = .key true [] stack := rfl
  cases parts with
  | nil =>
      refine ⟨[.openObject, .closeObject], .cons (lexes_mark rfl) (lexes_mark rfl), fun _ _ => rfl⟩
  | cons p parts =>
      obtain ⟨own, hown, hmember⟩ := exists_tokens_of_member p.1 (h p List.mem_cons_self)
      obtain ⟨rest, hrest, hread⟩ :=
        exists_tokens_of_members fun q hq => h q (List.mem_cons_of_mem p hq)
      refine ⟨.openObject :: (own ++ rest), ?_, fun mayClose stack => ?_⟩
      · rw [writeObject, List.map_cons, List.map_cons, Text.join_cons, List.append_assoc,
          List.flatMap_map, List.flatMap_map]
        exact .cons (lexes_mark rfl) (hown.append hrest)
      · rw [List.foldl_cons, hopen, List.foldl_append, hmember, hread]
        rfl

end Object

/-- A written value with blanks after it is a document of the value. -/
theorem Writes.read {t : Tree} {s blanks : Text} (h : Writes t s)
    (hblanks : ∀ c ∈ blanks, Token.isBlank c = true) : Document.read (s ++ blanks) = ⟨t, true⟩ := by
  obtain ⟨ts, hlexes, hread⟩ := h
  rw [Document.read, hlexes, tokens_of_blanks hblanks, List.append_nil, hread]
  rfl

end AllowedValues.Json
