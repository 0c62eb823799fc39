import AllowedValues.Yaml.Tokens

/-!
The node of a YAML stream that holds at most one document. Each reader gives the tokens after what
it has read, with a proof that they are fewer.
-/

namespace AllowedValues.Yaml

inductive Node where
  | scalar (text : Text) (plain : Bool)
  | sequence (items : List Node)
  | mapping (entries : List (Node × Node))
  | anchored (name : Text) (node : Node)
  /-- An alias: the node that an anchor names. -/
  | reference (name : Text)
deriving Repr

namespace Node

/-- A node that is not written at all. -/
def empty : Node := scalar [] true

/-- Fewer tokens than `ts`. -/
abbrev Rest (ts : List Token) := { rest : List Token // rest.length < ts.length }

/-- At most as many tokens as `ts`. -/
abbrev Within (ts : List Token) := { rest : List Token // rest.length ≤ ts.length }

def startsWith (heads : List Token) (ts : List Token) : Bool := ts.head?.any heads.contains

/-- Whether tokens begin with the content of a node. A sequence that is the value of a key may stand
at the column of the key, as its hyphens alone. -/
def startsContent (block hyphens : Bool) : List Token → Bool
  | .scalar _ _ :: _ | .openSequence :: _ | .openMapping :: _ => true
  | .blockSequence :: _ | .blockMapping :: _ => block
  | .dash :: _ => hyphens
  | _ => false

/-- A node where one may be left out: the tokens `absent` show that it is. -/
def orEmpty (absent : List Token) (ts : List Token) (node? : Option (Node × Rest ts)) :
    Option (Node × Within ts) :=
  if startsWith absent ts then some (empty, ⟨ts, Nat.le_refl _⟩)
  else node?.map fun (node, rest) => (node, ⟨rest.1, Nat.le_of_lt rest.2⟩)

/-- The tokens, or those after the first of them. -/
def passIf (passes : Bool) (ts : List Token) : Within ts :=
  ⟨if passes then ts.drop 1 else ts, by split <;> simp⟩

mutual

/-- Reads a node with its anchor, if it has one. After an anchor the node may be left out. -/
def read? (block hyphens : Bool) (ts : List Token) : Option (Node × Rest ts) :=
  match ts with
  | .reference name :: rest => some (reference name, ⟨rest, by simp⟩)
  | .anchor name :: rest =>
      if startsContent block hyphens rest then
        match readContent? block hyphens rest with
        | none => none
        | some (node, ⟨r, hr⟩) =>
            some (anchored name node, ⟨r, by simp only [List.length_cons]; omega⟩)
      else some (anchored name empty, ⟨rest, by simp⟩)
  | ts => readContent? block hyphens ts
termination_by 3 * ts.length + 1

def readContent? (block hyphens : Bool) (ts : List Token) : Option (Node × Rest ts) :=
  match ts with
  | .scalar text plain :: rest => some (scalar text plain, ⟨rest, by simp⟩)
  | .openSequence :: rest =>
      match readFlowItems? rest with
      | none => none
      | some (items, ⟨r, hr⟩) =>
          some (sequence items, ⟨r, by simp only [List.length_cons]; omega⟩)
  | .openMapping :: rest =>
      match readFlowEntries? rest with
      | none => none
      | some (entries, ⟨r, hr⟩) =>
          some (mapping entries, ⟨r, by simp only [List.length_cons]; omega⟩)
  | .blockSequence :: rest =>
      if !block then none
      else
        match readItems? rest with
        | none => none
        | some (items, ⟨r, hr⟩) =>
            some (sequence items, ⟨r, by simp only [List.length_cons]; omega⟩)
  | .blockMapping :: rest =>
      if !block then none
      else
        match readEntries? rest with
        | none => none
        | some (entries, ⟨r, hr⟩) =>
            some (mapping entries, ⟨r, by simp only [List.length_cons]; omega⟩)
  | .dash :: rest =>
      if !hyphens then none
      else
        match orEmpty [.dash, .key, .value, .blockEnd] rest (read? true false rest) with
        | none => none
        | some (item, ⟨r, hr⟩) =>
            match readHyphens? r with
            | none => none
            | some (items, ⟨r', hr'⟩) =>
                some (sequence (item :: items), ⟨r', by simp only [List.length_cons]; omega⟩)
  | _ => none
termination_by 3 * ts.length

/-- Reads the entries of a block sequence through its end. -/
def readItems? (ts : List Token) : Option (List Node × Rest ts) :=
  match ts with
  | .blockEnd :: rest => some ([], ⟨rest, by simp⟩)
  | .dash :: rest =>
      match orEmpty [.dash, .blockEnd] rest (read? true false rest) with
      | none => none
      | some (item, ⟨r, hr⟩) =>
          match readItems? r with
          | none => none
          | some (items, ⟨r', hr'⟩) =>
              some (item :: items, ⟨r', by simp only [List.length_cons]; omega⟩)
  | _ => none
termination_by 3 * ts.length

/-- Reads the entries of a sequence that has no end of its own. -/
def readHyphens? (ts : List Token) : Option (List Node × Within ts) :=
  match ts with
  | .dash :: rest =>
      match orEmpty [.dash, .key, .value, .blockEnd] rest (read? true false rest) with
      | none => none
      | some (item, ⟨r, hr⟩) =>
          match readHyphens? r with
          | none => none
          | some (items, ⟨r', hr'⟩) =>
              some (item :: items, ⟨r', by simp only [List.length_cons]; omega⟩)
  | ts => some ([], ⟨ts, Nat.le_refl _⟩)
termination_by 3 * ts.length

/-- Reads the entries of a block mapping through its end. -/
def readEntries? (ts : List Token) : Option (List (Node × Node) × Rest ts) :=
  match ts with
  | .blockEnd :: rest => some ([], ⟨rest, by simp⟩)
  | .key :: rest =>
      match orEmpty [.key, .value, .blockEnd] rest (read? true true rest) with
      | none => none
      | some (k, ⟨r, hr⟩) =>
          match readValue? true [.key, .value, .blockEnd] r with
          | none => none
          | some (v, ⟨r', hr'⟩) =>
              match readEntries? r' with
              | none => none
              | some (entries, ⟨r'', hr''⟩) =>
                  some ((k, v) :: entries, ⟨r'', by simp only [List.length_cons]; omega⟩)
  | _ => none
termination_by 3 * ts.length

/-- Reads the value of a key, which may be left out with its colon or without it. -/
def readValue? (block : Bool) (absent : List Token) (ts : List Token) :
    Option (Node × Within ts) :=
  match ts with
  | .value :: rest =>
      match orEmpty absent rest (read? block block rest) with
      | none => none
      | some (v, ⟨r, hr⟩) => some (v, ⟨r, by simp only [List.length_cons]; omega⟩)
  | ts => some (empty, ⟨ts, Nat.le_refl _⟩)
termination_by 3 * ts.length

/-- Reads the entries of a flow sequence through its end. An entry may be a single pair of key and
value; where the key of a pair is left out, the token after its mark is passed over. -/
def readFlowItems? (ts : List Token) : Option (List Node × Rest ts) :=
  match ts with
  | .closeSequence :: rest => some ([], ⟨rest, by simp⟩)
  | .key :: rest =>
      let skipped := startsWith [.value, .comma, .closeSequence] rest
      match orEmpty [.value, .comma, .closeSequence] rest (read? false false rest) with
      | none => none
      | some (k, ⟨r, hr⟩) =>
          match passIf skipped r with
          | ⟨tail, htail⟩ =>
              match readValue? false [.comma, .closeSequence] tail with
              | none => none
              | some (v, ⟨r', hr'⟩) =>
                  match readMoreItems? r' with
                  | none => none
                  | some (items, ⟨r'', hr''⟩) =>
                      some (mapping [(k, v)] :: items,
                        ⟨r'', by simp only [List.length_cons]; omega⟩)
  | ts =>
      match read? false false ts with
      | none => none
      | some (item, ⟨r, hr⟩) =>
          match readMoreItems? r with
          | none => none
          | some (items, ⟨r', hr'⟩) => some (item :: items, ⟨r', by omega⟩)
termination_by 3 * ts.length + 2

/-- Reads what follows on an entry of a flow sequence, through the end of the sequence. -/
def readMoreItems? (ts : List Token) : Option (List Node × Rest ts) :=
  match ts with
  | .closeSequence :: rest => some ([], ⟨rest, by simp⟩)
  | .comma :: rest =>
      match readFlowItems? rest with
      | none => none
      | some (items, ⟨r, hr⟩) => some (items, ⟨r, by simp only [List.length_cons]; omega⟩)
  | _ => none
termination_by 3 * ts.length

/-- Reads the entries of a flow mapping through its end. A key without a mark has no value. -/
def readFlowEntries? (ts : List Token) : Option (List (Node × Node) × Rest ts) :=
  match ts with
  | .closeMapping :: rest => some ([], ⟨rest, by simp⟩)
  | .key :: rest =>
      match orEmpty [.value, .comma, .closeMapping] rest (read? false false rest) with
      | none => none
      | some (k, ⟨r, hr⟩) =>
          match readValue? false [.comma, .closeMapping] r with
          | none => none
          | some (v, ⟨r', hr'⟩) =>
              match readMoreEntries? r' with
              | none => none
              | some (entries, ⟨r'', hr''⟩) =>
                  some ((k, v) :: entries, ⟨r'', by simp only [List.length_cons]; omega⟩)
  | ts =>
      match read? false false ts with
      | none => none
      | some (k, ⟨r, hr⟩) =>
          match readMoreEntries? r with
          | none => none
          | some (entries, ⟨r', hr'⟩) => some ((k, empty) :: entries, ⟨r', by omega⟩)
termination_by 3 * ts.length + 2

/-- Reads what follows on an entry of a flow mapping, through the end of the mapping. -/
def readMoreEntries? (ts : List Token) : Option (List (Node × Node) × Rest ts) :=
  match ts with
  | .closeMapping :: rest => some ([], ⟨rest, by simp⟩)
  | .comma :: rest =>
      match readFlowEntries? rest with
      | none => none
      | some (entries, ⟨r, hr⟩) => some (entries, ⟨r, by simp only [List.length_cons]; omega⟩)
  | _ => none
termination_by 3 * ts.length

end

/-- The node of a stream. A stream without a document, or with an empty one, has the empty node;
only marks of the end may follow on a document. -/
def ofTokens? : List Token → Option Node
  | [] => some empty
  | .documentStart :: rest =>
      if rest = [] || startsWith [.documentStart, .documentEnd] rest then ended? empty rest
      else (read? true false rest).bind fun (node, r) => ended? node r.1
  | ts => (read? true false ts).bind fun (node, r) => ended? node r.1
where
  /-- The node, if the document has ended and no other begins. -/
  ended? (node : Node) (ts : List Token) : Option Node :=
    if ts.all (· = .documentEnd) then some node else none

def ofText? (source : Text) : Option Node := (tokens? source).bind ofTokens?

end Node

end AllowedValues.Yaml
