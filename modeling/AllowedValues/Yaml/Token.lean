import AllowedValues.Yaml.BlockScalar

/-!
Tokens of a YAML stream. Block collections are given by their indentation: a collection begins where
an entry is indented more than the collection around it, and ends where the indentation falls below
its own. Whether a node is a key is known only when the colon after it comes, so the mark of a key
is put before tokens already read.
-/

namespace AllowedValues.Yaml

inductive Token where
  | documentStart
  | documentEnd
  | blockSequence
  | blockMapping
  | blockEnd
  | openSequence
  | closeSequence
  | openMapping
  | closeMapping
  | dash
  | comma
  | key
  | value
  | anchor (name : Text)
  /-- An alias: the node that an anchor names. -/
  | reference (name : Text)
  | scalar (text : Text) (plain : Bool)
deriving DecidableEq, Repr

/-- A place in a stream: the line, the characters before it on the line, and the bytes of UTF-8
before it in the stream. -/
structure Place where
  line : Nat := 0
  column : Nat := 0
  offset : Nat := 0
deriving DecidableEq, Repr

def Place.next (p : Place) (c : Char) : Place :=
  let offset := p.offset + c.utf8Size
  if isBreak c then ⟨p.line + 1, 0, offset⟩ else ⟨p.line, p.column + 1, offset⟩

def Place.after (p : Place) (s : Text) : Place := s.foldl next p

/-- A node that becomes a key if a colon follows. -/
structure Candidate where
  /-- The node must be a key: it begins at the column of the block collection around it. -/
  required : Bool
  /-- The number of tokens before the node. -/
  index : Nat
  place : Place
deriving DecidableEq, Repr

/-- A candidate that is too far back: a key is on one line and within 1024 bytes. -/
def Candidate.isStale (p : Place) (k : Candidate) : Bool :=
  k.place.line < p.line || k.place.offset + 1024 < p.offset

/-- What is known while tokens are read. -/
structure Scan where
  tokens : Array Token := #[]
  /-- The columns of the open block collections, the innermost first. -/
  indents : List Nat := []
  /-- Whether a candidate may begin here. -/
  mayBeKey : Bool := true
  /-- The candidate of the innermost flow collection, or of the block collections. -/
  candidate? : Option Candidate := none
  /-- The candidates around the innermost flow collection. -/
  outer : List (Option Candidate) := []
deriving Repr

namespace Scan

def inFlow (s : Scan) : Bool := !s.outer.isEmpty

def push (t : Token) (s : Scan) : Scan := { s with tokens := s.tokens.push t }

/-- Gives the candidate up, which is a fault if it must be a key. -/
def dropCandidate? (s : Scan) : Option Scan :=
  if s.candidate?.any (·.required) then none else some { s with candidate? := none }

/-- Makes the next token a candidate, if one may begin here. -/
def noteCandidate? (p : Place) (s : Scan) : Option Scan :=
  if !s.mayBeKey then some s
  else
    s.dropCandidate?.map fun s =>
      { s with
        candidate? := some
          { required := !s.inFlow && s.indents.head? = some p.column
            index := s.tokens.size
            place := p } }

/-- Gives the candidate up if it is too far back. -/
def dropStale? (p : Place) (s : Scan) : Option Scan :=
  if s.candidate?.any (·.isStale p) then s.dropCandidate? else some s

/-- Begins a block collection before the token of an index, if the column is further in than the
block collection around it. -/
def openBlock (column index : Nat) (t : Token) (s : Scan) : Scan :=
  if s.inFlow || s.indents.head?.any (column ≤ ·) then s
  else
    { s with tokens := s.tokens.insertIdxIfInBounds index t, indents := column :: s.indents }

/-- Ends the block collections that are further in than a column, or all of them. -/
def closeBlocks (column? : Option Nat) (s : Scan) : Scan :=
  if s.inFlow then s
  else
    let closed := s.indents.takeWhile fun n => column?.all (· < n)
    { s with
      tokens := s.tokens ++ closed.map fun _ => Token.blockEnd
      indents := s.indents.drop closed.length }

def finish? (s : Scan) : Option (List Token) :=
  (s.closeBlocks none).dropCandidate?.map (·.tokens.toList)

/-- Passes over blanks, comments, line breaks and a mark of byte order at the start of a line:
whether a candidate may begin after them, and the number of characters. A tab counts as a blank only
where no candidate may begin. -/
def skipGap (inFlow mayBeKey lineStart : Bool) : Text → Bool × Nat
  | [] => (mayBeKey, 0)
  | c :: s =>
      if isBreak c then
        let (mayBeKey, n) := skipGap inFlow (mayBeKey || !inFlow) true s
        (mayBeKey, n + 1)
      else if c = ' ' ∨ (c = '\t' ∧ (inFlow || !mayBeKey)) ∨ (lineStart ∧ c = byteOrderMark) then
        let (mayBeKey, n) := skipGap inFlow mayBeKey false s
        (mayBeKey, n + 1)
      else if c = '#' then
        let comment := s.takeWhile (!isBreak ·)
        let (mayBeKey, n) := skipGap inFlow mayBeKey false (s.drop comment.length)
        (mayBeKey, n + comment.length + 1)
      else (mayBeKey, 0)
termination_by s => s.length
decreasing_by all_goals simp only [List.length_cons, List.length_drop]; omega

end Scan

end AllowedValues.Yaml
