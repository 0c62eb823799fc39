import AllowedValues.Yaml.Token

/-!
Reading the tokens of a YAML stream. Directives and tags are not read: a stream that has one has no
tokens.
-/

namespace AllowedValues.Yaml

namespace Scan

/-- Reads a marker of documents, which ends all block collections. -/
def readMarker? (t : Token) (s : Scan) : Option (Scan × Nat) :=
  (s.closeBlocks none).dropCandidate?.map fun s => ({ s.push t with mayBeKey := false }, 2)

/-- Reads the bracket that begins a flow collection. -/
def readOpening? (t : Token) (p : Place) (s : Scan) : Option (Scan × Nat) :=
  (s.noteCandidate? p).map fun s =>
    ({ s with candidate? := none, outer := s.candidate? :: s.outer, mayBeKey := true }.push t, 0)

def readClosing? (t : Token) (s : Scan) : Option (Scan × Nat) :=
  s.dropCandidate?.map fun s =>
    let outside := { s with candidate? := s.outer.head?.join, outer := s.outer.drop 1 }
    ({ outside with mayBeKey := false }.push t, 0)

/-- Reads the comma between entries of a flow collection. -/
def readComma? (s : Scan) : Option (Scan × Nat) :=
  s.dropCandidate?.map fun s => ({ s.push .comma with mayBeKey := true }, 0)

/-- Begins a block collection at a place where one may begin. In a flow collection there is nothing
to begin. -/
def beginBlock? (t : Token) (p : Place) (s : Scan) : Option Scan :=
  if s.inFlow then some s
  else if s.mayBeKey then some (s.openBlock p.column s.tokens.size t)
  else none

/-- Reads the hyphen before an entry of a block sequence. -/
def readDash? (p : Place) (s : Scan) : Option (Scan × Nat) := do
  let s ← s.beginBlock? .blockSequence p
  let s ← s.dropCandidate?
  return ({ s.push .dash with mayBeKey := true }, 0)

def readKey? (p : Place) (s : Scan) : Option (Scan × Nat) := do
  let s ← s.beginBlock? .blockMapping p
  let s ← s.dropCandidate?
  return ({ s with mayBeKey := !s.inFlow }.push .key, 0)

/-- Reads the colon before a value, which makes the candidate a key. -/
def readValue? (p : Place) (s : Scan) : Option (Scan × Nat) := do
  let s ← s.dropStale? p
  match s.candidate? with
  | some k =>
      let s := { s with tokens := s.tokens.insertIdxIfInBounds k.index .key, candidate? := none }
      let s := s.openBlock k.place.column k.index .blockMapping
      return ({ s.push .value with mayBeKey := false }, 0)
  | none =>
      let s ← s.beginBlock? .blockMapping p
      return ({ s with mayBeKey := !s.inFlow }.push .value, 0)

def isNameChar (c : Char) : Bool := c.isAlphanum || c = '_' || c = '-'

/-- Reads the name of an anchor or of an alias. -/
def readName? (t : Text → Token) (p : Place) (rest : Text) (s : Scan) : Option (Scan × Nat) :=
  let name := rest.takeWhile isNameChar
  let after := rest.drop name.length
  if name = [] ∨ !(atGap after || after.head?.any "?:,]\x7d%@`".toList.contains) then none
  else (s.noteCandidate? p).map fun s => ({ s.push (t name) with mayBeKey := false }, name.length)

def readBlockScalar? (literal : Bool) (rest : Text) (s : Scan) : Option (Scan × Nat) := do
  let s ← s.dropCandidate?
  let (text, n) ← readBlock? literal s.indents.head? rest
  return ({ s.push (.scalar text false) with mayBeKey := true }, n)

def readQuotedScalar? (quote : Char) (p : Place) (rest : Text) (s : Scan) :
    Option (Scan × Nat) := do
  let s ← s.noteCandidate? p
  let scalar ← readQuoted? quote Gap.none (p.column + 1) rest
  return ({ s.push (.scalar scalar.text false) with mayBeKey := false }, scalar.length)

def readPlainScalar? (p : Place) (c : Char) (rest : Text) (s : Scan) : Option (Scan × Nat) := do
  let s ← s.noteCandidate? p
  let indent := (s.indents.head?.map (· + 1)).getD 0
  let scalar ← readPlain? s.inFlow indent Gap.none p.column (c :: rest)
  return ({ s.push (.scalar scalar.text true) with mayBeKey := scalar.endsLine }, scalar.length - 1)

/-- Whether a plain scalar may begin with `c` before the text `rest`. -/
def beginsPlain (inFlow : Bool) (c : Char) (rest : Text) : Bool :=
  !(isBlank c || "-?:,[]{}#&*!|>'\"%@`".toList.contains c) ||
    (c = '-' && !(rest.take 1).any isBlank) ||
    (!inFlow && (c = '?' || c = ':') && !atGap rest)

/-- Reads the token that begins with `c`: the number of characters of `rest` that belong to it. -/
def readToken? (p : Place) (c : Char) (rest : Text) (s : Scan) : Option (Scan × Nat) :=
  if p.column = 0 && c = '%' then none
  else if p.column = 0 && startsWithMarker '-' (c :: rest) then s.readMarker? .documentStart
  else if p.column = 0 && startsWithMarker '.' (c :: rest) then s.readMarker? .documentEnd
  else if c = '[' then s.readOpening? .openSequence p
  else if c = ']' then s.readClosing? .closeSequence
  else if c = Char.ofNat 0x7B then s.readOpening? .openMapping p
  else if c = Char.ofNat 0x7D then s.readClosing? .closeMapping
  else if c = ',' then s.readComma?
  else if c = '-' && atGap rest then s.readDash? p
  else if c = '?' && (s.inFlow || atGap rest) then s.readKey? p
  else if c = ':' && (s.inFlow || atGap rest) then s.readValue? p
  else if c = '*' then s.readName? .reference p rest
  else if c = '&' then s.readName? .anchor p rest
  else if (c = '|' || c = '>') && !s.inFlow then s.readBlockScalar? (c = '|') rest
  else if c = '\'' || c = '"' then s.readQuotedScalar? c p rest
  else if beginsPlain s.inFlow c rest then s.readPlainScalar? p c rest
  else none

def readFrom? (s : Scan) (p : Place) (text : Text) : Option (List Token) :=
  let (mayBeKey, n) := skipGap s.inFlow s.mayBeKey (p.column = 0) text
  let p := p.after (text.take n)
  let s := { s with mayBeKey }.closeBlocks (some p.column)
  match _hrest : text.drop n with
  | [] => s.finish?
  | c :: rest =>
      match s.readToken? p c rest with
      | none => none
      | some (s, m) => readFrom? s (p.after (c :: rest.take m)) (rest.drop m)
termination_by text.length
decreasing_by
  have hlength := congrArg List.length _hrest
  simp only [List.length_drop, List.length_cons] at hlength ⊢
  omega

end Scan

def tokens? (source : Text) : Option (List Token) :=
  (characters? source).bind (Scan.readFrom? {} {})

end AllowedValues.Yaml
