import AllowedValues.Yaml.FlowScalar

/-!
Literal and folded block scalars: a header line, then the lines that are indented by as much as the
header says, or as the first line that is not empty.
-/

namespace AllowedValues.Yaml

/-- What is done with the line breaks at the end of a block scalar. -/
inductive Chomping where
  | strip
  | clip
  | keep
deriving DecidableEq, Repr

/-- The header of a block scalar. -/
structure Header where
  chomping : Chomping := .clip
  /-- How much deeper the content is indented than the node around it, if that is written. -/
  increment? : Option Nat := none
deriving DecidableEq, Repr

def readIndicators? (s : Text) : Option (Header × Nat) :=
  match chomping? s with
  | some chomping =>
      match increment? (s.drop 1) with
      | some 0 => none
      | some n => some ({ chomping, increment? := some n }, 2)
      | none => some ({ chomping }, 1)
  | none =>
      match increment? s with
      | some 0 => none
      | some n =>
          match chomping? (s.drop 1) with
          | some chomping => some ({ chomping, increment? := some n }, 2)
          | none => some ({ increment? := some n }, 1)
      | none => some ({}, 0)
where
  chomping? : Text → Option Chomping
    | '+' :: _ => some .keep
    | '-' :: _ => some .strip
    | _ => none
  increment? (s : Text) : Option Nat := s.head?.bind (digitValue? 10)

/-- A header through the break at its end, and its length. Blanks and a comment may come after the
indicators. -/
def readHeader? (s : Text) : Option (Header × Nat) :=
  match readIndicators? s with
  | none => none
  | some (header, n) =>
      let blanks := (s.drop n).takeWhile isBlank
      let rest := (s.drop n).dropWhile isBlank
      let comment := if rest.head? = some '#' then rest.takeWhile (!isBreak ·) else []
      let rest := rest.drop comment.length
      if rest.all isBreak || (rest.take 1).any isBreak then
        some (header, n + blanks.length + comment.length + (rest.take 1).length)
      else none

structure Lead where
  /-- The breaks of the empty lines. -/
  breaks : Text
  /-- The greatest indentation among the lines. -/
  widest : Nat
  /-- The column where the indentation ends. -/
  column : Nat
  length : Nat
deriving DecidableEq, Repr

/-- Reads empty lines and indentation, of at most `limit?` spaces if that is given, from the column
given. A tab within the indentation is a fault. -/
def readLead? (limit? : Option Nat) (column widest : Nat) : Text → Option Lead
  | [] => some ⟨[], max widest column, column, 0⟩
  | c :: s =>
      let within := limit?.all (column < ·)
      if c = ' ' ∧ within then
        (readLead? limit? (column + 1) widest s).map fun l => { l with length := l.length + 1 }
      else if c = '\t' ∧ within then none
      else if isBreak c then
        (readLead? limit? 0 (max widest column) s).map fun l =>
          { l with breaks := c :: l.breaks, length := l.length + 1 }
      else some ⟨[], max widest column, column, 0⟩

/-- The breaks that are not part of the text yet, and whether the line before them began with a
blank. -/
structure Pending where
  /-- The break of the last line, if it had one. -/
  last : Text := []
  /-- The breaks of the empty lines after it. -/
  empty : Text := []
  blank : Bool := false
deriving DecidableEq, Repr

/-- What pending breaks become before a line that begins with a blank or does not: in a folded
scalar, between two lines of which neither does, they are folded. -/
def Pending.joined (p : Pending) (literal blank : Bool) : Text :=
  if !literal && p.last = ['\n'] && !p.blank && !blank then
    if p.empty = [] then [' '] else p.empty
  else p.last ++ p.empty

/-- The lines of a block scalar, from a column on: their text with the breaks at their end as the
chomping has it, and the number of characters read. -/
def readLines? (literal : Bool) (chomping : Chomping) (indent column : Nat) (p : Pending) :
    Text → Option (Text × Nat)
  | [] => some (tail, 0)
  | c :: s =>
      if column ≠ indent then some (tail, 0)
      else
        let visible := s.takeWhile (!isBreak ·)
        let rest := s.drop visible.length
        let last := rest.take 1
        match readLead? (some indent) 0 0 (rest.drop 1) with
        | none => none
        | some lead =>
            let next : Pending := { last, empty := lead.breaks, blank := isBlank c }
            let read := visible.length + last.length + lead.length
            (readLines? literal chomping indent lead.column next (s.drop read)).map
              fun (text, n) => (p.joined literal (isBlank c) ++ c :: visible ++ text, read + 1 + n)
termination_by s => s.length
decreasing_by simp only [List.length_cons, List.length_drop]; omega
where
  tail : Text :=
    match chomping with
    | .strip => []
    | .clip => p.last
    | .keep => p.last ++ p.empty

/-- A block scalar after its first indicator: its text and the number of characters read. `parent?`
is the indentation of the block collection around it, if there is one. -/
def readBlock? (literal : Bool) (parent? : Option Nat) (s : Text) : Option (Text × Nat) :=
  match readHeader? s with
  | none => none
  | some (header, n) =>
      let limit? := header.increment?.map (· + parent?.getD 0)
      match readLead? limit? 0 0 (s.drop n) with
      | none => none
      | some lead =>
          let indent := limit?.getD (max lead.widest (max 1 ((parent?.map (· + 1)).getD 0)))
          (readLines? literal header.chomping indent lead.column { empty := lead.breaks }
              (s.drop (n + lead.length))).map
            fun (text, m) => (text, n + lead.length + m)

end AllowedValues.Yaml
