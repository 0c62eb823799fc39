import AllowedValues.Bracket
import AllowedValues.Identifier
import AllowedValues.Literal.Extent
import AllowedValues.Unicode.WhiteSpace

/-!
Source text is cut from left to right into pieces: white space, comments, and the units of code.
A quote always begins a literal, and a slash with a slash or a star after it a comment; where the
literal or the block comment is not closed, the text has no cutting.
-/

namespace AllowedValues.Source

/-- The kinds of code unit. A literal counts with its quotes. -/
inductive Kind where
  | ident
  | number
  | dot
  | comma
  | opening (bracket : Bracket)
  | closing (bracket : Bracket)
  | literal
  | punct
deriving DecidableEq, Repr

inductive Piece.Role where
  | space
  | comment
  | code (kind : Kind)
deriving DecidableEq, Repr

structure Piece where
  role : Piece.Role
  text : Text
deriving DecidableEq, Repr

/-- The kind of a character that is a unit by itself. -/
def Kind.ofChar (c : Char) : Kind :=
  if c = '.' then dot
  else if c = ',' then comma
  else match Bracket.ofOpening? c, Bracket.ofClosing? c with
    | some b, _ => opening b
    | none, some b => closing b
    | none, none => punct

namespace Piece

/-- The role of the piece that begins with `c`, and how many characters of the text `s` after `c`
belong to it. There is none where a literal or a block comment is not closed. -/
def reach? (c : Char) (s : Text) : Option (Role × Nat) :=
  if Unicode.isWhiteSpace c then some (.space, 0)
  else if c = '"' ∨ c = '\'' then (Literal.closedLength? c s).map (.code .literal, ·)
  else if c = '`' then (Literal.rawLength? s).map (.code .literal, ·)
  else if c = '/' ∧ s.head? = some '/' then some (.comment, Literal.lineLength s)
  else if c = '/' ∧ s.head? = some '*' then
    (Literal.blockCommentLength? (s.drop 1)).map (.comment, · + 1)
  else if isIdentifierStart c then some (.code .ident, (s.takeWhile isIdentifierPart).length)
  else if c.isDigit then
    some (.code .number, (s.takeWhile fun d => isIdentifierPart d || d = '.').length)
  else some (.code (Kind.ofChar c), 0)

/-- Cuts a text into pieces. -/
def cut? : Text → Option (List Piece)
  | [] => some []
  | c :: s =>
      match reach? c s with
      | none => none
      | some (role, n) => (cut? (s.drop n)).map (⟨role, c :: s.take n⟩ :: ·)
termination_by s => s.length
decreasing_by simp only [List.length_cons, List.length_drop]; omega

end Piece

end AllowedValues.Source
