import AllowedValues.Bracket
import AllowedValues.Literal.Extent

/-!
Lexemes of an argument list. An argument list is read on its own, with ASCII names and numbers and
five blank characters. No input is lost: what belongs to no class is a lexeme as well, and only
blanks and complete comments are passed over.
-/

namespace AllowedValues.Argument

inductive Lexeme.Class where
  | interpretedString
  | rawString
  | rune
  | ident
  | number
  | opening (bracket : Bracket)
  | closing (bracket : Bracket)
  | comma
  | dot
  | operator
  | unknown
deriving DecidableEq, Repr

structure Lexeme where
  cls : Lexeme.Class
  /-- The byte position of its first character. -/
  start : Nat
  text : Text
deriving DecidableEq, Repr

namespace Lexeme

/-- The byte position just after a lexeme. -/
def stop (l : Lexeme) : Nat := l.start + l.text.byteSize

/-- Space, tab, carriage return, newline and form feed. -/
def isBlank (c : Char) : Bool :=
  c = ' ' || c = '\t' || c = '\r' || c = '\n' || c = Char.ofNat 12

/-- A letter or an underscore, ASCII only. -/
def isNameStart (c : Char) : Bool := c = '_' || c.isAlpha

/-- A letter, a digit or an underscore, ASCII only. -/
def isNamePart (c : Char) : Bool := c = '_' || c.isAlphanum

def isOperator (c : Char) : Bool := "-+*/%&|^<>=!:;~?".toList.contains c

/-- The class of a character that is a lexeme by itself. -/
def Class.ofChar (c : Char) : Class :=
  if c = ',' then comma
  else if c = '.' then dot
  else if isOperator c then operator
  else match Bracket.ofOpening? c, Bracket.ofClosing? c with
    | some b, _ => opening b
    | none, some b => closing b
    | none, none => unknown

/-- A quoted literal if it is closed; otherwise the quote and the complete units after it belong to
no class. -/
def quotedReach (cls : Class) (quote : Char) (s : Text) : Option Class × Nat :=
  match Literal.closedLength? quote s with
  | some n => (some cls, n)
  | none => (some .unknown, Literal.bodyLength quote s)

/-- The class of the lexeme that begins with `c`, and how many characters of the text `s` after `c`
belong to it. A blank and a complete comment have a length and no class. -/
def reach (c : Char) (s : Text) : Option Class × Nat :=
  if isBlank c then (none, 0)
  else if c = '"' then quotedReach .interpretedString c s
  else if c = '\'' then quotedReach .rune c s
  else if c = '`' then
    match Literal.rawLength? s with
    | some n => (some .rawString, n)
    | none => (some .unknown, s.length)
  else if c = '/' ∧ s.head? = some '/' then (none, Literal.lineLength s)
  else if c = '/' ∧ s.head? = some '*' then
    match Literal.blockCommentLength? (s.drop 1) with
    | some n => (none, n + 1)
    | none => (some .unknown, 1)
  else if isNameStart c then (some .ident, (s.takeWhile isNamePart).length)
  else if c.isDigit then
    (some .number, (s.takeWhile fun d => isNamePart d || d = '.').length)
  else (some (Class.ofChar c), 0)

/-- The lexemes of a text that begins at byte `start`. -/
def lexFrom (start : Nat) : Text → List Lexeme
  | [] => []
  | c :: s =>
      let (cls?, n) := reach c s
      let text := c :: s.take n
      let rest := lexFrom (start + Text.byteSize text) (s.drop n)
      match cls? with
      | none => rest
      | some cls => { cls, start, text } :: rest
termination_by s => s.length
decreasing_by simp only [List.length_cons, List.length_drop]; omega

end Lexeme

def lexemes (source : Text) : List Lexeme := Lexeme.lexFrom 0 source

end AllowedValues.Argument
