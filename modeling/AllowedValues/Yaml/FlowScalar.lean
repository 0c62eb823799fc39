import AllowedValues.Digit
import AllowedValues.Yaml.Folding

/-!
Plain and quoted scalars. A reader gets the text from where the scalar begins, without an opening
quote, and the column there; it gives the text of the scalar and the number of characters read.
-/

namespace AllowedValues.Yaml

structure Extent where
  text : Text
  length : Nat
  /-- Whether a line ended after the last visible character. -/
  endsLine : Bool := false
deriving DecidableEq, Repr

/-- The extent with more text in front, which took `n` characters. -/
def Extent.prepend (text : Text) (n : Nat) (e : Extent) : Extent :=
  { e with text := text ++ e.text, length := n + e.length }

/-- A plain scalar. It ends before a colon that a gap follows, before a comment, a marker of
documents or a line indented by less than `indent`; in a flow collection, where the indentation is
of no account, also before a comma or a bracket. A colon right before one of these is a fault, and
so is a tab within the indentation. -/
def readPlain? (inFlow : Bool) (indent : Nat) (gap : Gap) (column : Nat) : Text → Option Extent
  | [] => some { text := [], length := 0, endsLine := gap.endsLine }
  | c :: s =>
      let ends : Extent := { text := [], length := 0, endsLine := gap.endsLine }
      if isBlank c then
        if gap.endsLine && column < indent && c = '\t' then none
        else (readPlain? inFlow indent (gap.addBlank c) (column + 1) s).map (·.prepend [] 1)
      else if isBreak c then
        (readPlain? inFlow indent (gap.addBreak c) 0 s).map (·.prepend [] 1)
      else if gap ≠ Gap.none && c = '#' then some ends
      else if gap.endsLine && !inFlow && column < indent then some ends
      else if column = 0 && atMarker (c :: s) then some ends
      else if inFlow && c = ':' && (s.take 1).any ",?[]{}".toList.contains then none
      else if c = ':' && atGap s then some ends
      else if inFlow && ",[]{}".toList.contains c then some ends
      else
        (readPlain? inFlow indent Gap.none (column + 1) s).map (·.prepend (gap.folded ++ [c]) 1)

/-- What the letter after a backslash stands for, if it stands for one character. -/
def letterEscape? : Char → Option Char
  | '0' => some (Char.ofNat 0)
  | 'a' => some (Char.ofNat 7)
  | 'b' => some (Char.ofNat 8)
  | 't' | '\t' => some '\t'
  | 'n' => some '\n'
  | 'v' => some (Char.ofNat 11)
  | 'f' => some (Char.ofNat 12)
  | 'r' => some '\r'
  | 'e' => some (Char.ofNat 27)
  | ' ' => some ' '
  | '"' => some '"'
  | '/' => some '/'
  | '\\' => some '\\'
  | 'N' => some (Char.ofNat 0x85)
  | '_' => some (Char.ofNat 0xA0)
  | 'L' => some (Char.ofNat 0x2028)
  | 'P' => some (Char.ofNat 0x2029)
  | _ => none

/-- How many hexadecimal digits follow on a letter after a backslash. -/
def escapeWidth? : Char → Option Nat
  | 'x' => some 2
  | 'u' => some 4
  | 'U' => some 8
  | _ => none

/-- The character that the first `width` characters of a text name as hexadecimal digits. -/
def codePoint? (width : Nat) (s : Text) : Option Char := do
  let digits ← (s.take width).mapM (digitValue? 16)
  let n := digits.foldl (fun n d => n * 16 + d) 0
  if digits.length = width ∧ n.isValidChar then some (Char.ofNat n) else none

/-- An escape after its backslash: the character and the number of characters that spell it. -/
def readEscape? : Text → Option (Char × Nat)
  | [] => none
  | c :: s =>
      match letterEscape? c, escapeWidth? c with
      | some d, _ => some (d, 1)
      | none, some width => (codePoint? width s).map (·, width + 1)
      | none, none => none

/-- A quoted scalar through its closing quote. Between double quotes there are escapes, and a line
break may be escaped; between single quotes a quote is written twice. -/
def readQuoted? (quote : Char) (gap : Gap) (column : Nat) : Text → Option Extent
  | [] => none
  | c :: s =>
      if isBlank c then (readQuoted? quote (gap.addBlank c) (column + 1) s).map (·.prepend [] 1)
      else if isBreak c then (readQuoted? quote (gap.addBreak c) 0 s).map (·.prepend [] 1)
      else if column = 0 && atMarker (c :: s) then none
      else if c = quote then
        if quote = '\'' ∧ s.head? = some '\'' then
          (readQuoted? quote Gap.none (column + 2) (s.drop 1)).map
            (·.prepend (gap.folded ++ [c]) 2)
        else some { text := gap.folded, length := 1 }
      else if quote = '"' ∧ c = '\\' then
        if (s.take 1).any isBreak then
          (readQuoted? quote (.breaks none []) 0 (s.drop 1)).map (·.prepend gap.folded 2)
        else
          match readEscape? s with
          | none => none
          | some (d, n) =>
              (readQuoted? quote Gap.none (column + 1 + n) (s.drop n)).map
                (·.prepend (gap.folded ++ [d]) (n + 1))
      else (readQuoted? quote Gap.none (column + 1) s).map (·.prepend (gap.folded ++ [c]) 1)
termination_by s => s.length
decreasing_by all_goals simp only [List.length_cons, List.length_drop]; omega

end AllowedValues.Yaml
