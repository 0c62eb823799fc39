import AllowedValues.Json.Number

/-!
Tokens of a JSON document. Reading stops at the first place that begins no token, which is marked.
A numeral may be too large to have a value, and a string may hold a surrogate that has no partner:
both are tokens, since they matter only where the value is wanted.
-/

namespace AllowedValues.Json

inductive Token where
  | openArray
  | closeArray
  | openObject
  | closeObject
  | comma
  | colon
  | null
  | boolean (value : Bool)
  | number (value? : Option Number)
  | string (value? : Option Text)
  /-- The place where the text ceases to be JSON. -/
  | unknown
deriving Repr

namespace Token

/-- Space, tab, newline and carriage return. -/
def isBlank (c : Char) : Bool := c = ' ' || c = '\t' || c = '\n' || c = '\r'

/-- The character that a letter after a backslash stands for. -/
def letterEscape? : Char → Option Char
  | '"' => some '"'
  | '\\' => some '\\'
  | '/' => some '/'
  | 'b' => some (Char.ofNat 8)
  | 'f' => some (Char.ofNat 12)
  | 'n' => some '\n'
  | 'r' => some '\r'
  | 't' => some '\t'
  | _ => none

/-- The number that the four hexadecimal digits at the start of a text spell. -/
def fourDigits? : Text → Option Nat
  | a :: b :: c :: d :: _ => do
      let a ← digitValue? 16 a
      let b ← digitValue? 16 b
      let c ← digitValue? 16 c
      let d ← digitValue? 16 d
      some (((a * 16 + b) * 16 + c) * 16 + d)
  | _ => none

/-- The code points of a string after its opening quote, surrogates among them as they are written,
and the number of characters through the closing quote. -/
def stringUnits? : Text → Option (List Nat × Nat)
  | [] => none
  | c :: s =>
      if c = '"' then some ([], 1)
      else if c.toNat < 32 then none
      else if c ≠ '\\' then (stringUnits? s).map fun (units, n) => (c.toNat :: units, n + 1)
      else
        match s with
        | [] => none
        | d :: s =>
            if d = 'u' then
              match fourDigits? s with
              | none => none
              | some u => (stringUnits? (s.drop 4)).map fun (units, n) => (u :: units, n + 6)
            else
              match letterEscape? d with
              | none => none
              | some e => (stringUnits? s).map fun (units, n) => (e.toNat :: units, n + 2)
termination_by s => s.length
decreasing_by all_goals simp only [List.length_cons, List.length_drop]; omega

/-- A surrogate that begins a pair. -/
def isLead (n : Nat) : Bool := 0xD800 ≤ n && n ≤ 0xDBFF

/-- A surrogate that ends a pair. -/
def isTrail (n : Nat) : Bool := 0xDC00 ≤ n && n ≤ 0xDFFF

/-- The text of code points in which every surrogate belongs to a pair. -/
def textOfUnits? : List Nat → Option Text
  | [] => some []
  | [n] => if isLead n || isTrail n then none else some [Char.ofNat n]
  | m :: n :: ns =>
      if isLead m then
        if isTrail n then
          (textOfUnits? ns).map
            (Char.ofNat ((m - 0xD800) * 0x400 + (n - 0xDC00) + 0x10000) :: ·)
        else none
      else if isTrail m then none
      else (textOfUnits? (n :: ns)).map (Char.ofNat m :: ·)

def names : List (Text × Token) :=
  [("null".toList, null), ("true".toList, boolean true), ("false".toList, boolean false)]

def ofChar? : Char → Option Token
  | '[' => some openArray
  | ']' => some closeArray
  | '{' => some openObject
  | '}' => some closeObject
  | ',' => some comma
  | ':' => some colon
  | _ => none

/-- The token that begins with `c`, and how many characters of the text `s` after `c` belong to it,
if there is one. -/
def reach? (c : Char) (s : Text) : Option (Token × Nat) :=
  match ofChar? c with
  | some token => some (token, 0)
  | none =>
      if c = '"' then (stringUnits? s).map fun (units, n) => (string (textOfUnits? units), n)
      else if c = '-' ∨ c.isDigit then
        (readNumeral? (c :: s)).map fun (numeral, rest) =>
          (number numeral.value?, s.length - rest.length)
      else
        (names.find? (·.1.isPrefixOf (c :: s))).map fun (name, token) => (token, name.length - 1)

end Token

def tokens : Text → List Token
  | [] => []
  | c :: s =>
      if Token.isBlank c then tokens s
      else
        match Token.reach? c s with
        | none => [.unknown]
        | some (token, n) => token :: tokens (s.drop n)
termination_by s => s.length
decreasing_by all_goals simp only [List.length_cons, List.length_drop]; omega

end AllowedValues.Json
