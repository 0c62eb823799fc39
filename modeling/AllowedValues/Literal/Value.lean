import AllowedValues.Literal.Fault

/-!
The value of a string literal. An interpreted literal stands between double quotes and spells its
value byte by byte: a character stands for its UTF-8 form, an escape for a byte or for a character,
and the bytes together must be the UTF-8 form of a text. A raw literal stands between backticks and
is its own value, without carriage returns. The leftmost fault of a body is the one reported.
-/

namespace AllowedValues.Literal

/-- The number that exactly `count` digits spell, after digits already read to `value`. -/
def readDigits (radix : Nat) : Nat → Nat → Text → Except Fault Nat
  | 0, value, _ => .ok value
  | _ + 1, _, [] => .error .truncatedEscape
  | count + 1, value, c :: s =>
      match digitValue? radix c with
      | none => .error (.invalidEscape c)
      | some d => readDigits radix count (value * radix + d) s

/-- The byte that a single letter after the backslash stands for. -/
def letterByte? : Char → Option UInt8
  | 'a' => some 0x07
  | 'b' => some 0x08
  | 'f' => some 0x0C
  | 'n' => some 0x0A
  | 'r' => some 0x0D
  | 't' => some 0x09
  | 'v' => some 0x0B
  | '\\' => some 0x5C
  | '"' => some 0x22
  | _ => none

/-- The bytes of the character with the code point `value`. -/
def codePointBytes (value : Nat) : Except Fault (List UInt8) :=
  if value.isValidChar then .ok (String.utf8EncodeChar (Char.ofNat value))
  else .error (.invalidCodePoint value)

/-- The bytes that an escape stands for, and the number of characters that spell it after the
backslash. -/
def readEscape : Text → Except Fault (List UInt8 × Nat)
  | [] => .error .truncatedEscape
  | c :: s =>
      match letterByte? c, digitValue? 8 c with
      | some byte, _ => .ok ([byte], 1)
      | none, some high => do
          let value ← readDigits 8 2 high s
          if value ≤ 255 then .ok ([UInt8.ofNat value], 3) else .error (.octalOutOfRange value)
      | none, none =>
          if c = 'x' then do
            let value ← readDigits 16 2 0 s
            .ok ([UInt8.ofNat value], 3)
          else if c = 'u' then do
            let value ← readDigits 16 4 0 s
            .ok (← codePointBytes value, 5)
          else if c = 'U' then do
            let value ← readDigits 16 8 0 s
            .ok (← codePointBytes value, 9)
          else .error (.invalidEscape c)

/-- The bytes that an interpreted body spells. -/
def bodyBytes : Text → Except Fault (List UInt8)
  | [] => .ok []
  | c :: s =>
      if c = '"' then .error .unescapedQuote
      else if c = '\n' then .error .rawNewline
      else if c = '\\' then
        match readEscape s with
        | .error fault => .error fault
        | .ok (bytes, n) => (bodyBytes (s.drop n)).map (bytes ++ ·)
      else (bodyBytes s).map (String.utf8EncodeChar c ++ ·)
termination_by s => s.length
decreasing_by all_goals simp only [List.length_cons, List.length_drop]; omega

def interpretedValue (body : Text) : Except Fault Text :=
  match bodyBytes body with
  | .error fault => .error fault
  | .ok bytes =>
      match bytes.toByteArray.utf8Decode? with
      | some characters => .ok characters.toList
      | none => .error .invalidUtf8

def rawValue (body : Text) : Except Fault Text :=
  if body.contains '`' then .error .unescapedQuote else .ok (body.filter (· ≠ '\r'))

def body? (quote : Char) : Text → Option Text
  | [] => none
  | c :: s => if c = quote ∧ s.getLast? = some quote then some s.dropLast else none

def value (literal : Text) : Except Fault Text :=
  match body? '"' literal, body? '`' literal with
  | some body, _ => interpretedValue body
  | none, some body => rawValue body
  | none, none => .error .missingQuotes

end AllowedValues.Literal
