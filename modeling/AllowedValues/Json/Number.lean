import AllowedValues.Digit

/-!
Numbers of JSON documents. A numeral without fraction and exponent is an integer if it fits into 64
bits, unsigned or, below zero, signed. Every other numeral is a floating point number: its first
digits, as many as fit into 64 bits unsigned, scaled by a power of ten in one or more roundings.
-/

namespace AllowedValues.Json

inductive Number where
  | integer (value : Int)
  | float (value : Float)
deriving Repr

structure Numeral where
  negative : Bool
  whole : List Nat
  /-- The digits after the point, if there is one. -/
  fraction : List Nat
  /-- The power of ten that is written, if one is. -/
  exponent? : Option Int
deriving DecidableEq, Repr

namespace Number

/-- Takes digits into a number of 64 bits as long as they fit: the number, and how many digits are
left over. -/
def takeDigits (significand : Nat) : List Nat → Nat × Nat
  | [] => (significand, 0)
  | d :: ds =>
      if significand * 10 + d < Nat.pow 2 64 then takeDigits (significand * 10 + d) ds
      else (significand, ds.length + 1)

/-- The floating point number `10 ^ n`, for `n ≤ 308`. -/
def powerOfTen (n : Nat) : Float := Float.ofScientific 1 false n

/-- A number divided by `10 ^ n`, by factors that are floating point numbers themselves. -/
def divideByPower (x : Float) (n : Nat) : Float :=
  if n ≤ 308 then x / powerOfTen n
  else if x == 0 then x
  else divideByPower (x / powerOfTen 308) (n - 308)
termination_by n

/-- A number times a power of ten, unless it is too large. -/
def scale? (x : Float) (exponent : Int) : Option Float :=
  if exponent < 0 then some (divideByPower x exponent.natAbs)
  else if 308 < exponent then if x == 0 then some x else none
  else
    let scaled := x * powerOfTen exponent.natAbs
    if scaled.isInf then none else some scaled

end Number

namespace Numeral

/-- The floating point value, unless it is too large. -/
def float? (n : Numeral) : Option Float :=
  let (whole, dropped) := Number.takeDigits 0 n.whole
  let (significand, unread) := Number.takeDigits whole n.fraction
  let exponent := (dropped : Int) - (n.fraction.length - unread : Nat) + n.exponent?.getD 0
  (Number.scale? (Float.ofNat significand) exponent).map fun x => if n.negative then -x else x

/-- The value of a numeral, unless it is too large. -/
def value? (n : Numeral) : Option Number :=
  let (whole, dropped) := Number.takeDigits 0 n.whole
  if n.fraction = [] ∧ n.exponent? = none ∧ dropped = 0 then
    if !n.negative then some (.integer whole)
    else if 0 < whole ∧ whole ≤ Nat.pow 2 63 then some (.integer (-whole))
    else some (.float (-(Float.ofNat whole)))
  else n.float?.map .float

end Numeral

/-- The numeral at the start of a text and the text after it, if the text begins with one. -/
def readNumeral? (s : Text) : Option (Numeral × Text) :=
  let negative := s.head? = some '-'
  let (whole, s) := Text.digitRun (if negative then s.drop 1 else s)
  if whole = [] ∨ (whole.head? = some 0 ∧ 1 < whole.length) then none
  else
    match readFraction? s with
    | none => none
    | some (fraction, s) =>
        match readExponent? s with
        | none => none
        | some (exponent?, s) => some ({ negative, whole, fraction, exponent? }, s)
where
  /-- The digits after a point, at least one, or none where there is no point. -/
  readFraction? : Text → Option (List Nat × Text)
    | '.' :: s =>
        let (digits, rest) := Text.digitRun s
        if digits = [] then none else some (digits, rest)
    | s => some ([], s)
  /-- The exponent after its mark, or none where there is no mark. -/
  readExponent? : Text → Option (Option Int × Text)
    | [] => some (none, [])
    | c :: s =>
        if c = 'e' ∨ c = 'E' then
          let negative := s.head? = some '-'
          let signed := negative ∨ s.head? = some '+'
          let (digits, rest) := Text.digitRun (if signed then s.drop 1 else s)
          let value : Nat := digits.foldl (fun n d => n * 10 + d) 0
          if digits = [] then none else some (some (if negative then -value else value), rest)
        else some (none, c :: s)

end AllowedValues.Json
