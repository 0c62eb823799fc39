import AllowedValues.Digit

/-!
The decimal text of a binary floating point number: the fewest digits that read back to the number,
and of those the nearest. All comparisons are exact, on natural numbers.
-/

namespace AllowedValues.Decimal

/-- The number `digits * 10 ^ exponent`. -/
structure Scaled where
  digits : Nat
  exponent : Int
deriving DecidableEq, Repr

/-- A positive number `mantissa * 2 ^ exponent` of a binary format. -/
structure Binary where
  mantissa : Nat
  exponent : Int
  /-- Whether the number below is only half as far away as the number above. -/
  narrowBelow : Bool
deriving DecidableEq, Repr

/-- The absolute value of a finite number of 64 bits. -/
def Binary.ofBits (bits : UInt64) : Binary :=
  let biased := ((bits >>> 52) &&& 0x7FF).toNat
  let fraction := (bits &&& 0xFFFFFFFFFFFFF).toNat
  if biased = 0 then ⟨fraction, -1074, false⟩
  else ⟨Nat.pow 2 52 + fraction, (biased : Int) - 1075, fraction = 0 && biased > 1⟩

/-- The multiple of `10 ^ exponent` that is nearest to a number among those that read back to it,
the even one if two are equally near. A decimal reads back if it lies between the points halfway to
the numbers below and above; these points themselves count if the mantissa is even. -/
def Binary.onGrid? (x : Binary) (exponent : Int) : Option Scaled :=
  let unit := Nat.pow 2 x.exponent.toNat * Nat.pow 10 (-exponent).toNat
  let step := Nat.pow 2 (-x.exponent).toNat * Nat.pow 10 exponent.toNat
  let low := (if x.narrowBelow then 4 * x.mantissa - 1 else 4 * x.mantissa - 2) * unit
  let high := (4 * x.mantissa + 2) * unit
  let closed := x.mantissa % 2 = 0
  let readsBack (n : Nat) : Bool :=
    (low < 4 * n * step && 4 * n * step < high) ||
      (closed && (low = 4 * n * step || 4 * n * step = high))
  let below := x.mantissa * unit / step
  let twice := 2 * x.mantissa * unit
  let middle := (2 * below + 1) * step
  match readsBack below, readsBack (below + 1) with
  | true, false => some ⟨below, exponent⟩
  | false, true => some ⟨below + 1, exponent⟩
  | false, false => none
  | true, true =>
      if twice < middle ∨ (twice = middle ∧ below % 2 = 0) then some ⟨below, exponent⟩
      else some ⟨below + 1, exponent⟩

/-- The decimal with the fewest digits: the coarsest grid that holds one decides. -/
def Binary.shortest (x : Binary) : Scaled :=
  let grids : List Int := (List.range 700).map fun (i : Nat) => 310 - (i : Int)
  (grids.findSome? x.onGrid?).getD ⟨0, 0⟩

/-- A decimal in positional notation if its leading digit counts units of `10 ^ -5` to `10 ^ 15`,
and in scientific notation, with a signed exponent, otherwise. -/
def Scaled.text (d : Scaled) : Text :=
  let digits := Text.decimal d.digits
  let lead := d.exponent + digits.length - 1
  if lead < -5 ∨ 15 < lead then
    let fraction := if digits.length = 1 then [] else '.' :: digits.drop 1
    let sign := if lead < 0 then '-' else '+'
    digits.take 1 ++ fraction ++ 'e' :: sign :: Text.decimal lead.natAbs
  else if 0 ≤ d.exponent then
    digits ++ List.replicate d.exponent.toNat '0' ++ ".0".toList
  else if 0 ≤ lead then
    digits.take (lead.toNat + 1) ++ '.' :: digits.drop (lead.toNat + 1)
  else "0.".toList ++ Text.zeroPadded (-d.exponent).toNat digits

def ofFloat (x : Float) : Text :=
  let bits := x.toBits
  let sign := if bits >>> 63 = 0 then [] else ['-']
  if bits &&& 0x7FFFFFFFFFFFFFFF = 0 then sign ++ "0.0".toList
  else sign ++ (Binary.ofBits bits).shortest.text

end AllowedValues.Decimal
