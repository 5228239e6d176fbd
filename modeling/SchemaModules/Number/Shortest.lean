import SchemaModules.Number.Double

/-!
# Shortest decimal text of a floating-point number

A number is written with the fewest digits that read back as it; of several such decimals the
nearest is taken. The decimals tried on each grid are the two neighbours of the exact value, since
if any point of the grid reads back, so does one of these.
-/

namespace SchemaModules.Number

/-- The decimals `digits · 10 ^ exponent`. -/
structure Decimal where
  digits : Nat
  exponent : Int

/-- The reals that round to a number: between two quotients with a common denominator, ends
included when the mantissa is even. -/
structure Interval where
  low : Nat
  value : Nat
  high : Nat
  denominator : Nat
  closed : Bool

/-- The neighbours of a number lie half as far below a power of two as above it. -/
def roundingInterval (mantissa : Nat) (exponent : Int) : Interval :=
  let belowPower := mantissa = leastMantissa ∧ minExponent < exponent
  let (low, value, high) :=
    if belowPower then (4 * mantissa - 1, 4 * mantissa, 4 * mantissa + 2)
    else (4 * mantissa - 2, 4 * mantissa, 4 * mantissa + 2)
  let quarter := exponent - 2
  let scale := if quarter < 0 then 1 else power 2 quarter
  let denominator := if quarter < 0 then power 2 (-quarter) else 1
  ⟨low * scale, value * scale, high * scale, denominator, mantissa % 2 == 0⟩

/-- A decimal as a quotient of naturals. -/
def Decimal.toFraction (d : Decimal) : Nat × Nat :=
  if d.exponent < 0 then (d.digits, power 10 (-d.exponent))
  else (d.digits * power 10 d.exponent, 1)

def Interval.contains (i : Interval) (d : Decimal) : Bool :=
  let (n, m) := d.toFraction
  if i.closed then i.low * m ≤ n * i.denominator && n * i.denominator ≤ i.high * m
  else i.low * m < n * i.denominator && n * i.denominator < i.high * m

/-- Distance of a decimal from the value, over the product of the denominators of both. -/
def Interval.distance (i : Interval) (d : Decimal) : Nat :=
  let (n, m) := d.toFraction
  Int.natAbs ((n * i.denominator : Int) - i.value * m)

def digitCount (n : Nat) : Nat := (Nat.toDigits 10 n).length

/-- The least `k` with `value < 10 ^ k`: the digits before the point, or less the zeros after it. -/
def decimalMagnitude (i : Interval) : Int :=
  if i.value < i.denominator then 1 - (digitCount ((i.denominator - 1) / i.value) : Int)
  else digitCount (i.value / i.denominator)

/-- The decimal with `count` digits nearest to the value among those that read back. -/
def Interval.decimalOf? (i : Interval) (magnitude : Int) (count : Nat) : Option Decimal :=
  let exponent := magnitude - count
  let (n, d) :=
    if exponent < 0 then (i.value * power 10 (-exponent), i.denominator)
    else (i.value, i.denominator * power 10 exponent)
  let lower : Decimal := ⟨n / d, exponent⟩
  let upper : Decimal := ⟨n / d + 1, exponent⟩
  match i.contains lower, i.contains upper with
  | false, false => none
  | true, false => some lower
  | false, true => some upper
  | true, true =>
    if i.distance lower < i.distance upper then some lower
    else if i.distance upper < i.distance lower then some upper
    else if lower.digits % 2 = 0 then some lower else some upper

/-- Seventeen digits always read back, so the search ends by then. -/
def shortestDecimal (mantissa : Nat) (exponent : Int) : Decimal :=
  let interval := roundingInterval mantissa exponent
  let magnitude := decimalMagnitude interval
  match (List.range 17).findSome? fun k => interval.decimalOf? magnitude (k + 1) with
  | some decimal => decimal
  | none => ⟨0, 0⟩

/-- How a number is written once its digits are known. -/
structure DecimalLayout where
  /-- Least decimal exponent of the first digit that is written without an exponent part. -/
  leastPlain : Int
  /-- Greatest such exponent. -/
  greatestPlain : Int
  /-- Least count of digits in an exponent part. -/
  exponentWidth : Nat
  infinity : String
  notANumber : String

/-- Digits with the point after the first `whole` of them, `0` filling both sides. -/
def placePoint (digits : List Char) (whole : Int) : String :=
  if whole ≤ 0 then
    "0." ++ String.ofList (List.replicate (-whole).toNat '0' ++ digits)
  else
    let count := whole.toNat
    let padded := digits ++ List.replicate (count - digits.length) '0'
    let fraction := padded.drop count
    String.ofList (padded.take count) ++ "." ++
      (if fraction.isEmpty then "0" else String.ofList fraction)

/-- An exponent part: sign always, and at least the given count of digits. -/
def exponentPart (width : Nat) (exponent : Int) : String :=
  let digits := Nat.toDigits 10 exponent.natAbs
  (if exponent < 0 then "e-" else "e+") ++
    String.ofList (List.replicate (width - digits.length) '0' ++ digits)

def writeDigits (layout : DecimalLayout) (decimal : Decimal) : String :=
  let digits := Nat.toDigits 10 decimal.digits
  let leading : Int := decimal.exponent + digits.length - 1
  let significant := (digits.reverse.dropWhile (· == '0')).reverse
  if layout.leastPlain ≤ leading && leading ≤ layout.greatestPlain then
    placePoint significant (leading + 1)
  else
    match significant with
    | [] => "0.0"
    | first :: rest =>
      let fraction := if rest.isEmpty then "" else "." ++ String.ofList rest
      String.singleton first ++ fraction ++ exponentPart layout.exponentWidth leading

def Double.write (layout : DecimalLayout) : Double → String
  | .nan => layout.notANumber
  | .infinite negative => (if negative then "-" else "") ++ layout.infinity
  | .finite negative mantissa exponent =>
    (if negative then "-" else "") ++
      (if mantissa = 0 then "0.0" else writeDigits layout (shortestDecimal mantissa exponent))

end SchemaModules.Number
