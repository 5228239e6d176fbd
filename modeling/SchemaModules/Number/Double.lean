/-!
# Floating-point numbers of 64 bits

A finite number is held as `± mantissa · 2 ^ exponent`, so comparison, divisibility and rounding
are exact arithmetic on naturals. `Double.ofRatio` rounds a quotient to the nearest number, a tie
to the even mantissa; every number is built by it, hence equal numbers have equal representations.
-/

namespace SchemaModules.Number

inductive Double
  | finite (negative : Bool) (mantissa : Nat) (exponent : Int)
  | infinite (negative : Bool)
  | nan
  deriving DecidableEq, Repr, Inhabited

/-- A quotient of naturals with a sign; the denominator is positive. -/
structure Ratio where
  negative : Bool
  numerator : Nat
  denominator : Nat

/-- The quotient rounded to the nearest natural, a tie to the even one. -/
def roundHalfEven (numerator denominator : Nat) : Nat :=
  let quotient := numerator / denominator
  let twice := 2 * (numerator % denominator)
  if twice < denominator then quotient
  else if denominator < twice then quotient + 1
  else quotient + quotient % 2

/-- A power of a natural; negative exponents count as zero. -/
def power (base : Nat) (exponent : Int) : Nat := Nat.pow base exponent.toNat

/-- The least mantissa of a number that is not among the smallest ones. -/
def leastMantissa : Nat := Nat.pow 2 52

/-- The quotient divided by the power of two with that exponent. -/
def scaleDown (numerator denominator : Nat) (exponent : Int) : Nat × Nat :=
  if exponent < 0 then (numerator * power 2 (-exponent), denominator)
  else (numerator, denominator * power 2 exponent)

/-- Exponent of the smallest numbers. -/
def minExponent : Int := -1074

/-- Exponent of the largest numbers. -/
def maxExponent : Int := 971

def Double.zero (negative : Bool) : Double := .finite negative 0 minExponent

/-- The exponent for which a quotient has a mantissa of 53 bits, or the least exponent. -/
def mantissaExponent (numerator denominator : Nat) : Int :=
  let guess : Int := (numerator.log2 : Int) - denominator.log2 - 52
  let (n, d) := scaleDown numerator denominator guess
  max minExponent (if n / d < leastMantissa then guess - 1 else guess)

/-- The number nearest to `± numerator / denominator`. -/
def Double.ofRatio (ratio : Ratio) : Double :=
  if ratio.numerator = 0 then .zero ratio.negative
  else
    let exponent := mantissaExponent ratio.numerator ratio.denominator
    let (n, d) := scaleDown ratio.numerator ratio.denominator exponent
    let mantissa := roundHalfEven n d
    let (mantissa, exponent) :=
      if mantissa = 2 * leastMantissa then (leastMantissa, exponent + 1) else (mantissa, exponent)
    if maxExponent < exponent then .infinite ratio.negative
    else .finite ratio.negative mantissa exponent

/-- The number nearest to `± digits · 10 ^ exponent`. Exponents far outside the range are not
expanded, since the result is settled. -/
def Double.ofDecimal (negative : Bool) (digits : Nat) (exponent : Int) : Double :=
  let magnitude : Int := exponent + (Nat.toDigits 10 digits).length
  if digits = 0 || magnitude < -400 then .zero negative
  else if 400 < magnitude then .infinite negative
  else if exponent < 0 then .ofRatio ⟨negative, digits, power 10 (-exponent)⟩
  else .ofRatio ⟨negative, digits * power 10 exponent, 1⟩

/-- The exact value of a finite number. -/
def Double.toRatio? : Double → Option Ratio
  | .finite negative mantissa exponent =>
    if exponent < 0 then some ⟨negative, mantissa, power 2 (-exponent)⟩
    else some ⟨negative, mantissa * power 2 exponent, 1⟩
  | _ => none

def Ratio.ofInt (n : Int) : Ratio := ⟨n < 0, n.natAbs, 1⟩

/-- The numerator with its sign. -/
def Ratio.signed (r : Ratio) : Int := if r.negative then -r.numerator else r.numerator

def Ratio.less (a b : Ratio) : Bool := a.signed * b.denominator < b.signed * a.denominator

def Ratio.equal (a b : Ratio) : Bool := a.signed * b.denominator == b.signed * a.denominator

def Ratio.isWhole (r : Ratio) : Bool := r.numerator % r.denominator == 0

/-- The quotient of two ratios; the second must not be zero. -/
def Ratio.divide (a b : Ratio) : Ratio :=
  ⟨a.negative != b.negative, a.numerator * b.denominator, a.denominator * b.numerator⟩

end SchemaModules.Number
