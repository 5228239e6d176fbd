import SchemaModules.Number.Double

/-!
# Comparison of numbers

Whole numbers of any size and floating-point numbers are compared by their exact values. The two
infinities lie beyond all of them, and what is not a number is not less than anything.
-/

namespace SchemaModules.Number

inductive Magnitude
  | exact (value : Ratio)
  | infinite (negative : Bool)
  | nan

namespace Magnitude

def ofInt (value : Int) : Magnitude := exact (.ofInt value)

def ofDouble (value : Double) : Magnitude :=
  match value with
  | .infinite negative => infinite negative
  | value =>
    match value.toRatio? with
    | some ratio => exact ratio
    | none => nan

def less : Magnitude → Magnitude → Bool
  | nan, _ | _, nan => false
  | exact a, exact b => a.less b
  | infinite true, other => !(other matches infinite true)
  | infinite false, _ => false
  | exact _, infinite negative => !negative

def equal : Magnitude → Magnitude → Bool
  | exact a, exact b => a.equal b
  | infinite a, infinite b => a == b
  | _, _ => false

def isWhole : Magnitude → Bool
  | exact value => value.isWhole
  | _ => false

end Magnitude

end SchemaModules.Number
