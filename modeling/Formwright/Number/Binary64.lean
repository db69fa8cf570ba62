/-!
Numbers of the 64-bit binary format, kept as exact fractions: a sign, a whole significand and a
power of two. Rounding is to the nearest, with ties to the even significand.
-/

namespace Formwright

inductive Binary64
  /-- The significand is below `2 ^ 53`, and at least `2 ^ 52` unless the exponent is the least. -/
  | finite (negative : Bool) (significand : Nat) (exponent : Int)
  | infinite (negative : Bool)
  | notANumber
deriving DecidableEq, Repr, Inhabited

namespace Binary64

def isFinite : Binary64 → Bool
  | .finite .. => true
  | _ => false

def leastExponent : Int := -1074

def greatestExponent : Int := 971

def roundHalfEven (numerator denominator : Nat) : Nat :=
  let whole := numerator / denominator
  let twice := 2 * (numerator % denominator)
  if twice < denominator then whole
  else if denominator < twice then whole + 1
  else whole + whole % 2

def scaleDown (numerator denominator : Nat) (exponent : Int) : Nat × Nat :=
  (numerator * Nat.pow 2 (-exponent).toNat, denominator * Nat.pow 2 exponent.toNat)

def exponentOf (numerator denominator : Nat) : Int :=
  let guess : Int := (numerator.log2 : Int) - (denominator.log2 : Int) - 52
  let (n, d) := scaleDown numerator denominator guess
  let exact := if n < Nat.pow 2 52 * d then guess - 1 else guess
  max exact leastExponent

def nearest (negative : Bool) (numerator denominator : Nat) : Binary64 :=
  if numerator = 0 then .finite negative 0 leastExponent
  else
    let exponent := exponentOf numerator denominator
    let (n, d) := scaleDown numerator denominator exponent
    let rounded := roundHalfEven n d
    let (significand, exponent) :=
      if rounded = Nat.pow 2 53 then (Nat.pow 2 52, exponent + 1) else (rounded, exponent)
    if greatestExponent < exponent then .infinite negative
    else .finite negative significand exponent

end Binary64
end Formwright
