import Formwright.Number.Binary64

/-!
Decimal text of a binary number: the fewest digits that read back as the same number, of those the
nearest, written without an exponent.
-/

namespace Formwright.Number

/-- A number `digits * 10 ^ exponent`. -/
structure Decimal where
  digits : Nat
  exponent : Int
deriving DecidableEq, Repr

/-- The real numbers that round to a significand, in quarters of its unit. A power of two has a
neighbour below at half the usual distance. An even significand owns the two ends. -/
structure Interval where
  low : Nat
  high : Nat
  closed : Bool

def roundingInterval (significand : Nat) (exponent : Int) : Interval :=
  let isPower := significand = Nat.pow 2 52 && Binary64.leastExponent < exponent
  ⟨4 * significand - (if isPower then 1 else 2), 4 * significand + 2, significand % 2 == 0⟩

def Interval.contains (interval : Interval) (a b point : Nat) : Bool :=
  if interval.closed then interval.low * a ≤ point * b && point * b ≤ interval.high * a
  else interval.low * a < point * b && point * b < interval.high * a

def gridRatio (exponent step : Int) : Nat × Nat :=
  (Nat.pow 2 (exponent - 2).toNat * Nat.pow 10 (-step).toNat,
    Nat.pow 2 (2 - exponent).toNat * Nat.pow 10 step.toNat)

/-- The point of the grid of `10 ^ step` nearest to a number, if one of its two neighbours there
reads back as the number. A tie goes up. -/
def onGrid (significand : Nat) (exponent step : Int) : Option Decimal :=
  let interval := roundingInterval significand exponent
  let (a, b) := gridRatio exponent step
  let value := 4 * significand * a
  let below := value / b
  let above := below + 1
  match interval.contains a b below, interval.contains a b above with
  | true, true =>
    some ⟨if value - below * b < above * b - value then below else above, step⟩
  | true, false => some ⟨below, step⟩
  | false, true => some ⟨above, step⟩
  | false, false => none

def leadingPlaces (numerator denominator : Nat) : Nat → Nat → Nat
  | 0, places => places
  | fuel + 1, places =>
    if denominator ≤ numerator * Nat.pow 10 places then places
    else leadingPlaces numerator denominator fuel (places + 1)

def magnitude (significand : Nat) (exponent : Int) : Int :=
  let numerator := significand * Nat.pow 2 exponent.toNat
  let denominator := Nat.pow 2 (-exponent).toNat
  let whole := numerator / denominator
  if 0 < whole then ((Nat.toDigits 10 whole).length : Int) - 1
  else -(leadingPlaces numerator denominator 400 1 : Int)

/-- Seventeen digits always suffice. -/
def shortest (significand : Nat) (exponent : Int) : Decimal :=
  let first := magnitude significand exponent
  ((List.range 17).findSome? fun (more : Nat) => onGrid significand exponent (first - more)).getD
    ⟨significand, exponent⟩

def stripZeros : Nat → Decimal → Decimal
  | 0, decimal => decimal
  | fuel + 1, decimal =>
    if decimal.digits % 10 = 0 then stripZeros fuel ⟨decimal.digits / 10, decimal.exponent + 1⟩
    else decimal

def Decimal.positional (decimal : Decimal) : List Char :=
  let digits := Nat.toDigits 10 decimal.digits
  if 0 ≤ decimal.exponent then digits ++ List.replicate decimal.exponent.toNat '0'
  else
    let places := (-decimal.exponent).toNat
    if places < digits.length then
      digits.take (digits.length - places) ++ '.' :: digits.drop (digits.length - places)
    else '0' :: '.' :: List.replicate (places - digits.length) '0' ++ digits

def magnitudeText (significand : Nat) (exponent : Int) : List Char :=
  if significand = 0 then ['0']
  else (stripZeros 20 (shortest significand exponent)).positional

def binary64Text : Binary64 → List Char
  | .finite negative significand exponent =>
    (if negative then ['-'] else []) ++ magnitudeText significand exponent
  | .infinite negative => (if negative then ['-'] else []) ++ "inf".toList
  | .notANumber => "NaN".toList

def integerText (n : Int) : List Char :=
  if n < 0 then '-' :: Nat.toDigits 10 n.natAbs else Nat.toDigits 10 n.natAbs

end Formwright.Number
