import Formwright.Number.Binary64

/-!
Reading numerals. Only ASCII digits count, and the whole text has to be a numeral.
-/

namespace Formwright.Number

def digitValue (c : Char) : Nat := c.toNat - '0'.toNat

def ofDigits (digits : List Char) : Nat :=
  digits.foldl (fun value c => 10 * value + digitValue c) 0

def isDigits (text : List Char) : Bool := !text.isEmpty && text.all Char.isDigit

/-- A sign in front of a text, `true` for a minus, and what follows it. -/
def splitSign : List Char → Bool × List Char
  | '-' :: rest => (true, rest)
  | '+' :: rest => (false, rest)
  | text => (false, text)

def readInteger (text : List Char) : Option Int :=
  let (negative, digits) := splitSign text
  if isDigits digits then
    some (if negative then -(ofDigits digits : Int) else ofDigits digits)
  else none

def fitsInt64 (n : Int) : Bool := -(Int.pow 2 63) ≤ n && n < Int.pow 2 63

def readInt64 (text : List Char) : Option Int := (readInteger text).filter fitsInt64

/-- `digits` times a power of ten. Far outside the range of the format the powers are not formed:
a number of more than 310 places is infinite, one that starts 330 places after the point is zero. -/
def ofDecimal (negative : Bool) (digits : List Char) (exponent : Int) : Binary64 :=
  let significant := digits.dropWhile (· == '0')
  let places : Int := significant.length + exponent
  if significant.isEmpty || places < -330 then .nearest negative 0 1
  else if 310 < places then .infinite negative
  else .nearest negative (ofDigits significant * Nat.pow 10 exponent.toNat)
    (Nat.pow 10 (-exponent).toNat)

def readExponent : List Char → Option Int
  | [] => some 0
  | c :: rest => if c = 'e' || c = 'E' then readInteger rest else none

def readUnsigned (negative : Bool) (text : List Char) : Option Binary64 :=
  let whole := text.takeWhile Char.isDigit
  let (fraction, rest) :=
    match text.dropWhile Char.isDigit with
    | '.' :: rest => (rest.takeWhile Char.isDigit, rest.dropWhile Char.isDigit)
    | rest => ([], rest)
  if whole.isEmpty && fraction.isEmpty then none
  else
    (readExponent rest).map fun exponent =>
      ofDecimal negative (whole ++ fraction) (exponent - fraction.length)

def readBinary64 (text : List Char) : Option Binary64 :=
  let (negative, unsigned) := splitSign text
  let name := String.ofList (unsigned.map Char.toLower)
  if name = "inf" || name = "infinity" then some (.infinite negative)
  else if name = "nan" then some .notANumber
  else readUnsigned negative unsigned

end Formwright.Number
