import Formwright.Markup.Expansion
import Formwright.Toml.Value

/-!
Numbers of a TOML document. A number that the target format cannot hold makes the document invalid.
-/

namespace Formwright.Toml

open Number (fitsInt64 ofDigits readBinary64)

def groupedAfter (digit : Char → Bool) : List Char → Option (List Char)
  | [] => some []
  | c :: rest =>
    if digit c then (groupedAfter digit rest).map (c :: ·)
    else if c = '_' then
      match rest with
      | [] => none
      | d :: later => if digit d then (groupedAfter digit later).map (d :: ·) else none
    else none

def grouped (digit : Char → Bool) (text : List Char) : Option (List Char) :=
  if text.head?.any digit then groupedAfter digit text else none

def wholeDigits (text : List Char) : Option (List Char) :=
  match grouped Char.isDigit text with
  | some ('0' :: _ :: _) => none
  | digits => digits

def ofRadix (radix : Nat) (digits : List Char) : Nat :=
  digits.foldl (fun value c => radix * value + (Markup.hexValue c).getD 0) 0

def isRadixDigit (radix : Nat) (c : Char) : Bool := (Markup.hexValue c).any (· < radix)

def readRadix (radix : Nat) (text : List Char) : Option Int :=
  (grouped (isRadixDigit radix) text).map fun digits => (ofRadix radix digits : Int)

def isSign (c : Char) : Bool := c = '+' || c = '-'

def splitSign : List Char → List Char × List Char
  | c :: rest => if isSign c then ([c], rest) else ([], c :: rest)
  | [] => ([], [])

def readInteger (text : List Char) : Option Int :=
  match text with
  | '0' :: 'x' :: digits => readRadix 16 digits
  | '0' :: 'o' :: digits => readRadix 8 digits
  | '0' :: 'b' :: digits => readRadix 2 digits
  | text =>
    let (sign, unsigned) := splitSign text
    (wholeDigits unsigned).map fun digits =>
      if sign = ['-'] then -(ofDigits digits : Int) else (ofDigits digits : Int)

def readExponent : List Char → Option (List Char)
  | [] => some []
  | mark :: rest =>
    if mark = 'e' || mark = 'E' then
      let (sign, digits) := splitSign rest
      (grouped Char.isDigit digits).map fun digits => 'e' :: sign ++ digits
    else none

def isFractionPart (c : Char) : Bool := c.isDigit || c = '_'

def decimalText (text : List Char) : Option (List Char) := do
  let (sign, unsigned) := splitSign text
  let whole ← wholeDigits (unsigned.takeWhile isFractionPart)
  match unsigned.dropWhile isFractionPart with
  | '.' :: rest =>
    let fraction ← grouped Char.isDigit (rest.takeWhile isFractionPart)
    return sign ++ whole ++ '.' :: fraction ++ (← readExponent (rest.dropWhile isFractionPart))
  | rest =>
    guard !rest.isEmpty
    return sign ++ whole ++ (← readExponent rest)

def readNumber (text : List Char) : Option Binary64 :=
  let (sign, unsigned) := splitSign text
  if unsigned = "inf".toList then some (.infinite (sign == ['-']))
  else if unsigned = "nan".toList then some .notANumber
  else ((decimalText text).bind readBinary64).filter Binary64.isFinite

def readNumeral (text : List Char) : Option Value :=
  match readInteger text with
  | some n => if fitsInt64 n then some (.integer n) else none
  | none => (readNumber text).map .number

end Formwright.Toml
