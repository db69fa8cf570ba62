import Formwright.Number.Binary64
import Formwright.Number.Reading

/-!
Values of a TOML document, whose tables have their keys in ascending order, and the normal spelling
of dates and times.
-/

namespace Formwright.Toml

inductive Value
  | text (value : String)
  | integer (value : Int)
  | number (value : Binary64)
  | flag (value : Bool)
  /-- A date, a time or both, in its normal spelling. -/
  | moment (value : String)
  | array (items : List Value)
  | table (entries : List (String × Value))
deriving Repr, Inhabited

def isControl (c : Char) : Bool := (c.toNat < 0x20 && c != '\t') || c.toNat = 0x7F

/-! ## Dates and times -/

open Number (isDigits ofDigits)

def digits (width : Nat) (text : List Char) : Option (Nat × List Char) :=
  if (text.take width).length = width && isDigits (text.take width) then
    some (ofDigits (text.take width), text.drop width)
  else none

def separator (c : Char) : List Char → Option (List Char)
  | [] => none
  | d :: rest => if c = d then some rest else none

def isLeapYear (year : Nat) : Bool := year % 4 = 0 && (year % 100 != 0 || year % 400 = 0)

def daysOfMonth (year month : Nat) : Nat :=
  if month = 2 then (if isLeapYear year then 29 else 28)
  else if [4, 6, 9, 11].contains month then 30
  else if 1 ≤ month && month ≤ 12 then 31
  else 0

def readDate (text : List Char) : Option (List Char × List Char) := do
  let (year, rest) ← digits 4 text
  let (month, rest) ← digits 2 (← separator '-' rest)
  let (day, rest) ← digits 2 (← separator '-' rest)
  guard (1 ≤ day && day ≤ daysOfMonth year month)
  return (text.take 10, rest)

def fractionText (fraction : List Char) : List Char :=
  let kept := ((fraction.take 9).reverse.dropWhile (· == '0')).reverse
  '.' :: if kept.isEmpty then ['0'] else kept

def readFraction : List Char → Option (List Char × List Char)
  | '.' :: rest =>
    let fraction := rest.takeWhile Char.isDigit
    if fraction.isEmpty then none
    else some (fractionText fraction, rest.dropWhile Char.isDigit)
  | rest => some ([], rest)

def readTime (text : List Char) : Option (List Char × List Char) := do
  let (hour, rest) ← digits 2 text
  let (minute, rest) ← digits 2 (← separator ':' rest)
  guard (hour ≤ 23 && minute ≤ 59)
  match separator ':' rest with
  | none => return (text.take 5, rest)
  | some rest =>
    let (second, rest) ← digits 2 rest
    guard (second ≤ 60)
    let (fraction, rest) ← readFraction rest
    return (text.take 8 ++ fraction, rest)

/-- No offset, the offset zero, or hours and minutes. A zero has a plus. -/
def readOffset : List Char → Option (List Char)
  | [] => some []
  | [c] => if c = 'Z' || c = 'z' then some ['Z'] else none
  | sign :: rest => do
    guard (sign = '+' || sign = '-')
    let (hour, later) ← digits 2 rest
    let (minute, later) ← digits 2 (← separator ':' later)
    guard (hour ≤ 23 && minute ≤ 59 && later.isEmpty)
    return (if hour = 0 && minute = 0 then '+' else sign) :: rest

def isDateTimeMark (c : Char) : Bool := c = 'T' || c = 't' || c = ' '

/-- The normal spelling of a date, a time, or a date and a time with or without an offset. -/
def readMoment (text : List Char) : Option (List Char) :=
  match readDate text with
  | some (date, []) => some date
  | some (date, mark :: rest) => do
    guard (isDateTimeMark mark)
    let (time, rest) ← readTime rest
    return date ++ 'T' :: time ++ (← readOffset rest)
  | none =>
    match readTime text with
    | some (time, []) => some time
    | _ => none

end Formwright.Toml
