import Formwright.Number.Reading
import Formwright.Text.Classes

/-!
Property values of a widget. A value is given as text, and its type is read off that text once.
-/

namespace Formwright

inductive PropertyValue
  | flag (value : Bool)
  | integer (value : Int)
  | number (value : Binary64)
  | text (value : String)
deriving DecidableEq, Repr, Inhabited

namespace PropertyValue

open Text Number

def dropMinus : List Char → List Char
  | '-' :: rest => rest
  | numeral => numeral

/-- Digits of any script. -/
def looksWhole (numeral : List Char) : Bool :=
  let digits := dropMinus numeral
  !digits.isEmpty && digits.all isDecimalDigit

def looksDecimal (numeral : List Char) : Bool :=
  match (dropMinus numeral).dropWhile isDecimalDigit with
  | '.' :: fraction => !fraction.isEmpty && fraction.all isDecimalDigit
  | _ => false

def finiteOrText (raw : String) : PropertyValue :=
  match readBinary64 raw.toList with
  | some value => if value.isFinite then .number value else .text raw
  | none => .text raw

def ofText (raw : String) : PropertyValue :=
  if raw = "true" then .flag true
  else if raw = "false" then .flag false
  else if looksWhole raw.toList then
    match readInt64 raw.toList with
    | some value => .integer value
    | none => finiteOrText raw
  else if looksDecimal raw.toList then finiteOrText raw
  else .text raw

end PropertyValue
end Formwright
