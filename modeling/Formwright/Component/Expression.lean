import Formwright.Mapping.Rule
import Formwright.Number.Decimal
import Formwright.Text.Quotation

/-!
Values as expressions of the generated code.
-/

namespace Formwright.Component

open Mapping

def literal (text : String) : String := String.ofList (Text.quotedLiteral text.toList)

def isKeyCharacter (c : Char) : Bool := c.isAlphanum || c = '_' || c = '$'

def isPlainKey (key : String) : Bool :=
  match key.toList with
  | [] => false
  | c :: rest => (isKeyCharacter c && !c.isDigit) && rest.all isKeyCharacter

def fieldKey (key : String) : String := if isPlainKey key then key else literal key

def scalarCode : PropertyValue → String
  | .flag value => if value then "true" else "false"
  | .integer value => String.ofList (Number.integerText value)
  | .number value => String.ofList (Number.binary64Text value)
  | .text value => literal value

mutual

def valueCode : Value → String
  | .scalar value => scalarCode value
  | .object [] => "\x7b\x7d"
  | .object (field :: fields) =>
    "\x7b " ++ String.intercalate ", " (fieldCodes (field :: fields)) ++ " \x7d"
  | .array items => "[" ++ String.intercalate ", " (itemCodes items) ++ "]"
  | .callback code => code

def itemCodes : List Value → List String
  | [] => []
  | item :: items => valueCode item :: itemCodes items

def fieldCodes : List (String × Value) → List String
  | [] => []
  | (key, value) :: fields => (fieldKey key ++ ": " ++ valueCode value) :: fieldCodes fields

end

def braced (code : String) : String := "\x7b" ++ code ++ "\x7d"

end Formwright.Component
