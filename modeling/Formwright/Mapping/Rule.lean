import Formwright.Entries
import Formwright.Form.Basic

/-!
Mapping rules: how elements of one kind become a component, and where their properties go, to a
property of the component or to a field of an object there. The place may call for another form of
the value.
-/

namespace Formwright.Mapping

inductive Value
  | scalar (value : PropertyValue)
  | object (fields : List (String × Value))
  | array (items : List Value)
  /-- An expression that is written as it is. -/
  | callback (code : String)
deriving Repr, Inhabited

def Value.text (text : String) : Value := .scalar (.text text)

def Value.flag (flag : Bool) : Value := .scalar (.flag flag)

structure Target where
  name : String
  field : Option String
deriving DecidableEq, Repr, Inhabited

inductive Conversion
  /-- Shown or hidden becomes a display keyword. -/
  | visibility
  /-- Enabled becomes disabled. -/
  | invert
  | keep
deriving DecidableEq, Repr

namespace Target

def ofPath (path : String) : Target :=
  match path.toList.dropWhile (· != '.') with
  | [] => ⟨path, none⟩
  | _ :: field => ⟨String.ofList (path.toList.takeWhile (· != '.')), some (String.ofList field)⟩

def path (target : Target) : String :=
  match target.field with
  | some field => target.name ++ "." ++ field
  | none => target.name

def conversion (target : Target) : Conversion :=
  match target.field with
  | some field => if field = "display" then .visibility else .keep
  | none => if target.name = "disabled" then .invert else .keep

end Target

def Conversion.apply : Conversion → PropertyValue → Value
  | .visibility, .flag shown => .text (if shown then "block" else "none")
  | .invert, .flag enabled => .flag (!enabled)
  | _, value => .scalar value

structure Rule where
  kind : Kind
  component : String
  properties : Entries Target
  defaults : Entries Value
  events : Entries String
deriving Repr, Inhabited

/-- Rules in order. The first one for a kind counts. -/
structure Table where
  rules : List Rule
deriving Repr

namespace Table

def find? (table : Table) (kind : Kind) : Option Rule := table.rules.find? (·.kind == kind)

def effectiveAfter (seen : List Kind) : List Rule → List Rule
  | [] => []
  | rule :: later =>
    if seen.contains rule.kind then effectiveAfter seen later
    else rule :: effectiveAfter (rule.kind :: seen) later

def effective (table : Table) : List Rule := effectiveAfter [] table.rules

end Table

end Formwright.Mapping
