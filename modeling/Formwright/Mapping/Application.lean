import Formwright.Mapping.Rule

/-!
Applying a rule to the declared properties of an element. What is declared later wins, and what is
declared at all wins over the defaults of the rule.
-/

namespace Formwright.Mapping

/-- A field goes into the object that is there; anything else there gives way to a new object. -/
def putField (field : String) (value : Value) : Option Value → Value
  | some (.object fields) => .object (Entries.insert fields field value)
  | _ => .object [(field, value)]

def putAt (properties : Entries Value) (target : Target) (value : Value) : Entries Value :=
  match target.field with
  | none => Entries.insert properties target.name value
  | some field => Entries.upsert properties target.name (putField field value)

def applyOne (rule : Rule) (properties : Entries Value) (declared : String × PropertyValue) :
    Entries Value :=
  match Entries.find? rule.properties declared.1 with
  | some target => putAt properties target (target.conversion.apply declared.2)
  | none => properties

def addDefault (properties : Entries Value) (given : String × Value) : Entries Value :=
  match Entries.find? properties given.1, given.2 with
  | none, value => Entries.insert properties given.1 value
  | some (.object fields), .object missing =>
    Entries.insert properties given.1 (.object (Entries.insertMissing fields missing))
  | some _, _ => properties

def Rule.apply (rule : Rule) (declared : List (String × PropertyValue)) : Entries Value :=
  rule.defaults.foldl addDefault (declared.foldl (applyOne rule) [])

end Formwright.Mapping
