import Formwright.Manifest.Basic
import Formwright.Number.Decimal
import Formwright.Text.Quotation

/-!
Bringing a TOML document into the shape of a manifest. The first mismatch, in the order of the keys,
is told; keys that mean nothing are passed over. A table of fixed keys may also be given as an array
of their values in order.
-/

namespace Formwright.Manifest

inductive ShapeError
  | missingField (name : String)
  | wrongType (found : Toml.Value) (expected : String)
  | tooFewItems (count : Nat) (expected : String)
  | unknownFormat (name : String)
  | formatNotNamed
  | formatWithoutName
  | formatWithManyNames
  | formatPayload (found : Toml.Value)
deriving Repr

def pointedText (value : Binary64) : String :=
  let digits := Number.binary64Text value
  String.ofList (if value.isFinite && !digits.contains '.' then digits ++ ['.', '0'] else digits)

def foundText : Toml.Value → String
  | .text value => "string " ++ Text.quoteText value
  | .integer value => "integer `" ++ String.ofList (Number.integerText value) ++ "`"
  | .number value => "floating point `" ++ pointedText value ++ "`"
  | .flag value => "boolean `" ++ (if value then "true" else "false") ++ "`"
  | .moment _ => "map"
  | .array _ => "sequence"
  | .table _ => "map"

def typeName : Toml.Value → String
  | .text _ => "string"
  | .integer _ => "integer"
  | .number _ => "float"
  | .flag _ => "boolean"
  | .moment _ => "datetime"
  | .array _ => "array"
  | .table _ => "table"

def payloadMessage (found : Toml.Value) : String :=
  match found with
  | .array _ => "expected empty array"
  | .table _ => "expected empty table"
  | found => "expected table, found " ++ typeName found

def ShapeError.message : ShapeError → String
  | missingField name => s!"missing field `{name}`"
  | wrongType found expected => "invalid type: " ++ foundText found ++ ", expected " ++ expected
  | tooFewItems count expected => s!"invalid length {count}, expected {expected}"
  | unknownFormat name => s!"unknown variant `{name}`, expected `tsx` or `jsx`"
  | formatNotNamed => "wanted string or table"
  | formatWithoutName => "wanted exactly 1 element, found 0 elements"
  | formatWithManyNames => "wanted exactly 1 element, more than 1 element"
  | formatPayload found => payloadMessage found

abbrev Shaped (α : Type) := Except ShapeError α

def shapeText : Toml.Value → Shaped String
  | .text value => .ok value
  | value => .error (.wrongType value "a string")

def shapeItems {α : Type} (item : Toml.Value → Shaped α) : Toml.Value → Shaped (List α)
  | .array items => items.mapM item
  | value => .error (.wrongType value "a sequence")

/-- A moment stands for a table of one entry, which holds its text under this key. -/
def momentKey : String := "$__toml_private_datetime"

def entriesOf : Toml.Value → Option (List (String × Toml.Value))
  | .table entries => some entries
  | .moment text => some [(momentKey, .text text)]
  | _ => none

def shapeEntries {α : Type} (item : Toml.Value → Shaped α) (value : Toml.Value) :
    Shaped (List (String × α)) :=
  match entriesOf value with
  | some entries => entries.mapM fun (key, value) => return (key, ← item value)
  | none => .error (.wrongType value "a map")

/-- The two ways to give a record: by keys, which come in ascending order, or by position. -/
structure RecordShape (α : Type) where
  expected : String
  /-- Takes up the value of a key; other keys are passed over. -/
  take : α → String → Toml.Value → Shaped α
  fields : List String

def ofEntries {α : Type} (shape : RecordShape α) (record : α) :
    List (String × Toml.Value) → Shaped α
  | [] => .ok record
  | (key, value) :: later => do ofEntries shape (← shape.take record key value) later

def ofItems {α : Type} (shape : RecordShape α) (record : α) :
    List String → List Toml.Value → Shaped α
  | field :: fields, item :: items => do ofItems shape (← shape.take record field item) fields items
  | _, _ => .ok record

def shapeRecord {α : Type} (shape : RecordShape α) (start : α) (value : Toml.Value) : Shaped α :=
  match value, entriesOf value with
  | .array items, _ => ofItems shape start shape.fields items
  | _, some entries => ofEntries shape start entries
  | value, none => .error (.wrongType value shape.expected)

def require {α : Type} (value : Toml.Value) (name expected : String) : Option α → Shaped α
  | some given => .ok given
  | none =>
    match value with
    | .array items => .error (.tooFewItems items.length expected)
    | _ => .error (.missingField name)

def shapeProject (value : Toml.Value) : Shaped String := do
  let name ← shapeRecord
    { expected := "struct ProjectConfig"
      fields := ["name"]
      take := fun name key value => do
        if key = "name" then return some (← shapeText value) else return name }
    none value
  require value "name" "struct ProjectConfig with 1 element" name

def shapeInput : Toml.Value → Shaped Input :=
  shapeRecord
    { expected := "struct InputConfig"
      fields := ["dir", "markup_extensions", "script_extensions"]
      take := fun input key value => do
        if key = "dir" then return { input with directory := ← shapeText value }
        else if key = "markup_extensions" then
          return { input with markupExtensions := ← shapeItems shapeText value }
        else if key = "script_extensions" then
          return { input with scriptExtensions := ← shapeItems shapeText value }
        else return input }
    {}

def formatOfName (name : String) : Shaped Component.Format :=
  if name = "tsx" then .ok .tsx
  else if name = "jsx" then .ok .jsx
  else .error (.unknownFormat name)

def shapeFormat : Toml.Value → Shaped Component.Format
  | .text name => formatOfName name
  | .table [] => .error .formatWithoutName
  | .table [(name, payload)] => do
    let format ← formatOfName name
    match payload with
    | .array [] => return format
    | .table [] => return format
    | payload => throw (.formatPayload payload)
  | .table _ => .error .formatWithManyNames
  | _ => .error .formatNotNamed

def shapeOutput : Toml.Value → Shaped Output :=
  shapeRecord
    { expected := "struct OutputConfig"
      fields := ["dir", "components_dir", "format"]
      take := fun output key value => do
        if key = "dir" then return { output with directory := ← shapeText value }
        else if key = "components_dir" then
          return { output with componentsDirectory := ← shapeText value }
        else if key = "format" then return { output with format := ← shapeFormat value }
        else return output }
    {}

structure PartialRule where
  kind : Option String := none
  component : Option String := none
  properties : List (String × String) := []
  defaults : List (String × Toml.Value) := []
  events : List (String × String) := []

def shapeRule (value : Toml.Value) : Shaped RuleEntry := do
  let rule ← shapeRecord
    { expected := "struct MappingConfig"
      fields := ["kind", "component", "properties", "defaults", "events"]
      take := fun (rule : PartialRule) key value => do
        if key = "kind" then return { rule with kind := some (← shapeText value) }
        else if key = "component" then return { rule with component := some (← shapeText value) }
        else if key = "properties" then
          return { rule with properties := ← shapeEntries shapeText value }
        else if key = "defaults" then return { rule with defaults := ← shapeEntries .ok value }
        else if key = "events" then return { rule with events := ← shapeEntries shapeText value }
        else return rule }
    {} value
  let expected := "struct MappingConfig with 5 elements"
  return {
    kind := ← require value "kind" expected rule.kind
    component := ← require value "component" expected rule.component
    properties := rule.properties
    defaults := rule.defaults
    events := rule.events }

structure PartialManifest where
  name : Option String := none
  input : Input := {}
  output : Output := {}
  rules : List RuleEntry := []

def takeSection (manifest : PartialManifest) (key : String) (value : Toml.Value) :
    Shaped PartialManifest := do
  if key = "project" then return { manifest with name := some (← shapeProject value) }
  else if key = "input" then return { manifest with input := ← shapeInput value }
  else if key = "output" then return { manifest with output := ← shapeOutput value }
  else if key = "mappings" then return { manifest with rules := ← shapeItems shapeRule value }
  else return manifest

def ofDocument (entries : List (String × Toml.Value)) : Shaped Manifest := do
  let manifest ← entries.foldlM (fun manifest (key, value) => takeSection manifest key value)
    ({} : PartialManifest)
  match manifest.name with
  | none => throw (.missingField "project")
  | some name =>
    return { name, input := manifest.input, output := manifest.output, rules := manifest.rules }

end Formwright.Manifest
