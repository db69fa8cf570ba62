import Formwright.Component.Callback
import Formwright.Mapping.Standard
import Formwright.Toml.Value

/-!
The manifest of a project: where its inputs are, where its output goes, and rules of its own.
-/

namespace Formwright.Manifest

structure Input where
  directory : String := "legacy"
  markupExtensions : List String := ["xfdl", "xadl", "xml"]
  scriptExtensions : List String := ["xjs", "js"]
deriving DecidableEq, Repr

structure Output where
  directory : String := "generated"
  componentsDirectory : String := "src/components"
  format : Component.Format := .tsx
deriving DecidableEq, Repr

structure RuleEntry where
  kind : String
  component : String
  properties : List (String × String) := []
  defaults : List (String × Toml.Value) := []
  events : List (String × String) := []
deriving Repr

end Manifest

structure Manifest where
  name : String
  input : Manifest.Input := {}
  output : Manifest.Output := {}
  rules : List Manifest.RuleEntry := []
deriving Repr

namespace Manifest

open Mapping

mutual

def valueOf : Toml.Value → Mapping.Value
  | .text value => .scalar (.text value)
  | .integer value => .scalar (.integer value)
  | .number value => .scalar (.number value)
  | .flag value => .scalar (.flag value)
  | .moment value => .scalar (.text value)
  | .array items => .array (valuesOf items)
  | .table entries => .object (fieldsOf entries)

def valuesOf : List Toml.Value → List Mapping.Value
  | [] => []
  | item :: items => valueOf item :: valuesOf items

def fieldsOf : List (String × Toml.Value) → List (String × Mapping.Value)
  | [] => []
  | (key, value) :: entries => (key, valueOf value) :: fieldsOf entries

end

def RuleEntry.rule (entry : RuleEntry) : Rule where
  kind := .ofName entry.kind
  component := entry.component
  properties := Entries.ofPairs (entry.properties.map fun item => (item.1, .ofPath item.2))
  defaults := Entries.ofPairs (fieldsOf entry.defaults)
  events := Entries.ofPairs entry.events

end Manifest

def Manifest.table (manifest : Manifest) : Mapping.Table :=
  .extending (manifest.rules.map Manifest.RuleEntry.rule)

end Formwright
