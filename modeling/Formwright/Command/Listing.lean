import Formwright.Text.Columns
import Formwright.Workspace.Conversion

/-!
The command that shows the mapping rules in force.
-/

namespace Formwright.Command

open Mapping

def titled (title : String) (lines : List String) : String :=
  if lines.isEmpty then ""
  else s!"  {title}:\n" ++ String.join (lines.map fun line => s!"    {line}\n")

def ruleText (rule : Rule) : String :=
  s!"{rule.kind.name} → {rule.component}\n" ++
    titled "properties" (rule.properties.map fun item => s!"{item.1} → {item.2.path}") ++
    titled "defaults"
      (rule.defaults.map fun item => s!"{item.1} = {Component.valueCode item.2}") ++
    titled "events" (rule.events.map fun item => s!"{item.1} → {item.2}")

def ruleLine (rule : Rule) : String :=
  String.ofList (Text.padEnd 12 rule.kind.name.toList) ++ s!" → {rule.component}\n"

def listing (table : Table) : String := String.join (table.effective.map ruleLine)

variable {m : Type → Type} [Monad m] [Host m]

def currentTable : Task m Table := do
  if (← Host.kind ⟨manifestName⟩).isSome then
    return (← Workspace.loadManifest ⟨"."⟩).table
  else return .standard

def showMappings (kind : Option String) : Task m Unit := do
  let table ← currentTable
  match kind with
  | none => Host.print (listing table)
  | some name =>
    match table.find? (.ofName name) with
    | some rule => Host.print (ruleText rule)
    | none => throw (.noRule (.ofName name))

end Formwright.Command
