import Formwright.Component.Conversion
import Formwright.Workspace.Conversion
import Formwright.Workspace.Subject

/-!
The command that converts a project or a single markup file.
-/

namespace Formwright.Command

open Component (Outcome CodeUnit FormError)

variable {m : Type → Type} [Monad m] [Host m]

def showWarnings (outcome : Outcome) : Task m Unit :=
  outcome.warnings.forM fun warning => Host.printError s!"warning: {warning.message}\n"

def reportErrors (outcome : Outcome) : Task m Unit := do
  unless outcome.errors.isEmpty do
    outcome.errors.forM fun error =>
      Host.printError s!"  {error.form} - {error.cause.message}\n"
    throw (.formsFailed outcome.errors.length)

def showSummary (outcome : Outcome) : Task m Unit :=
  Host.print (outcome.summary.pretty ++ "\n")

def convertedLine (root path : Path) : String :=
  "   Converted " ++ ((path.relativeTo? root).getD path).text ++ "\n"

def finishedLine (manifest : Manifest) (report : Report) : String :=
  s!"   Finished converting {report.outcome.units.length} form(s) from {report.filesRead} " ++
    s!"file(s) into {manifest.output.directory}\n"

def convertWorkspace (root : Path) (json : Bool) : Task m Unit := do
  let manifest ← Workspace.loadManifest root
  let report ← Workspace.convertProject root manifest (!json)
  if json then showSummary report.outcome
  else
    showWarnings report.outcome
    report.written.forM fun path => Host.print (convertedLine root path)
    if report.outcome.success then Host.print (finishedLine manifest report)
  reportErrors report.outcome

def unitListing (units : List CodeUnit) : String :=
  String.join (units.map fun unit =>
    (if 1 < units.length then s!"// {unit.path}\n" else "") ++ unit.code)

def convertMarkup (file : Path) : Task m Outcome :=
  tryCatch (Workspace.convertSingle file {} .standard {}) fun cause =>
    throw (.notConverted file cause)

def convertAlone (file : Path) (json : Bool) : Task m Unit := do
  if !(← Host.leadsToFile file) then throw (.fileMissing file)
  let outcome ← convertMarkup file
  if json then showSummary outcome
  else
    showWarnings outcome
    Host.print (unitListing outcome.units)
  reportErrors outcome

def runConversion (target : String) (json : Bool) : Task m Unit := do
  match ← Workspace.Subject.detect target with
  | .project root => convertWorkspace root json
  | .file file => convertAlone file json

end Formwright.Command
