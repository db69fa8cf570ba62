import Formwright.Component.Conversion
import Formwright.Workspace.Inputs

/-!
Converting a project, or one markup file with the script beside it.
-/

namespace Formwright

structure Report where
  filesRead : Nat
  outputDirectory : Path
  written : List Path
  outcome : Component.Outcome

namespace Workspace

open Component (Options Outcome CodeUnit)

variable {m : Type → Type} [Monad m] [Host m]

def loadManifest (root : Path) : Task m Manifest := do
  let path := root.join ⟨manifestName⟩
  match ← Host.readText path with
  | .error (.system .notFound) => throw (.manifestMissing path)
  | .error cause => throw (.manifestUnreadable path cause)
  | .ok text =>
    match Manifest.read text with
    | .ok manifest => return manifest
    | .error cause => throw (.manifestRejected path cause)

def readInput (path : Path) : Task m String := do
  match ← Host.readText path with
  | .ok text => return text
  | .error cause => throw (.notRead path cause)

def readInputs : List InputFile → Task m (List (String × String))
  | [] => return []
  | file :: later => do
    let text ← readInput file.path
    return (file.key, text) :: (← readInputs later)

def unitFile (directory : Path) (unit : CodeUnit) : Path := directory.join ⟨unit.path⟩

def writeFile (file : Path) (text : String) : Task m Unit := do
  match ← Host.write file text.toUTF8 with
  | .ok () => return ()
  | .error cause => throw (.notWritten file.text cause)

def storeUnit (directory : Path) (unit : CodeUnit) : Task m Path := do
  let target := unitFile directory unit
  if let some parent := target.parent? then
    if let .error cause ← Host.makeDirectories parent then throw (.directoryNotMade parent cause)
  writeFile target unit.code
  return target

def storeUnits (directory : Path) : List CodeUnit → Task m (List Path)
  | [] => return []
  | unit :: later => do
    let target ← storeUnit directory unit
    return target :: (← storeUnits directory later)

def optionsOf (manifest : Manifest) : Options where
  format := manifest.output.format
  directory := manifest.output.componentsDirectory

def findInputs (root : Path) (input : Manifest.Input) : Task m Inputs :=
  tryCatch (Inputs.find root input) fun cause => throw (.notDiscovered cause)

def convertProject (root : Path) (manifest : Manifest) (write : Bool) : Task m Report := do
  let outputDirectory := root.join ⟨manifest.output.directory⟩
  let inputs ← findInputs root manifest.input
  let documents ← readInputs inputs.markup
  let scripts ← readInputs inputs.scripts
  let outcome := Component.convertTexts manifest.table (optionsOf manifest)
    (Entries.ofPairs documents) (Entries.ofPairs scripts)
  let written ← if write then storeUnits outputDirectory outcome.units else pure []
  return ⟨inputs.size, outputDirectory, written, outcome⟩

def displayName (path : Path) : String := path.fileName?.getD path.text

def convertSingle (markup : Path) (input : Manifest.Input) (table : Mapping.Table)
    (options : Options) : Task m Outcome := do
  let document ← readInput markup
  match ← Inputs.companionScript markup input.scriptExtensions with
  | none => return Component.convertTexts table options [(displayName markup, document)] []
  | some script =>
    let body ← readInput script
    return Component.convertTexts table options [(displayName markup, document)]
      [(displayName script, body)]

end Workspace
end Formwright
