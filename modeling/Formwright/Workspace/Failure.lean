import Formwright.Form.Basic
import Formwright.Manifest.Reading
import Formwright.Storage.Host

/-!
Why a command cannot do its work, told from the outermost to the innermost cause.
-/

namespace Formwright

def programName : String := "formshift"

def manifestName : String := programName ++ ".toml"

def Manifest.Error.message : Manifest.Error → String
  | .notToml => "TOML parse error"
  | .shape error => "TOML parse error: " ++ error.message
  | .problem found => found.message

inductive Failure
  | manifestMissing (path : Path)
  | manifestUnreadable (path : Path) (cause : ReadError)
  | manifestRejected (path : Path) (cause : Manifest.Error)
  | inputMissing (directory : String)
  | walkBroken (directory : Path) (cause : SystemError)
  | notDiscovered (cause : Failure)
  | notRead (path : Path) (cause : ReadError)
  | directoryNotMade (directory : Path) (cause : SystemError)
  | notWritten (file : String) (cause : SystemError)
  | fileMissing (file : Path)
  | notConverted (file : Path) (cause : Failure)
  | formsFailed (count : Nat)
  | nameTaken (name : String)
  | projectNotMade (cause : SystemError)
  | noRule (kind : Kind)
  | noProject (file : Path)
deriving Repr

namespace Failure

def message : Failure → String
  | manifestMissing path =>
    s!"could not find `{path.text}`. Run `{programName} init` to create a project"
  | manifestUnreadable path cause => s!"failed to read `{path.text}`: {cause.message}"
  | manifestRejected path cause => s!"failed to parse `{path.text}`: {cause.message}"
  | inputMissing directory =>
    s!"Input directory '{directory}' not found. Are you in a {programName} project root?"
  | walkBroken directory _ => s!"Failed to walk {directory.text}"
  | notDiscovered _ => "Failed to discover input files"
  | notRead path _ => s!"Failed to read {path.text}"
  | directoryNotMade directory _ => s!"Failed to create {directory.text}"
  | notWritten file _ => s!"Failed to write {file}"
  | fileMissing file => s!"File '{file.text}' not found"
  | notConverted file _ => s!"Failed to convert {file.text}"
  | formsFailed count => s!"conversion failed with {count} error(s)"
  | nameTaken name => s!"Directory '{name}' already exists"
  | projectNotMade _ => "Failed to create project directories"
  | noRule kind => s!"No mapping rule for kind '{kind.name}'"
  | noProject file =>
    s!"watch needs a project directory, not a single file ('{file.text}'). " ++
      s!"Use `{programName} convert` instead"

def causes : Failure → List String
  | walkBroken _ cause => [cause.message]
  | notDiscovered cause => cause.message :: cause.causes
  | notRead _ cause => [cause.message]
  | directoryNotMade _ cause => [cause.message]
  | notWritten _ cause => [cause.message]
  | notConverted _ cause => cause.message :: cause.causes
  | projectNotMade cause => [cause.message]
  | _ => []

end Failure

abbrev Task (m : Type → Type) := ExceptT Failure m

end Formwright
