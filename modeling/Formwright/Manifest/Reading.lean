import Formwright.Manifest.Shape
import Formwright.Text.Classes
import Formwright.Toml.Reader

/-!
Reading a manifest: it has to be valid TOML, have the right shape, and make sense.
-/

namespace Formwright.Manifest

inductive Problem
  | emptyName
  | noMarkupExtension
  | noScriptExtension
  | sharedExtension (extension : String)
  | emptyKind (entry : Nat)
  | emptyComponent (entry : Nat) (kind : String)
deriving DecidableEq, Repr

def Problem.message : Problem → String
  | emptyName => "[project] name must not be empty"
  | noMarkupExtension => "[input] markup_extensions must list at least one extension"
  | noScriptExtension => "[input] script_extensions must list at least one extension"
  | sharedExtension extension =>
    s!"Extension '{extension}' is listed as both a markup and a script extension"
  | emptyKind entry => s!"[[mappings]] entry {entry} has an empty kind"
  | emptyComponent entry kind => s!"[[mappings]] entry {entry} ('{kind}') has an empty component"

inductive Error
  | notToml
  | shape (error : ShapeError)
  | problem (problem : Problem)
deriving Repr

def isBlankText (text : String) : Bool := (Text.trim text.toList).isEmpty

def sameExtension (first second : String) : Bool :=
  first.toList.map Char.toLower == second.toList.map Char.toLower

def listsExtension (extensions : List String) (extension : String) : Bool :=
  extensions.any (sameExtension · extension)

def ruleProblem (entry : RuleEntry) (number : Nat) : Option Problem :=
  if isBlankText entry.kind then some (.emptyKind number)
  else if isBlankText entry.component then some (.emptyComponent number entry.kind)
  else none

/-- Rules count from one. -/
def rulesProblem (number : Nat) : List RuleEntry → Option Problem
  | [] => none
  | entry :: later => (ruleProblem entry number).or (rulesProblem (number + 1) later)

def problem? (manifest : Manifest) : Option Problem :=
  let input := manifest.input
  if isBlankText manifest.name then some .emptyName
  else if input.markupExtensions.isEmpty then some .noMarkupExtension
  else if input.scriptExtensions.isEmpty then some .noScriptExtension
  else
    match input.markupExtensions.find? (listsExtension input.scriptExtensions) with
    | some extension => some (.sharedExtension extension)
    | none => rulesProblem 1 manifest.rules

def read (document : String) : Except Error Manifest :=
  match Toml.read document with
  | none => .error .notToml
  | some entries =>
    match ofDocument entries with
    | .error error => .error (.shape error)
    | .ok manifest =>
      match problem? manifest with
      | some problem => .error (.problem problem)
      | none => .ok manifest

end Formwright.Manifest
