import Formwright.Workspace.Failure

/-!
What the target of a command is: a project or a single markup file.
-/

namespace Formwright.Workspace

inductive Subject
  | project (root : Path)
  | file (path : Path)
deriving DecidableEq, Repr

namespace Subject

variable {m : Type → Type} [Monad m] [Host m]

def ofManifest (path : Path) : Subject :=
  match path.parent?.filter (!·.text.isEmpty) with
  | some root => .project root
  | none => .project ⟨"."⟩

def isMarkup (path : Path) : Bool :=
  path.extension?.any (Manifest.listsExtension ({} : Manifest.Input).markupExtensions)

/-- A directory is a project, and so is what cannot be told. -/
def detect (text : String) : m Subject := do
  let path : Path := ⟨text⟩
  if ← Host.leadsToDirectory path then return .project path
  else if path.fileName? == some manifestName then return ofManifest path
  else if isMarkup path then return .file path
  else return .project path

end Subject
end Formwright.Workspace
