import Formwright.Ignore.Rules
import Formwright.Text.Columns
import Formwright.Workspace.Failure

/-!
The inputs of a project: the markup and the scripts below its input directory, without what its
ignore file leaves out.
-/

namespace Formwright

inductive InputKind
  | markup
  | script
deriving DecidableEq, Repr

structure InputFile where
  /-- The path below the input directory. -/
  key : String
  path : Path
deriving DecidableEq, Repr

structure Inputs where
  markup : List InputFile
  scripts : List InputFile
deriving Repr

def Inputs.size (inputs : Inputs) : Nat := inputs.markup.length + inputs.scripts.length

namespace Manifest.Input

def kindOf (input : Input) (path : Path) : Option InputKind :=
  match path.extension? with
  | none => none
  | some extension =>
    if listsExtension input.markupExtensions extension then some .markup
    else if listsExtension input.scriptExtensions extension then some .script
    else none

end Manifest.Input

namespace Inputs

def keyOf (base path : Path) : String :=
  let rest := (Path.below base.components path.components).getD path.components
  String.intercalate "/" (rest.map Path.Component.text)

def sortByKey (files : List InputFile) : List InputFile :=
  files.mergeSort fun first second => decide (first.key ≤ second.key)

def ofKind (kind : InputKind) (base : Path) (input : Manifest.Input) (files : List Path) :
    List InputFile :=
  sortByKey ((files.filter (input.kindOf · == some kind)).map fun path => ⟨keyOf base path, path⟩)

def ofFiles (base : Path) (input : Manifest.Input) (files : List Path) : Inputs :=
  ⟨ofKind .markup base input files, ofKind .script base input files⟩

variable {m : Type → Type} [Monad m] [Host m]

def textLines (bytes : ByteArray) : List (List Char) :=
  match Text.decodeStrict bytes with
  | some text => Text.lines text.toList
  | none => (linesFrom [] bytes.toList).map String.toList
where
  decodeLine (line : List UInt8) : Option String :=
    Text.decodeStrict ⟨(dropReturn line).reverse.toArray⟩
  dropReturn : List UInt8 → List UInt8
    | 13 :: line => line
    | line => line
  linesFrom (line : List UInt8) : List UInt8 → List String
    | [] => if line.isEmpty then [] else (Text.decodeStrict ⟨line.reverse.toArray⟩).toList
    | byte :: rest =>
      if byte = 10 then
        match decodeLine line with
        | some text => text :: linesFrom [] rest
        | none => []
      else linesFrom (byte :: line) rest

def dropMarks : List (List Char) → List (List Char)
  | [] => []
  | first :: later => first.dropWhile (· == '\uFEFF') :: later

def ignoreRules (root : Path) : m Ignore.Rules := do
  match ← Host.read (root.join ⟨".gitignore"⟩) with
  | .ok bytes => return .ofLines root (dropMarks (textLines bytes))
  | .error _ => return .ofLines root []

def depthLimit : Nat := 4096

/-- The files below a directory, in the order in which they are listed. Ignored directories are not
entered, and links are not followed. -/
def filesBelow (rules : Ignore.Rules) : Nat → Path → m (Except SystemError (List Path))
  | 0, _ => return .ok []
  | fuel + 1, directory => do
    match ← Host.list directory with
    | .error error => return .error error
    | .ok entries =>
      let parts : List (Except SystemError (List Path)) ← entries.mapM fun (name, kind) => do
        let path := directory.join ⟨name⟩
        if rules.verdict path (kind == .directory) == .ignored then return .ok []
        else
          match kind with
          | .file => return .ok [path]
          | .directory => filesBelow rules fuel path
          | .link => return .ok []
      return (parts.mapM id).map List.flatten

/-- An input directory that is a link is entered even if it is ignored. -/
def filesOf (rules : Ignore.Rules) (directory : Path) : m (Except SystemError (List Path)) := do
  let own ← Host.ownKind directory
  if own == some .directory && rules.verdict directory true == .ignored then return .ok []
  else filesBelow rules depthLimit directory

def find (root : Path) (input : Manifest.Input) : Task m Inputs := do
  let directory := root.join ⟨input.directory⟩
  if !(← Host.leadsToDirectory directory) then throw (.inputMissing input.directory)
  let rules ← ignoreRules root
  match ← filesOf rules directory with
  | .ok files => return ofFiles directory input files
  | .error cause => throw (.walkBroken directory cause)

/-- The script beside a markup file: the first file that differs from it only in the extension. -/
def companionScript (markup : Path) : List String → m (Option Path)
  | [] => return none
  | extension :: later => do
    let candidate := markup.withExtension extension
    if ← Host.leadsToFile candidate then return some candidate
    else companionScript markup later

end Inputs
end Formwright
