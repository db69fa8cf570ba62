import Formwright.Storage.Path
import Formwright.Text.Utf8

/-!
What the program asks of the system it runs on: files, directories and two streams of text.
-/

namespace Formwright

inductive SystemError
  | notFound
  | alreadyExists
  | notDirectory
  | isDirectory
  | nameTooLong
  | tooManyLinks
  | zeroInPath
  | other (message : String)
deriving DecidableEq, Repr

def SystemError.message : SystemError → String
  | notFound => "No such file or directory (os error 2)"
  | alreadyExists => "File exists (os error 17)"
  | notDirectory => "Not a directory (os error 20)"
  | isDirectory => "Is a directory (os error 21)"
  | nameTooLong => "File name too long (os error 36)"
  | tooManyLinks => "Too many levels of symbolic links (os error 40)"
  | zeroInPath => "file name contained an unexpected NUL byte"
  | other message => message

inductive FileKind
  | file
  | directory
  | link
deriving DecidableEq, Repr

class Host (m : Type → Type) where
  /-- What a path leads to. -/
  kind : Path → m (Option FileKind)
  /-- What a path is, a link counting as a link. -/
  ownKind : Path → m (Option FileKind)
  /-- The names in a directory with what they are. -/
  list : Path → m (Except SystemError (List (String × FileKind)))
  read : Path → m (Except SystemError ByteArray)
  write : Path → ByteArray → m (Except SystemError Unit)
  makeDirectory : Path → m (Except SystemError Unit)
  print : String → m Unit
  printError : String → m Unit

/-- Work that may fail asks the system that it runs on. -/
instance {ε : Type} {m : Type → Type} [Monad m] [Host m] : Host (ExceptT ε m) where
  kind path := ExceptT.lift (Host.kind path)
  ownKind path := ExceptT.lift (Host.ownKind path)
  list path := ExceptT.lift (Host.list path)
  read path := ExceptT.lift (Host.read path)
  write path content := ExceptT.lift (Host.write path content)
  makeDirectory path := ExceptT.lift (Host.makeDirectory path)
  print text := ExceptT.lift (Host.print text)
  printError text := ExceptT.lift (Host.printError text)

inductive ReadError
  | system (error : SystemError)
  | notText
deriving DecidableEq, Repr

def ReadError.message : ReadError → String
  | system error => error.message
  | notText => "stream did not contain valid UTF-8"

namespace Host

variable {m : Type → Type} [Monad m] [Host m]

def leadsToDirectory (path : Path) : m Bool := return (← kind path) == some .directory

def leadsToFile (path : Path) : m Bool := return (← kind path) == some .file

def readText (path : Path) : m (Except ReadError String) := do
  match ← read path with
  | .error error => return .error (.system error)
  | .ok bytes =>
    match Text.decodeStrict bytes with
    | some text => return .ok text
    | none => return .error .notText

def settle (path : Path) (result : Except SystemError Unit) : m (Except SystemError Unit) := do
  match result with
  | .ok () => return .ok ()
  | .error error => return if ← leadsToDirectory path then .ok () else .error error

/-- Makes a directory and those above it that are missing. A path has more characters than
components. -/
def makeDirectoriesFrom : Nat → Path → m (Except SystemError Unit)
  | 0, _ => return .error .notFound
  | fuel + 1, path => do
    if path.text.isEmpty then return .ok ()
    match ← makeDirectory path with
    | .error .notFound =>
      match path.parent? with
      | none => return .error (.other "failed to create whole tree")
      | some parent =>
        match ← makeDirectoriesFrom fuel parent with
        | .error error => return .error error
        | .ok () => settle path (← makeDirectory path)
    | result => settle path result

def makeDirectories (path : Path) : m (Except SystemError Unit) :=
  makeDirectoriesFrom (path.text.length + 1) path

end Host
end Formwright
