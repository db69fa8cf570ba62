import Formwright.Command.Run

/-!
The program on a real system.
-/

namespace Formwright

def systemError (code : UInt32) (text : String) : SystemError :=
  match code.toNat with
  | 2 => .notFound
  | 17 => .alreadyExists
  | 20 => .notDirectory
  | 21 => .isDirectory
  | 36 => .nameTooLong
  | 40 => .tooManyLinks
  | number => .other s!"{text} (os error {number})"

def systemErrorOf : IO.Error → SystemError
  | .alreadyExists _ code text => systemError code text
  | .otherError code text => systemError code text
  | .resourceBusy code text => systemError code text
  | .resourceVanished code text => systemError code text
  | .unsupportedOperation code text => systemError code text
  | .hardwareFault code text => systemError code text
  | .unsatisfiedConstraints code text => systemError code text
  | .illegalOperation code text => systemError code text
  | .protocolError code text => systemError code text
  | .timeExpired code text => systemError code text
  | .interrupted _ code text => systemError code text
  | .noFileOrDirectory _ code text => systemError code text
  | .invalidArgument _ code text => systemError code text
  | .permissionDenied _ code text => systemError code text
  | .resourceExhausted _ code text => systemError code text
  | .inappropriateType _ code text => systemError code text
  | .noSuchThing _ code text => systemError code text
  | .unexpectedEof => .other "unexpected end of file"
  | .userError text => .other text

def withPath {α : Type} (path : Path) (action : String → IO α) : IO (Except SystemError α) := do
  if path.text.isEmpty then return .error .notFound
  else if path.text.toList.contains '\x00' then return .error .zeroInPath
  else
    try return .ok (← action path.text)
    catch error => return .error (systemErrorOf error)

def fileKind : IO.FS.FileType → Option FileKind
  | .dir => some .directory
  | .file => some .file
  | .symlink => some .link
  | .other => none

def lookUp (path : Path) (followLinks : Bool) : IO (Option FileKind) := do
  let found ← withPath path fun text => do
    let place := (← IO.currentDir) / text
    return (← if followLinks then place.metadata else place.symlinkMetadata).type
  return match found with
    | .ok type => fileKind type
    | .error _ => none

def listDirectory (path : Path) : IO (Except SystemError (List (String × FileKind))) :=
  withPath path fun text => do
    let entries ← ((← IO.currentDir) / text).readDir
    let found ← entries.toList.mapM fun entry => do
      let kind := fileKind (← entry.path.symlinkMetadata).type
      return kind.map fun kind => (entry.fileName, kind)
    return found.filterMap id

instance : Host IO where
  kind path := lookUp path true
  ownKind path := lookUp path false
  list := listDirectory
  read path := withPath path fun text => IO.FS.readBinFile text
  write path content := withPath path fun text => IO.FS.writeBinFile text content
  makeDirectory path := withPath path fun text => IO.FS.createDir text
  print text := do (← IO.getStdout).putStr text
  printError text := do (← IO.getStderr).putStr text

/-- Looks for changes five times a second. -/
partial def keepWatching (watch : Command.Watch) : IO UInt32 := do
  (← IO.getStdout).flush
  IO.sleep 200
  keepWatching (← watch.again)

end Formwright

def main (arguments : List String) : IO UInt32 := do
  match ← Formwright.Command.run arguments with
  | .exit code => return code
  | .watching watch => Formwright.keepWatching watch
