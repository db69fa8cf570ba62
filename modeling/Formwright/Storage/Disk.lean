import Formwright.Entries
import Formwright.Storage.Host

/-!
A disk as a value: a tree of directories, files and links, and a working directory in it.
-/

namespace Formwright

inductive Item
  | file (content : ByteArray)
  | directory (entries : List (String × Item))
  | link (target : String)

namespace Item

def kind : Item → FileKind
  | .file _ => .file
  | .directory _ => .directory
  | .link _ => .link

def at? : List String → Item → Option Item
  | [], item => some item
  | name :: place, .directory entries => (Entries.find? entries name).bind (at? place)
  | _ :: _, _ => none

def put (new : Item) : List String → Item → Item
  | [], _ => new
  | name :: place, .directory entries =>
    let inner := (Entries.find? entries name).getD (.directory [])
    .directory (Entries.insert entries name (put new place inner))
  | name :: place, _ => .directory [(name, put new place (.directory []))]

def remove : List String → Item → Item
  | [name], .directory entries => .directory (Entries.erase entries name)
  | name :: place, .directory entries =>
    match Entries.find? entries name with
    | some inner => .directory (Entries.insert entries name (remove place inner))
    | none => .directory entries
  | _, item => item

end Item

structure Disk where
  top : Item
  /-- The working directory. -/
  here : List String

inductive Spot
  | taken (place : List String) (item : Item)
  | free (place : List String)

namespace Disk

def maxLinks : Nat := 40

def maxName : Nat := 255

def maxPath : Nat := 4095

/-- The names of a path. A separator at the end asks for a directory, as a point does. -/
def namesOf (text : List Char) : List String :=
  Path.segments text ++ if text.getLast? == some '/' then ["."] else []

/-- Follows names from a place. Links are followed on the way, and at the end if `follow` says so.
Behind a link `jump` goes on, from where the link leads. -/
def walkFrom (top : Item) (follow : Bool)
    (jump : List String → List String → Except SystemError Spot) :
    List String → List String → Except SystemError Spot
  | place, [] =>
    match top.at? place with
    | some item => .ok (.taken place item)
    | none => .error .notFound
  | place, name :: names =>
    match top.at? place with
    | some (.directory entries) =>
      if name = "." then walkFrom top follow jump place names
      else if name = ".." then walkFrom top follow jump place.dropLast names
      else if maxName < name.utf8ByteSize then .error .nameTooLong
      else
        match Entries.find? entries name with
        | none => if names.isEmpty then .ok (.free (place ++ [name])) else .error .notFound
        | some (.link target) =>
          if names.isEmpty && !follow then .ok (.taken (place ++ [name]) (.link target))
          else
            let start := if (Path.mk target).isAbsolute then [] else place
            jump start (namesOf target.toList ++ names)
        | some _ => walkFrom top follow jump (place ++ [name]) names
    | some _ => .error .notDirectory
    | none => .error .notFound

def walk (top : Item) (follow : Bool) : Nat → List String → List String → Except SystemError Spot
  | 0 => walkFrom top follow fun _ _ => .error .tooManyLinks
  | links + 1 => walkFrom top follow (walk top follow links)

def find (disk : Disk) (follow : Bool) (path : Path) : Except SystemError Spot :=
  let text := path.text.toList
  if text.contains '\x00' then .error .zeroInPath
  else if text.isEmpty then .error .notFound
  else if maxPath < path.text.utf8ByteSize then .error .nameTooLong
  else
    let start := if path.isAbsolute then [] else disk.here
    walk disk.top follow maxLinks start (namesOf text)

def kind? (disk : Disk) (follow : Bool) (path : Path) : Option FileKind :=
  match disk.find follow path with
  | .ok (.taken _ item) => some item.kind
  | _ => none

def read (disk : Disk) (path : Path) : Except SystemError ByteArray :=
  match disk.find true path with
  | .ok (.taken _ (.file content)) => .ok content
  | .ok (.taken _ _) => .error .isDirectory
  | .ok (.free _) => .error .notFound
  | .error error => .error error

def list (disk : Disk) (path : Path) : Except SystemError (List (String × FileKind)) :=
  match disk.find true path with
  | .ok (.taken _ (.directory entries)) => .ok (entries.map fun entry => (entry.1, entry.2.kind))
  | .ok (.taken _ _) => .error .notDirectory
  | .ok (.free _) => .error .notFound
  | .error error => .error error

def put (disk : Disk) (place : List String) (item : Item) : Disk :=
  { disk with top := Item.put item place disk.top }

def write (disk : Disk) (path : Path) (content : ByteArray) : Except SystemError Disk :=
  match disk.find true path with
  | .ok (.taken place (.file _)) => .ok (disk.put place (.file content))
  | .ok (.taken _ _) => .error .isDirectory
  | .ok (.free place) => .ok (disk.put place (.file content))
  | .error error => .error error

def trimSeparators (path : Path) : Path :=
  match (path.text.toList.reverse.dropWhile (· == '/')).reverse with
  | [] => path
  | text => ⟨String.ofList text⟩

def makeDirectory (disk : Disk) (path : Path) : Except SystemError Disk :=
  match disk.find false (trimSeparators path) with
  | .ok (.taken _ _) => .error .alreadyExists
  | .ok (.free place) => .ok (disk.put place (.directory []))
  | .error error => .error error

def link (disk : Disk) (path : Path) (target : String) : Except SystemError Disk :=
  match disk.find false path with
  | .ok (.taken _ _) => .error .alreadyExists
  | .ok (.free place) => .ok (disk.put place (.link target))
  | .error error => .error error

def remove (disk : Disk) (path : Path) : Except SystemError Disk :=
  match disk.find false path with
  | .ok (.taken place _) => .ok { disk with top := disk.top.remove place }
  | .ok (.free _) => .error .notFound
  | .error error => .error error

end Disk

structure Session where
  disk : Disk
  printed : String := ""
  errors : String := ""

namespace Session

def attempt (change : Disk → Except SystemError Disk) : StateM Session (Except SystemError Unit) :=
  fun session =>
    match change session.disk with
    | .ok disk => (.ok (), { session with disk })
    | .error error => (.error error, session)

instance : Host (StateM Session) where
  kind path := return (← get).disk.kind? true path
  ownKind path := return (← get).disk.kind? false path
  list path := return (← get).disk.list path
  read path := return (← get).disk.read path
  write path content := attempt (·.write path content)
  makeDirectory path := attempt (·.makeDirectory path)
  print text := modify fun session => { session with printed := session.printed ++ text }
  printError text := modify fun session => { session with errors := session.errors ++ text }

end Session
end Formwright
