/-!
Paths as texts: their components, and the paths that can be made of them.
-/

namespace Formwright

structure Path where
  text : String
deriving DecidableEq, Repr, Inhabited

namespace Path

inductive Component
  | root
  /-- A leading `.`; elsewhere it means nothing. -/
  | current
  | parent
  | name (text : String)
deriving DecidableEq, Repr

def isAbsolute (path : Path) : Bool := path.text.toList.head? == some '/'

/-- `segment` is the current segment, last character first. -/
def segmentsAfter (segment : List Char) : List Char → List String
  | [] => [String.ofList segment.reverse]
  | c :: rest =>
    if c = '/' then String.ofList segment.reverse :: segmentsAfter [] rest
    else segmentsAfter (c :: segment) rest

def segments (text : List Char) : List String := (segmentsAfter [] text).filter (!·.isEmpty)

def ofSegment (segment : String) : Component := if segment = ".." then .parent else .name segment

def plainComponents (segments : List String) : List Component :=
  (segments.filter (· != ".")).map ofSegment

def componentsOf (text : List Char) : List Component :=
  let segments := segments text
  if text.head? == some '/' then .root :: plainComponents segments
  else
    match segments with
    | "." :: later => .current :: plainComponents later
    | segments => plainComponents segments

def components (path : Path) : List Component := componentsOf path.text.toList

def Component.text : Component → String
  | .root => "/"
  | .current => "."
  | .parent => ".."
  | .name text => text

def join (base relative : Path) : Path :=
  if relative.isAbsolute || base.text.isEmpty then relative
  else if base.text.toList.getLast? == some '/' then ⟨base.text ++ relative.text⟩
  else ⟨base.text ++ "/" ++ relative.text⟩

def inits : List Char → List (List Char)
  | [] => [[]]
  | c :: rest => [] :: (inits rest).map (c :: ·)

def tails : List Char → List (List Char)
  | [] => [[]]
  | c :: rest => (c :: rest) :: tails rest

def shortestStart (text : List Char) (components : List Component) : Option (List Char) :=
  (inits text).find? (componentsOf · == components)

def parent? (path : Path) : Option Path :=
  match path.components.getLast? with
  | none => none
  | some .root => none
  | some _ =>
    (shortestStart path.text.toList path.components.dropLast).map fun text => ⟨String.ofList text⟩

def fileName? (path : Path) : Option String :=
  match path.components.getLast? with
  | some (.name text) => some text
  | _ => none

/-- The part after the last point, which is not the first character. -/
def extensionOf (name : List Char) : Option (List Char) :=
  let extension := (name.reverse.takeWhile (· != '.')).reverse
  if extension.length + 1 < name.length then some extension else none

def extension? (path : Path) : Option String :=
  path.fileName?.bind fun name => (extensionOf name.toList).map String.ofList

def withExtension (path : Path) (extension : String) : Path :=
  match path.fileName?, shortestStart path.text.toList path.components with
  | some name, some trimmed =>
    let dropped := ((extensionOf name.toList).map fun old => old.length + 1).getD 0
    let stem := String.ofList (trimmed.take (trimmed.length - dropped))
    if extension.isEmpty then ⟨stem⟩ else ⟨stem ++ "." ++ extension⟩
  | _, _ => path

def below (base path : List Component) : Option (List Component) :=
  if base.isPrefixOf path then some (path.drop base.length) else none

def relativeTo? (path base : Path) : Option Path := do
  let rest ← below base.components path.components
  let text ← (tails path.text.toList).reverse.find? (componentsOf · == rest)
  return ⟨String.ofList text⟩

end Path
end Formwright
