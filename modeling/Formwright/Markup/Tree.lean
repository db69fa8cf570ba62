import Formwright.Markup.Expansion

/-!
The tree of a document, and how it is built from the tokens.
-/

namespace Formwright.Markup

structure Attribute where
  space : Option String
  name : String
  value : String
deriving DecidableEq, Repr, Inhabited

inductive Node
  | element (name : String) (attributes : List Attribute) (selfClosing : Bool)
      (children : List Node)
  | text (content : String)
  | comment (content : String)
  | instruction (target content : String)
deriving Repr, Inhabited

def attributeValue (attributes : List Attribute) (name : String) : Option String :=
  (attributes.find? fun item => item.space.isNone && item.name == name).map (·.value)

def leadingText : List Node → Option String
  | .text content :: _ => some content
  | _ => none

/-! ## Building -/

/-- Qualifiers with what they stand for, innermost first. -/
abbrev Scope := List (String × String)

def webName (host : String) (path : List String) : String :=
  "http" ++ "://" ++ host ++ "/" ++ String.intercalate "/" path

def meaningOfXml : String := webName "www.w3.org" ["XML", "1998", "namespace"]

def meaningOfXmlns : String := webName "www.w3.org" ["2000", "xmlns", ""]

structure PlainAttribute where
  name : QualifiedName
  value : String
  position : Position

/-- A start tag that is being read, its attributes last first. -/
structure Tag where
  name : QualifiedName
  position : Position
  attributes : List PlainAttribute
  declared : Scope

/-- An element that is not yet closed, its children last first. -/
structure Frame where
  name : QualifiedName
  attributes : List Attribute
  scope : Scope
  children : List Node

structure Builder where
  tag : Option Tag
  /-- Innermost first. -/
  open_ : List Frame
  root : Option Node

namespace Builder

def start : Builder := ⟨none, [], none⟩

def declare (tag : Tag) (qualifier meaning : String) (position : Position) : Except Fault Tag :=
  if meaning = meaningOfXmlns then .error (.meaningOfXmlnsTaken position)
  else if qualifier = "xml" && meaning != meaningOfXml then .error (.wrongMeaningOfXml position)
  else if qualifier != "xml" && meaning = meaningOfXml then .error (.meaningOfXmlTaken position)
  else if (tag.declared.lookup qualifier).isSome then
    .error (.repeatedNamespace qualifier position)
  else if meaning = meaningOfXml then .ok tag
  else .ok { tag with declared := tag.declared ++ [(qualifier, meaning)] }

/-- The namespace of unqualified elements is checked, but no name depends on it. -/
def declareDefault (tag : Tag) (meaning : String) (position : Position) : Except Fault Tag :=
  if meaning = meaningOfXml then .error (.meaningOfXmlTaken position)
  else if meaning = meaningOfXmlns then .error (.meaningOfXmlnsTaken position)
  else .ok tag

def addAttribute (tag : Tag) (name : QualifiedName) (value : Cursor) (position : Position) :
    Except Fault Tag := do
  let value := String.ofList (← expandAttribute value)
  if name.qualifier = "xmlns".toList then
    declare tag (String.ofList name.localName) value position
  else if name.localName = "xmlns".toList then declareDefault tag value position
  else return { tag with attributes := ⟨name, value, position⟩ :: tag.attributes }

def meaningOf (scope : Scope) (qualifier : List Char) (position : Position) :
    Except Fault (Option String) :=
  if qualifier.isEmpty then .ok none
  else
    match scope.lookup (String.ofList qualifier) with
    | some meaning => .ok (some meaning)
    | none => .error (.unknownNamespace (String.ofList qualifier) position)

def attributeSpace (scope : Scope) (item : PlainAttribute) : Except Fault (Option String) :=
  if item.name.qualifier = "xml".toList then .ok (some meaningOfXml)
  else meaningOf scope item.name.qualifier item.position

def resolveAttributes (scope : Scope) (done : List Attribute) :
    List PlainAttribute → Except Fault (List Attribute)
  | [] => .ok done
  | item :: later => do
    let space ← attributeSpace scope item
    let name := String.ofList item.name.localName
    if done.any fun earlier => earlier.space == space && earlier.name == name then
      throw (.repeatedAttribute name item.position)
    resolveAttributes scope (done ++ [⟨space, name, item.value⟩]) later

def outerScope (builder : Builder) : Scope := (builder.open_.head?.map (·.scope)).getD []

def append (builder : Builder) (node : Node) : Builder :=
  match builder.open_ with
  | [] =>
    match node with
    | .element .. => { builder with root := some node }
    | _ => builder
  | frame :: outer =>
    { builder with open_ := { frame with children := node :: frame.children } :: outer }

def appendText (builder : Builder) (content : String) : Builder :=
  match builder.open_ with
  | frame :: outer =>
    match frame.children with
    | .text earlier :: older =>
      let children := .text (earlier ++ content) :: older
      { builder with open_ := { frame with children } :: outer }
    | _ => builder.append (.text content)
  | [] => builder

def Frame.close (frame : Frame) (selfClosing : Bool) : Node :=
  .element (String.ofList frame.name.localName) frame.attributes selfClosing frame.children.reverse

def finishTag (builder : Builder) (tag : Tag) (selfClosing : Bool) : Except Fault Builder := do
  let scope := tag.declared ++ builder.outerScope
  let attributes ← resolveAttributes scope [] tag.attributes.reverse
  let _ ← meaningOf scope tag.name.qualifier tag.position
  let frame : Frame := ⟨tag.name, attributes, scope, []⟩
  let builder := { builder with tag := none }
  if selfClosing then return builder.append (Frame.close frame true)
  else return { builder with open_ := frame :: builder.open_ }

def closeFrame (builder : Builder) (name : QualifiedName) (position : Position) :
    Except Fault Builder :=
  match builder.open_ with
  | [] => .ok builder
  | frame :: outer =>
    if frame.name = name then .ok ({ builder with open_ := outer }.append (Frame.close frame false))
    else .error (.mismatchedTag frame.name.text name.text position)

def add (builder : Builder) : Token → Except Fault Builder
  | .tagStart name position =>
    if name.qualifier = "xmlns".toList then .error (.reservedElementQualifier position)
    else .ok { builder with tag := some ⟨name, position, [], []⟩ }
  | .attribute name value position =>
    match builder.tag with
    | none => .ok builder
    | some tag =>
      (addAttribute tag name value position).map fun tag => { builder with tag := some tag }
  | .tagEnd selfClosing =>
    match builder.tag with
    | none => .ok builder
    | some tag => builder.finishTag tag selfClosing
  | .closeTag name position => builder.closeFrame name position
  | .text content => (expandText content).map fun text => builder.appendText (String.ofList text)
  | .characterData content => .ok (builder.appendText (String.ofList (normaliseSection [] content)))
  | .comment content => .ok (builder.append (.comment (String.ofList content)))
  | .instruction target content =>
    .ok (builder.append (.instruction (String.ofList target) (String.ofList content)))

def finish (builder : Builder) : Except Fault Node :=
  match builder.open_, builder.root with
  | _ :: _, _ => .error .rootNotClosed
  | [], some root => .ok root
  | [], none => .error .noRoot

end Builder

/-- Reads a document. A fault of the tree wins over a lexical fault that comes later. -/
def Node.read (document : List Char) : Except Fault Node := do
  let lexed := lex document
  let builder ← lexed.tokens.foldlM Builder.add .start
  match lexed.fault with
  | some fault => throw fault
  | none => builder.finish

end Formwright.Markup
