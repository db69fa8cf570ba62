import Formwright.Form.Basic
import Formwright.Markup.Nesting
import Formwright.Markup.Tree
import Formwright.Text.Classes

/-!
Reading forms from markup. A widget is a tag of its kind or a generic tag with a `type`; its
properties and events are attributes or children, and grouping tags around children mean nothing.
-/

namespace Formwright

open Markup (Node Attribute)

structure Declarations where
  properties : Entries PropertyValue := []
  events : Entries String := []
  children : List Element := []

namespace Declarations

def groupingTags : List String := ["Layouts", "Layout", "Objects", "Properties", "Events"]

def untypedTag : String := "Component"

def namesEvent (name : String) : Bool :=
  match name.toList with
  | 'o' :: 'n' :: c :: _ => c.isLower
  | _ => false

def addEvent (declared : Declarations) (name handler : String) : Declarations :=
  if handler.isEmpty then declared
  else { declared with events := Entries.insert declared.events name handler }

def addProperty (declared : Declarations) (name value : String) : Declarations :=
  { declared with properties := Entries.insert declared.properties name (.ofText value) }

def addAttribute (reserved : List String) (declared : Declarations) (item : Attribute) :
    Declarations :=
  if reserved.contains item.name then declared
  else if namesEvent item.name then declared.addEvent item.name item.value
  else declared.addProperty item.name item.value

def ofAttributes (reserved : List String) (attributes : List Attribute) : Declarations :=
  attributes.foldl (addAttribute reserved) {}

/-- The name and the value of a `property` or an `event`. The value is an attribute, or else the
text that the content begins with. -/
def namedValue (valueName : String) (attributes : List Attribute) (children : List Node) :
    Option (String × String) := do
  let name ← (Markup.attributeValue attributes "name").filter (!·.isEmpty)
  let text := (Markup.leadingText children).map fun text => String.ofList (Text.trim text.toList)
  let value ← (Markup.attributeValue attributes valueName).or text
  return (name, value)

end Declarations

open Declarations in
def declaredKind (tag : String) (attributes : List Attribute) : Option Kind × List String :=
  if tag = untypedTag then
    (((Markup.attributeValue attributes "type").filter (!·.isEmpty)).map .ofName, ["id", "type"])
  else (some (.ofName tag), ["id"])

def elementOf (tag : String) (attributes : List Attribute) (declared : Declarations) : Element where
  id := (Markup.attributeValue attributes "id").getD ""
  kind := (declaredKind tag attributes).1
  properties := declared.properties
  events := if declared.events.isEmpty then none else some declared.events
  children := declared.children

open Declarations in
mutual

def readChild (declared : Declarations) : Node → Declarations
  | .element tag attributes _ children =>
    if tag = "property" then
      match namedValue "value" attributes children with
      | some (name, value) => declared.addProperty name value
      | none => declared
    else if tag = "event" then
      match namedValue "handler" attributes children with
      | some (name, handler) => declared.addEvent name handler
      | none => declared
    else if groupingTags.contains tag then readChildren declared children
    else
      let inner := readChildren (ofAttributes (declaredKind tag attributes).2 attributes) children
      { declared with children := declared.children ++ [elementOf tag attributes inner] }
  | _ => declared

def readChildren (declared : Declarations) : List Node → Declarations
  | [] => declared
  | node :: later => readChildren (readChild declared node) later

end

/-- Event attributes of the form itself are read and dropped. -/
def formOf (attributes : List Attribute) (children : List Node) : Form :=
  let declared := readChildren (Declarations.ofAttributes ["id", "name"] attributes) children
  { id := (Markup.attributeValue attributes "id").getD ""
    name := (Markup.attributeValue attributes "name").getD ""
    properties := declared.properties
    elements := declared.children }

def rootTag : String := "Form"

mutual

def outermostForms : Node → List Form
  | .element tag attributes _ children =>
    if tag = rootTag then [formOf attributes children] else outermostFormsOfAll children
  | _ => []

def outermostFormsOfAll : List Node → List Form
  | [] => []
  | node :: later => outermostForms node ++ outermostFormsOfAll later

end

inductive MarkupError
  | malformed (fault : Markup.Fault)
  | tooDeep (limit : Nat)
deriving DecidableEq, Repr

def MarkupError.message : MarkupError → String
  | .malformed fault => "malformed markup: " ++ fault.message
  | .tooDeep limit => s!"markup is nested deeper than {limit} levels"

def elementDepthLimit : Nat := 256

/-- Tags may nest a little deeper than the elements they make. -/
def markupDepthLimit : Nat := elementDepthLimit + 32

def readForms (document : String) : Except MarkupError (List Form) :=
  if Markup.nestsDeeperThan markupDepthLimit document.toList then .error (.tooDeep markupDepthLimit)
  else
    match Node.read document.toList with
    | .ok root => .ok (outermostForms root)
    | .error fault => .error (.malformed fault)

end Formwright
