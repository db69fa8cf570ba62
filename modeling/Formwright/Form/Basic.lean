import Formwright.Entries
import Formwright.Form.Property

/-!
Forms and the elements they are made of. The kinds of elements are the fifteen that the built-in
mapping knows, and any other by its name.
-/

namespace Formwright

inductive Kind
  | form | container | grid | edit | button | combo | checkBox | radio | static | tab | div | image
  | treeView | listBox | calendar
  | other (name : String)
deriving DecidableEq, Repr, Inhabited

namespace Kind

def known : List (String × Kind) :=
  [("Form", .form), ("Container", .container), ("Grid", .grid), ("Edit", .edit),
    ("Button", .button), ("Combo", .combo), ("CheckBox", .checkBox), ("Radio", .radio),
    ("Static", .static), ("Tab", .tab), ("Div", .div), ("Image", .image), ("TreeView", .treeView),
    ("ListBox", .listBox), ("Calendar", .calendar)]

def ofName (name : String) : Kind := (known.lookup name).getD (.other name)

def name : Kind → String
  | .form => "Form"
  | .container => "Container"
  | .grid => "Grid"
  | .edit => "Edit"
  | .button => "Button"
  | .combo => "Combo"
  | .checkBox => "CheckBox"
  | .radio => "Radio"
  | .static => "Static"
  | .tab => "Tab"
  | .div => "Div"
  | .image => "Image"
  | .treeView => "TreeView"
  | .listBox => "ListBox"
  | .calendar => "Calendar"
  | .other name => name

def isKnown : Kind → Bool
  | .other _ => false
  | _ => true

end Kind

structure Element where
  id : String
  /-- Absent for a generic element that does not tell its type. -/
  kind : Option Kind
  properties : Entries PropertyValue
  /-- Handler names by event. Absent when the element declares no event. -/
  events : Option (Entries String)
  children : List Element
deriving Repr, Inhabited

structure Form where
  id : String
  name : String
  properties : Entries PropertyValue
  elements : List Element
deriving Repr, Inhabited

end Formwright
