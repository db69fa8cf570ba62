import Formwright.Component.Expression
import Formwright.Form.Basic
import Formwright.Text.Columns
import Formwright.Text.Substitution

/-!
Fragments of markup inside generated code: elements with attributes and content, and comments that
stand for elements without a component.
-/

namespace Formwright.Component

open Mapping

def indentation : List Char := [' ', ' ']

def breaksQuotes (text : String) : Bool :=
  text.toList.any fun c => c = '"' || c = '\n' || c = '\r' || c = '&'

def isContentDelimiter (c : Char) : Bool :=
  c = '{' || c = '}' || c = '<' || c = '>' || c = '&' || c = '\n' || c = '\r'

def showsAsIs (text : String) : Bool :=
  !text.isEmpty && Text.isTrimmed text.toList && !text.toList.any isContentDelimiter

def renderAttribute (name : String) (value : Value) : String :=
  match value with
  | .scalar (.flag true) => name
  | .scalar (.text text) =>
    if breaksQuotes text then name ++ "=" ++ braced (valueCode value)
    else name ++ "=\"" ++ text ++ "\""
  | _ => name ++ "=" ++ braced (valueCode value)

def contentText (value : Value) : String :=
  match value with
  | .scalar (.text text) => if showsAsIs text then text else braced (valueCode value)
  | _ => braced (valueCode value)

def shiftFragment (fragment : String) (lead : List Char) : String :=
  String.ofList (Text.shiftRight fragment.toList lead)

def openTag (component : String) (properties : Entries Value) : String :=
  let attributes := properties.map fun item => " " ++ renderAttribute item.1 item.2
  String.join (("<" ++ component) :: attributes)

/-- The property `children` is content, not an attribute. It stands before the nested fragments,
and has a line of its own only if there are any. -/
def renderTag (component : String) (properties : Entries Value) (nested : List String) :
    String :=
  let text := (Entries.find? properties "children").map contentText
  let start := openTag component (Entries.erase properties "children")
  let close := "</" ++ component ++ ">"
  match text, nested with
  | none, [] => start ++ " />"
  | some text, [] => start ++ ">" ++ text ++ close
  | text, nested =>
    let lines := (text.toList ++ nested).map fun part => shiftFragment part indentation ++ "\n"
    start ++ ">\n" ++ String.join lines ++ close

def escapeLabel (label : List Char) : List Char := Text.replaceAll ['*', '/'] ['*', ' ', '/'] label

def unsupportedLabel (kind : Kind) (id : String) : String :=
  if id.isEmpty then kind.name else kind.name ++ " (" ++ id ++ ")"

def unsupportedNote (kind : Kind) (id : String) : String :=
  let label := String.ofList (escapeLabel (unsupportedLabel kind id).toList)
  "\x7b/* unsupported component: " ++ label ++ " */\x7d"

end Formwright.Component
