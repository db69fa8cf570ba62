import Formwright.Component.Fragment
import Formwright.Component.Name
import Formwright.Script.Cleanup
import Formwright.Text.Columns

/-!
Handler bodies as functions of the generated code.
-/

namespace Formwright.Component

inductive Format
  | tsx
  | jsx
deriving DecidableEq, Repr, Inhabited

def Format.suffix : Format → String
  | .tsx => "tsx"
  | .jsx => "jsx"

def bodyLines (body : String) : List (List Char) := Text.shiftLeft (Script.cleanBody body.toList)

def indentedLines (lines : List (List Char)) : List (List Char) :=
  lines.map (Text.shiftLine indentation)

/-- A function inside an attribute. A line comment would swallow a brace on its own line. -/
def inlineFunction (body : String) : String :=
  match bodyLines body with
  | [] => "() => \x7b\x7d"
  | [line] =>
    if Text.occursIn ['/', '/'] line then block [line]
    else "(e) => \x7b " ++ String.ofList line ++ " \x7d"
  | lines => block lines
where
  block (lines : List (List Char)) : String :=
    "(e) => \x7b\n" ++
      String.join ((indentedLines lines).map fun line => String.ofList line ++ "\n") ++ "\x7d"

def parameter : Format → String
  | .tsx => "e: React.SyntheticEvent"
  | .jsx => "e"

def namedFunction (handler body : String) (format : Format) : List String :=
  let head := "const " ++ handlerName handler ++ " = (" ++ parameter format ++ ") => \x7b"
  match bodyLines body with
  | [] => [head ++ "\x7d;"]
  | lines => head :: (indentedLines lines).map String.ofList ++ ["\x7d;"]

end Formwright.Component
