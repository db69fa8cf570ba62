import Formwright.Form.Basic
import Formwright.Text.CaseMapping
import Formwright.Text.Classes

/-!
Names of generated things: words are joined, each with a capital first letter.
-/

namespace Formwright.Component

open Text

def separateCases : List Char → List Char
  | [] => []
  | [c] => [c]
  | a :: b :: rest =>
    if a.isLower && b.isUpper then a :: '_' :: separateCases (b :: rest)
    else a :: separateCases (b :: rest)

/-- `word` is the current word, last character first. -/
def wordsAfter (word : List Char) : List Char → List (List Char)
  | [] => [word.reverse]
  | c :: rest =>
    if isAlphanumeric c then wordsAfter (c :: word) rest else word.reverse :: wordsAfter [] rest

def words (text : List Char) : List (List Char) := (wordsAfter [] text).filter (!·.isEmpty)

def capitalise : List Char → List Char
  | [] => []
  | c :: rest => capital c ++ rest.flatMap small

def pascalCase (text : String) : String :=
  String.ofList ((words (separateCases text.toList)).flatMap capitalise)

def handlerName (handler : String) : String := "handle" ++ pascalCase handler

def nameSource (form : Form) : String :=
  if (trim form.name.toList).isEmpty then form.id else form.name

/-- A component's name does not start with an ASCII digit. -/
def unitName (form : Form) : Option String :=
  let name := pascalCase (nameSource form)
  match name.toList with
  | [] => none
  | c :: _ => if c.isDigit then none else some name

end Formwright.Component
