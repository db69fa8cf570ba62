import Formwright.Script.Identifier
import Formwright.Text.Substitution

/-!
Taking out of a handler body what only the legacy runtime understands: the context prefix and the
annotations of the two parameters. The body is treated as text.
-/

namespace Formwright.Script

open Text

def contextText : List Char := "this.".toList

def contextWord : Matcher := fun previous text =>
  if atWordStart previous && contextText.isPrefixOf text then some contextText.length else none

def lengthBefore (text : List Char) (rest : Option (List Char)) : Option Nat :=
  rest.map fun rest => text.length - rest.length

def afterColon (text : List Char) : Option (List Char) :=
  (afterStart [':'] (dropBlanks text)).map dropBlanks

def afterIdentifier (text : List Char) : Option (List Char) := (identifier text).map (·.2)

def afterType (text : List Char) : Option (List Char) :=
  ((afterStart "nexacro.".toList text).bind afterIdentifier).or (afterIdentifier text)

/-- `obj: Type` -/
def objectAnnotation : Matcher := fun previous text =>
  if atWordStart previous then
    lengthBefore text (((afterStart "obj".toList text).bind afterColon).bind afterType)
  else none

def afterEventType (text : List Char) : Option (List Char) :=
  if "EventInfo".toList.isSuffixOf (text.takeWhile isWordCharacter) then
    some (text.dropWhile isWordCharacter)
  else none

/-- `e: nexacro.SomeEventInfo` -/
def eventAnnotation : Matcher := fun previous text =>
  if atWordStart previous then
    lengthBefore text
      ((((afterStart "e".toList text).bind afterColon).bind (afterStart "nexacro.".toList)).bind
        afterEventType)
  else none

def cleanBody (body : List Char) : List Char :=
  let bare := replaceMatches contextWord [] 0 none body
  let plain := replaceMatches objectAnnotation "obj".toList 0 none bare
  replaceMatches eventAnnotation ['e'] 0 none plain

end Formwright.Script
