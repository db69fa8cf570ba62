import Formwright.Entries
import Formwright.Script.Block
import Formwright.Script.Identifier
import Formwright.Text.Substitution

/-!
Declarations of handlers. A handler is a function assigned to a member of `this`, or a function
whose name is written as such a member. The handlers of a script are the bodies of these functions by
name.
-/

namespace Formwright.Script

open Text

def lastMember : List Char → Option (List Char × List Char)
  | [] => none
  | c :: rest =>
    if c = '.' then
      match _found : identifier rest with
      | some (name, after) => (lastMember after).or (some (name, after))
      | none => none
    else none
termination_by text => text.length
decreasing_by
  have := length_of_identifier _found
  simp only [List.length_cons]
  omega

def afterParameters (text : List Char) : Option (List Char) := do
  let inner ← afterStart ['('] text
  let closed ← afterStart [')'] (inner.dropWhile (· != ')'))
  afterStart ['{'] (dropBlanks closed)

structure Declaration where
  name : List Char
  /-- The text after the brace that opens the body. -/
  after : List Char
deriving Repr

namespace Declaration

def assigned (text : List Char) : Option Declaration := do
  let path ← afterStart "this".toList text
  let (name, rest) ← lastMember path
  let value ← afterStart ['='] (dropBlanks rest)
  let function ← afterStart "function".toList (dropBlanks value)
  guard (atWordEnd function)
  let parameters := dropBlanks ((dropBlanks function).dropWhile continuesIdentifier)
  return ⟨name, ← afterParameters parameters⟩

def named (text : List Char) : Option Declaration := do
  let spaced ← afterStart "function".toList text
  guard (spaced.head?.any isBlank)
  let path ← afterStart "this.".toList (dropBlanks spaced)
  let (name, rest) ← identifier path
  return ⟨name, ← afterParameters (dropBlanks rest)⟩

def at? (previous : Option Char) (text : List Char) : Option Declaration :=
  if atWordStart previous then (assigned text).or (named text) else none

/-- All declarations, from left to right. The search goes on inside a body. The first `skip`
characters belong to a declaration already found. -/
def allFrom : Nat → Option Char → List Char → List Declaration
  | _, _, [] => []
  | skip + 1, _, c :: rest => allFrom skip (some c) rest
  | 0, previous, c :: rest =>
    match at? previous (c :: rest) with
    | some found => found :: allFrom (rest.length - found.after.length) (some c) rest
    | none => allFrom 0 (some c) rest

def all (script : List Char) : List Declaration := allFrom 0 none script

end Declaration

def Declaration.body (declaration : Declaration) : Option (List Char) :=
  (blockEnd declaration.after).map fun length => Text.trim (declaration.after.take length)

def Declaration.handler (declaration : Declaration) : Option (String × String) :=
  declaration.body.map fun body => (String.ofList declaration.name, String.ofList body)

def handlers (script : String) : Entries String :=
  Entries.ofPairs ((Declaration.all script.toList).filterMap Declaration.handler)

end Formwright.Script
