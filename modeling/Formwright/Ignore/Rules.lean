import Formwright.Ignore.GlobReader
import Formwright.Storage.Path
import Formwright.Text.Classes
import Formwright.Text.Substitution

/-!
Ignore files: patterns, one a line, of which the last that matches decides.
-/

namespace Formwright.Ignore

structure Pattern where
  tokens : List Token
  /-- Takes back what earlier patterns ignore. -/
  isException : Bool
  onlyDirectories : Bool
deriving Repr

structure Line where
  isException : Bool := false
  isAnchored : Bool := false
  onlyDirectories : Bool := false
  glob : List Char

namespace Line

def dropAnchor (isException : Bool) (text : List Char) : Line :=
  match text with
  | '/' :: rest => { isException, isAnchored := true, glob := rest }
  | text => { isException, glob := text }

def dropFront (text : List Char) : Line :=
  match text with
  | '\\' :: '!' :: rest => { glob := '!' :: rest }
  | '\\' :: '#' :: rest => { glob := '#' :: rest }
  | '!' :: rest => dropAnchor true rest
  | text => dropAnchor false text

def dropBack (line : Line) : Line :=
  match line.glob.reverse with
  | '/' :: '\\' :: rest => { line with onlyDirectories := true, glob := rest.reverse }
  | '/' :: rest => { line with onlyDirectories := true, glob := rest.reverse }
  | _ => line

/-- A glob without a separator may match at any depth. One that ends in two stars means what is
below, not the directory itself. -/
def fullGlob (line : Line) : List Char :=
  let isDeep := "**/".toList.isPrefixOf line.glob || line.glob = ['*', '*']
  let glob :=
    if !line.isAnchored && !line.glob.contains '/' && !isDeep then "**/".toList ++ line.glob
    else line.glob
  if "/**".toList.isSuffixOf glob then glob ++ ['/', '*'] else glob

end Line

def trimLine (line : List Char) : List Char :=
  if ['\\', ' '].isSuffixOf line then line else Text.trimEnd line

def readPattern (line : List Char) : Option Pattern :=
  let text := trimLine line
  if line.head? == some '#' || text.isEmpty then none
  else
    let parts := (Line.dropFront text).dropBack
    (readGlob parts.fullGlob).map fun tokens =>
      ⟨tokens, parts.isException, parts.onlyDirectories⟩

def isLiteral : Token → Bool
  | .literal _ => true
  | _ => false

def isSeparator : Token → Bool
  | .literal c => c = '/'
  | _ => false

/-- Whether a pattern is compared with the name of the last component: it ends in a fixed
character, and is neither fixed as a whole nor a fixed path at any depth. -/
def comparesName (tokens : List Token) : Bool :=
  tokens.getLast?.any isLiteral && !tokens.all isLiteral &&
    match tokens with
    | .leadingDirectories :: fixed => !(fixed.all isLiteral && fixed.any isSeparator)
    | _ => true

def endsInPoint (path : List Char) : Bool := path.getLast? == some '.'

def Pattern.covers (pattern : Pattern) (path : List Char) : Bool :=
  !(comparesName pattern.tokens && endsInPoint path) &&
    matchesPath pattern.tokens (String.ofList path).toUTF8.toList

inductive Verdict
  | ignored
  | kept
  | none
deriving DecidableEq, Repr

structure Rules where
  /-- The directory that paths are given from. -/
  root : Path
  patterns : List Pattern

namespace Rules

def ofLines (root : Path) (lines : List (List Char)) : Rules := ⟨root, lines.filterMap readPattern⟩

def dropFront (front text : List Char) : List Char := (Text.afterStart front text).getD text

def dropCurrent (path : Path) : List Char := dropFront ['.', '/'] path.text.toList

def relative (rules : Rules) (path : Path) : List Char :=
  let text := dropCurrent path
  let root := dropCurrent rules.root
  if Path.componentsOf root == [.current] || !text.contains '/' then text
  else
    match Text.afterStart root text with
    | some rest => dropFront ['/'] rest
    | none => text

def verdict (rules : Rules) (path : Path) (isDirectory : Bool) : Verdict :=
  let text := rules.relative path
  let decides (pattern : Pattern) : Bool :=
    (!pattern.onlyDirectories || isDirectory) && pattern.covers text
  match rules.patterns.reverse.find? decides with
  | some pattern => if pattern.isException then .kept else .ignored
  | none => .none

end Rules
end Formwright.Ignore
