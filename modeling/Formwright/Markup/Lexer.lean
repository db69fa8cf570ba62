import Formwright.Markup.Fault
import Formwright.Markup.Token
import Formwright.Text.Substitution

/-!
Cutting a document into tokens. A document that breaks off inside a start tag, or before all
elements are closed, has no lexical fault: it just gives no further token.
-/

namespace Formwright.Markup

namespace Cursor

def skipSpaces (cursor : Cursor) : Cursor := cursor.skipWhile isSpace

def expect (cursor : Cursor) (expected : Char) : Except Fault Cursor :=
  match cursor.rest with
  | [] => .error .unexpectedEnd
  | found :: _ =>
    if found = expected then .ok (cursor.skip 1)
    else .error (.unexpectedCharacter expected found cursor.position)

def expectText (cursor : Cursor) (expected : String) : Except Fault Cursor :=
  if cursor.startsWith expected then .ok (cursor.skip expected.toList.length)
  else .error (.missingText expected cursor.position)

/-- The run up to a place where `stop` holds. Each character that is looked at, the one at the
place where the run stops too, has to be one that documents may hold. -/
def runUntil (stop : List Char → Bool) (position : Position) :
    List Char → Except Fault (List Char × Cursor)
  | [] => .ok ([], ⟨position, []⟩)
  | c :: rest =>
    if !isDocumentCharacter c then .error (.foreignCharacter c position)
    else if stop (c :: rest) then .ok ([], ⟨position, c :: rest⟩)
    else (runUntil stop (position.after c) rest).map fun (run, after) => (c :: run, after)

def takeUntil (stop : List Char → Bool) (cursor : Cursor) : Except Fault (List Char × Cursor) :=
  runUntil stop cursor.position cursor.rest

def takeUntilText (terminator : String) (cursor : Cursor) : Except Fault (List Char × Cursor) :=
  cursor.takeUntil (terminator.toList.isPrefixOf ·)

def name (cursor : Cursor) : Except Fault (List Char × Cursor) :=
  match cursor.rest with
  | [] => .error (.invalidName cursor.position)
  | c :: _ =>
    if isNameStart c then
      let run := cursor.rest.takeWhile isNameCharacter
      .ok (run, cursor.skip run.length)
    else .error (.invalidName cursor.position)

def splitName (run : List Char) : Option QualifiedName :=
  let parts : QualifiedName :=
    match run.dropWhile (· != ':') with
    | [] => ⟨[], run⟩
    | _ :: localName => ⟨run.takeWhile (· != ':'), localName⟩
  if parts.qualifier.head?.all isNameStart && parts.localName.head?.any isNameStart &&
      !parts.localName.contains ':' then some parts
  else none

def qualifiedName (cursor : Cursor) : Except Fault (QualifiedName × Cursor) :=
  let run := cursor.rest.takeWhile isNameCharacter
  match splitName run with
  | some name => .ok (name, cursor.skip run.length)
  | none => .error (.invalidName cursor.position)

end Cursor

namespace Token

def lexComment (cursor : Cursor) : Except Fault (Token × Cursor) := do
  let (content, after) ← (cursor.skip 4).takeUntilText "-->"
  let after ← after.expectText "-->"
  if Text.occursIn ['-', '-'] content || content.getLast? = some '-' then
    throw (.invalidComment cursor.position)
  return (.comment content, after)

def lexInstruction (cursor : Cursor) : Except Fault (Token × Cursor) := do
  if cursor.startsWith "<?xml " then throw (.unexpectedDeclaration cursor.position)
  let (target, after) ← (cursor.skip 2).name
  let (content, after) ← after.skipSpaces.takeUntilText "?>"
  let after ← after.expectText "?>"
  return (.instruction target content, after)

def lexCharacterData (cursor : Cursor) : Except Fault (Token × Cursor) := do
  let (content, after) ← (cursor.skip 9).takeUntilText "]]>"
  let after ← after.expectText "]]>"
  return (.characterData content, after)

def lexText (cursor : Cursor) : Except Fault (Token × Cursor) := do
  let (content, after) ← cursor.takeUntil (·.head? == some '<')
  if Text.occursIn "]]>".toList content then throw (.sectionEndInText after.position)
  return (.text ⟨cursor.position, content⟩, after)

def lexTagStart (cursor : Cursor) : Except Fault (Token × Cursor) := do
  let named := cursor.skip 1
  let (name, after) ← named.qualifiedName
  return (.tagStart name named.position, after)

def lexCloseTag (cursor : Cursor) : Except Fault (Token × Cursor) := do
  let (name, after) ← (cursor.skip 2).qualifiedName
  let after ← after.skipSpaces.expect '>'
  return (.closeTag name cursor.position, after)

def lexAttribute (cursor : Cursor) : Except Fault (Token × Cursor) := do
  let (name, after) ← cursor.qualifiedName
  let after ← after.skipSpaces.expect '='
  let after := after.skipSpaces
  match after.rest with
  | [] => throw .unexpectedEnd
  | quote :: _ =>
    if quote != '"' && quote != '\'' then throw (.noQuote quote after.position)
    let value := after.skip 1
    let (content, after) ← value.takeUntil fun rest =>
      rest.head? == some quote || rest.head? == some '<'
    let after ← after.expect quote
    return (.attribute name ⟨value.position, content⟩ cursor.position, after)

end Token

/-- Where in a document the next token is looked for. The depth counts the open elements. -/
inductive Place
  | prolog
  | tag (depth : Nat)
  | content (depth : Nat)
  | epilog
deriving DecidableEq, Repr

def Place.inside : Nat → Place
  | 0 => .epilog
  | depth + 1 => .content (depth + 1)

inductive Step
  | finish
  | next (token : Token) (place : Place) (cursor : Cursor)

namespace Step

def of (place : Place) (lexed : Token × Cursor) : Step := .next lexed.1 place lexed.2

def outside (place : Place) (element : Cursor → Except Fault Step) (cursor : Cursor) :
    Except Fault Step :=
  let cursor := cursor.skipSpaces
  if cursor.startsWith "<!--" then (Token.lexComment cursor).map (of place)
  else if cursor.startsWith "<?" then (Token.lexInstruction cursor).map (of place)
  else if cursor.rest.isEmpty then .ok .finish
  else element cursor

def prolog : Cursor → Except Fault Step :=
  outside .prolog fun cursor =>
    if cursor.startsWith "<!DOCTYPE" then .error .typeDeclaration
    else if cursor.startsWith "<" then (Token.lexTagStart cursor).map (of (.tag 0))
    else .error (.unknownToken cursor.position)

def epilog : Cursor → Except Fault Step :=
  outside .epilog fun cursor => .error (.unknownToken cursor.position)

def tag (depth : Nat) (cursor : Cursor) : Except Fault Step :=
  if cursor.rest.isEmpty then .ok .finish
  else
    let inner := cursor.skipSpaces
    match inner.rest with
    | [] => .error .unexpectedEnd
    | c :: _ =>
      if c = '/' then
        ((inner.skip 1).expect '>').map fun after => .next (.tagEnd true) (.inside depth) after
      else if c = '>' then .ok (.next (.tagEnd false) (.content (depth + 1)) (inner.skip 1))
      else if !cursor.rest.head?.any isSpace then .error (.noSpace c inner.position)
      else (Token.lexAttribute inner).map (of (.tag depth))

def content (depth : Nat) (cursor : Cursor) : Except Fault Step :=
  match cursor.rest with
  | [] => .ok .finish
  | '<' :: '!' :: _ =>
    if cursor.startsWith "<!--" then (Token.lexComment cursor).map (of (.content depth))
    else if cursor.startsWith "<![CDATA[" then
      (Token.lexCharacterData cursor).map (of (.content depth))
    else .error (.unknownToken cursor.position)
  | '<' :: '?' :: _ => (Token.lexInstruction cursor).map (of (.content depth))
  | '<' :: '/' :: _ => (Token.lexCloseTag cursor).map (of (.inside (depth - 1)))
  | ['<'] => .error (.unknownToken cursor.position)
  | '<' :: _ => (Token.lexTagStart cursor).map (of (.tag depth))
  | _ => (Token.lexText cursor).map (of (.content depth))

def ofPlace : Place → Cursor → Except Fault Step
  | .prolog => prolog
  | .tag depth => tag depth
  | .content depth => content depth
  | .epilog => epilog

end Step

structure Lexed where
  tokens : List Token
  fault : Option Fault

/-- Every token takes at least one character, so a document is never out of fuel. -/
def lexFrom : Nat → Place → Cursor → Lexed
  | 0, _, _ => ⟨[], some .unexpectedEnd⟩
  | fuel + 1, place, cursor =>
    match Step.ofPlace place cursor with
    | .error fault => ⟨[], some fault⟩
    | .ok .finish => ⟨[], none⟩
    | .ok (.next token place cursor) =>
      let later := lexFrom fuel place cursor
      ⟨token :: later.tokens, later.fault⟩

def declarationSpaces (cursor : Cursor) : Except Fault Cursor :=
  match cursor.rest with
  | [] => .ok cursor
  | c :: _ =>
    if isSpace c then .ok cursor.skipSpaces
    else if cursor.startsWith "?>" then .ok cursor
    else .error (.noSpace c cursor.position)

def skipDeclaration (cursor : Cursor) : Except Fault Cursor := do
  let cursor ← declarationSpaces (cursor.skip 5)
  if !cursor.startsWith "version" then throw (.missingText "version" cursor.position)
  let (_, cursor) ← Token.lexAttribute cursor
  let cursor ← declarationSpaces cursor
  let cursor ←
    if cursor.startsWith "encoding" then do
      let (_, cursor) ← Token.lexAttribute cursor
      declarationSpaces cursor
    else pure cursor
  let cursor ←
    if cursor.startsWith "standalone" then do
      let (_, cursor) ← Token.lexAttribute cursor
      pure cursor
    else pure cursor
  cursor.skipSpaces.expectText "?>"

def skipMark (cursor : Cursor) : Cursor :=
  if cursor.rest.head? == some '\uFEFF' then cursor.skip 1 else cursor

def lex (document : List Char) : Lexed :=
  let cursor := skipMark (.ofDocument document)
  let start := if cursor.startsWith "<?xml " then skipDeclaration cursor else .ok cursor
  match start with
  | .error fault => ⟨[], some fault⟩
  | .ok cursor => lexFrom (document.length + 1) .prolog cursor

end Formwright.Markup
