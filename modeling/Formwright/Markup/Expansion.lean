import Formwright.Markup.Lexer
import Formwright.Number.Reading

/-!
Expanding references, and bringing line ends and spaces into one form, in the text of a document
and in attribute values.
-/

namespace Formwright.Markup

inductive Reference
  | character (c : Char)
  | entity (name : List Char)
deriving Repr

def predefined : List (String × Char) :=
  [("quot", '"'), ("amp", '&'), ("apos", '\''), ("lt", '<'), ("gt", '>')]

def Reference.ofName (name : List Char) : Reference :=
  match predefined.lookup (String.ofList name) with
  | some c => .character c
  | none => .entity name

def hexValue (c : Char) : Option Nat :=
  if c.isDigit then some (c.toNat - '0'.toNat)
  else if 'a' ≤ c && c ≤ 'f' then some (c.toNat - 'a'.toNat + 10)
  else if 'A' ≤ c && c ≤ 'F' then some (c.toNat - 'A'.toNat + 10)
  else none

def ofHexDigits (digits : List Char) : Nat :=
  digits.foldl (fun value c => 16 * value + (hexValue c).getD 0) 0

/-- A code that fits 32 bits but is no character becomes the replacement character. -/
def ofCode (code : Nat) : Option Char :=
  if Nat.pow 2 32 ≤ code then none
  else
    let c := if code.isValidChar then Char.ofNat code else '\uFFFD'
    if isDocumentCharacter c then some c else none

def readReference : List Char → Option (Reference × Nat)
  | '#' :: 'x' :: rest =>
    let digits := rest.takeWhile fun c => (hexValue c).isSome
    if digits.isEmpty then none
    else close 2 digits.length rest ((ofCode (ofHexDigits digits)).map .character)
  | '#' :: rest =>
    let digits := rest.takeWhile Char.isDigit
    if digits.isEmpty then none
    else close 1 digits.length rest ((ofCode (Number.ofDigits digits)).map .character)
  | rest =>
    if rest.head?.any isNameStart then
      let name := rest.takeWhile isNameCharacter
      close 0 name.length rest (some (.ofName name))
    else none
where
  close (before length : Nat) (rest : List Char) (reference : Option Reference) :
      Option (Reference × Nat) :=
    if rest[length]? = some ';' then reference.map (·, before + length + 1) else none

def Position.afterAll (position : Position) (text : List Char) : Position :=
  text.foldl Position.after position

structure Normaliser where
  /-- Gets the text so far, last character first, whether a reference stands directly before, the
  character, and what follows it. -/
  push : List Char → Bool → Char → List Char → List Char

def expand (normaliser : Normaliser) (done : List Char) (afterReference : Bool)
    (position : Position) : List Char → Except Fault (List Char)
  | [] => .ok done.reverse
  | c :: rest =>
    if c = '&' then
      match readReference rest with
      | some (.character referenced, length) =>
        expand normaliser (referenced :: done) true
          ((position.after c).afterAll (rest.take length)) (rest.drop length)
      | some (.entity name, _) => .error (.unknownReference (String.ofList name) position)
      | none => .error (.malformedReference position)
    else
      expand normaliser (normaliser.push done afterReference c rest) false (position.after c) rest
termination_by text => text.length
decreasing_by
  all_goals simp only [List.length_drop, List.length_cons]; omega

/-- A carriage return, alone or before a line feed, becomes a line feed as soon as it is known what
follows it. -/
def pushLine (done : List Char) (c : Char) (rest : List Char) : List Char :=
  let ends := rest.isEmpty && c == '\r'
  match done with
  | '\r' :: older =>
    if ends then '\n' :: '\n' :: older else if c = '\n' then '\n' :: older else c :: '\n' :: older
  | _ => if ends then '\n' :: done else c :: done

def inText : Normaliser :=
  ⟨fun done afterReference c rest => if afterReference then c :: done else pushLine done c rest⟩

def inAttribute : Normaliser :=
  ⟨fun done _ c rest =>
    if c = '\r' && rest.head? == some '\n' then done
    else if c = '\n' || c = '\r' || c = '\t' then ' ' :: done
    else c :: done⟩

def expandText (text : Cursor) : Except Fault (List Char) :=
  expand inText [] false text.position text.rest

def expandAttribute (value : Cursor) : Except Fault (List Char) :=
  expand inAttribute [] false value.position value.rest

def normaliseSection (done : List Char) : List Char → List Char
  | [] => done.reverse
  | c :: rest => normaliseSection (pushLine done c rest) rest

end Formwright.Markup
