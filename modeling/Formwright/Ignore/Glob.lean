/-!
Glob patterns over paths. A path is matched byte by byte, so `?` is one byte and a class is a set of
bytes.
-/

namespace Formwright.Ignore

inductive Token
  | literal (c : Char)
  /-- `?`: any byte but the separator. -/
  | any
  /-- `*`: any bytes but the separator. -/
  | star
  /-- `**` in front: nothing, or whole directories. -/
  | leadingDirectories
  /-- `**` at the end: everything below. -/
  | everythingBelow
  /-- `**` between separators: one separator, or whole directories. -/
  | directoriesBetween
  | oneOf (negated : Bool) (ranges : List (Char × Char))
  | choice (branches : List (List Token))
deriving Repr

abbrev Bytes := List UInt8

def separator : UInt8 := 47

def encoded (c : Char) : Bytes := (String.singleton c).toUTF8.toList

def afterStart : Bytes → Bytes → Option Bytes
  | [], text => some text
  | _ :: _, [] => none
  | s :: start, b :: text => if s = b then afterStart start text else none

def afterStar : Bytes → List Bytes
  | [] => [[]]
  | b :: rest => (b :: rest) :: if b = separator then [] else afterStar rest

def suffixes : Bytes → List Bytes
  | [] => [[]]
  | b :: rest => (b :: rest) :: suffixes rest

def afterSeparators : Bytes → List Bytes
  | [] => []
  | b :: rest => if b = separator then rest :: afterSeparators rest else afterSeparators rest

/-- A range between two characters is one between their encodings: it runs from the last byte of the
one to the first byte of the other, and their other bytes stand alone. -/
def inRange (b : UInt8) (range : Char × Char) : Bool :=
  let low := encoded range.1
  let high := encoded range.2
  if range.1 = range.2 then low.contains b
  else
    low.dropLast.contains b || high.tail.contains b ||
      ((low.getLast?.any (· ≤ b)) && (high.head?.any (b ≤ ·)))

mutual

def Token.isVoid : Token → Bool
  | .choice branches => allVoid branches
  | _ => false

def allVoid : List (List Token) → Bool
  | [] => true
  | branch :: later => isVoidBranch branch && allVoid later

def isVoidBranch : List Token → Bool
  | [] => true
  | token :: later => token.isVoid && isVoidBranch later

end

mutual

def Token.rests : Token → Bytes → List Bytes
  | .literal c, text => (afterStart (encoded c) text).toList
  | .any, text =>
    match text with
    | [] => []
    | b :: rest => if b = separator then [] else [rest]
  | .star, text => afterStar text
  | .leadingDirectories, text => text :: afterSeparators text
  | .everythingBelow, text =>
    match text with
    | [] => []
    | b :: rest => if b = separator then suffixes rest else []
  | .directoriesBetween, text =>
    match text with
    | [] => []
    | b :: rest => if b = separator then rest :: afterSeparators rest else []
  | .oneOf negated ranges, text =>
    match text with
    | [] => []
    | b :: rest => if ranges.any (inRange b) != negated then [rest] else []
  | .choice branches, text => if allVoid branches then [text] else choiceRests branches text

def choiceRests : List (List Token) → Bytes → List Bytes
  | [], _ => []
  | branch :: later, text =>
    (if isVoidBranch branch then [] else sequenceRests branch [text]) ++ choiceRests later text

def sequenceRests : List Token → List Bytes → List Bytes
  | [], texts => texts
  | token :: later, texts => sequenceRests later (texts.flatMap token.rests).eraseDups

end

/-- `**` alone matches every path. -/
def matchesAll : List Token → Bool
  | [.leadingDirectories] => true
  | _ => false

def matchesPath (tokens : List Token) (path : Bytes) : Bool :=
  matchesAll tokens || (sequenceRests tokens [path]).contains []

end Formwright.Ignore
