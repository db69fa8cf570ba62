import Formwright.Text.Classes

/-!
Lines of a text and columns in them: how lines are counted, shifted to the right and shifted back,
and how a text is fitted into a column. The width of a column counts characters.
-/

namespace Formwright.Text

/-- Takes the carriage return off the end of a line, which is given last character first. -/
def dropReturn : List Char → List Char
  | '\r' :: line => line
  | line => line

/-- `line` holds the current line, last character first. -/
def linesAfter (line : List Char) : List Char → List (List Char)
  | [] => if line.isEmpty then [] else [line.reverse]
  | c :: rest =>
    if c = '\n' then (dropReturn line).reverse :: linesAfter [] rest
    else linesAfter (c :: line) rest

/-- A line feed, with a carriage return directly before it, ends a line. The end of the text ends
a line only if that line holds something. -/
def lines (text : List Char) : List (List Char) := linesAfter [] text

def joinLines (parts : List (List Char)) : List Char := ['\n'].intercalate parts

def shiftLine (lead line : List Char) : List Char := if line.isEmpty then [] else lead ++ line

def shiftRight (text lead : List Char) : List Char :=
  joinLines ((lines text).map (shiftLine lead))

def encodedSize : List Char → Nat
  | [] => 0
  | c :: rest => c.utf8Size + encodedSize rest

def dropEncoded : Nat → List Char → Option (List Char)
  | 0, text => some text
  | _ + 1, [] => none
  | count + 1, c :: rest =>
    if c.utf8Size ≤ count + 1 then dropEncoded (count + 1 - c.utf8Size) rest else none

def margin (line : List Char) : Nat := encodedSize line - encodedSize (trimStart line)

def commonMargin (later : List (List Char)) : Nat :=
  (((later.filter (!·.isEmpty)).map margin).min?).getD 0

def dropMargin (width : Nat) (line : List Char) : List Char :=
  if line.isEmpty then [] else (dropEncoded width line).getD (trimStart line)

/-- The lines of a trimmed text without the margin that all lines after the first share. The first
line has lost its own margin by the trimming. -/
def shiftLeft (text : List Char) : List (List Char) :=
  match (lines (trim text)).map trimEnd with
  | [] => []
  | first :: later => first :: later.map (dropMargin (commonMargin later))

def padEnd (width : Nat) (text : List Char) : List Char :=
  text ++ List.replicate (width - text.length) ' '

def padStart (width : Nat) (text : List Char) : List Char :=
  List.replicate (width - text.length) ' ' ++ text

end Formwright.Text
