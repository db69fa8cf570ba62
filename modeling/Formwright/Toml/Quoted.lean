import Formwright.Markup.Expansion
import Formwright.Toml.Value

/-!
Strings of a TOML document, on one line or on several, with escapes or as they are.
-/

namespace Formwright.Toml

open Markup (hexValue ofHexDigits)

def codeEscape (count : Nat) (text : List Char) : Option (Char × List Char) :=
  let digits := text.take count
  if digits.length = count && digits.all (fun c => (hexValue c).isSome) &&
      (ofHexDigits digits).isValidChar then
    some (Char.ofNat (ofHexDigits digits), text.drop count)
  else none

def escape : List Char → Option (Char × List Char)
  | [] => none
  | c :: rest =>
    match c with
    | 'b' => some ('\x08', rest)
    | 't' => some ('\t', rest)
    | 'n' => some ('\n', rest)
    | 'f' => some ('\x0c', rest)
    | 'r' => some ('\r', rest)
    | 'e' => some ('\x1b', rest)
    | '"' => some ('"', rest)
    | '\\' => some ('\\', rest)
    | 'x' => codeEscape 2 rest
    | 'u' => codeEscape 4 rest
    | 'U' => codeEscape 8 rest
    | _ => none

def basicFrom : Nat → List Char → List Char → Option (List Char × List Char)
  | 0, _, _ => none
  | _ + 1, _, [] => none
  | fuel + 1, done, c :: rest =>
    if c = '"' then some (done.reverse, rest)
    else if c = '\\' then
      match escape rest with
      | some (d, later) => basicFrom fuel (d :: done) later
      | none => none
    else if isControl c then none
    else basicFrom fuel (c :: done) rest

def literalFrom (done : List Char) : List Char → Option (List Char × List Char)
  | [] => none
  | c :: rest =>
    if c = '\'' then some (done.reverse, rest)
    else if isControl c then none
    else literalFrom (c :: done) rest

def dropFirstLineEnd : List Char → List Char
  | '\n' :: rest => rest
  | '\r' :: '\n' :: rest => rest
  | text => text

def dropGap : List Char → List Char
  | ' ' :: rest => dropGap rest
  | '\t' :: rest => dropGap rest
  | '\n' :: rest => dropGap rest
  | '\r' :: '\n' :: rest => dropGap rest
  | text => text

def continuation (text : List Char) : Option (List Char) :=
  match text.dropWhile (fun c => c = ' ' || c = '\t') with
  | '\n' :: rest => some (dropGap rest)
  | '\r' :: '\n' :: rest => some (dropGap rest)
  | _ => none

/-- Up to two quotes may stand directly before the three that end a string. -/
def closing (quote : Char) (done : List Char) (text : List Char) : Option (List Char × List Char) :=
  let quotes := min 5 (text.takeWhile (· == quote)).length
  if 3 ≤ quotes then
    some (done.reverse ++ List.replicate (quotes - 3) quote, text.drop quotes)
  else none

def multilineFrom (quote : Char) : Nat → List Char → List Char → Option (List Char × List Char)
  | 0, _, _ => none
  | _ + 1, _, [] => none
  | fuel + 1, done, c :: rest =>
    match closing quote done (c :: rest) with
    | some closed => some closed
    | none =>
      if c = '\\' && quote = '"' then
        match continuation rest with
        | some later => multilineFrom quote fuel done later
        | none =>
          match escape rest with
          | some (d, later) => multilineFrom quote fuel (d :: done) later
          | none => none
      else if c = '\n' || (c = '\r' && rest.head? == some '\n') || !isControl c then
        multilineFrom quote fuel (c :: done) rest
      else none

def readLine : List Char → Option (List Char × List Char)
  | '"' :: rest => basicFrom (rest.length + 1) [] rest
  | '\'' :: rest => literalFrom [] rest
  | _ => none

def readText (text : List Char) : Option (List Char × List Char) :=
  match text with
  | '"' :: '"' :: '"' :: rest => multilineFrom '"' (rest.length + 1) [] (dropFirstLineEnd rest)
  | '\'' :: '\'' :: '\'' :: rest => multilineFrom '\'' (rest.length + 1) [] (dropFirstLineEnd rest)
  | text => readLine text

end Formwright.Toml
