import Formwright.Toml.Draft
import Formwright.Toml.Numeral
import Formwright.Toml.Quoted
import Formwright.Toml.Value

/-!
Reading a TOML document. A document is valid or not; what is wrong with it is not told.
-/

namespace Formwright.Toml

def isSpace (c : Char) : Bool := c = ' ' || c = '\t'

def dropSpaces (text : List Char) : List Char := text.dropWhile isSpace

def dropVoid (inComment : Bool) : List Char → Option (List Char)
  | [] => some []
  | c :: rest =>
    if c = '\n' then dropVoid false rest
    else if c = '\r' then if rest.head? == some '\n' then dropVoid false rest else none
    else if inComment then if isControl c then none else dropVoid true rest
    else if isSpace c then dropVoid false rest
    else if c = '#' then dropVoid true rest
    else some (c :: rest)

def endOfLine (text : List Char) : Option (List Char) :=
  match dropSpaces text with
  | [] => some []
  | c :: rest => if c = '\n' || c = '\r' || c = '#' then dropVoid false (c :: rest) else none

def isBareKeyCharacter (c : Char) : Bool := c.isAlphanum || c = '_' || c = '-'

def readSimpleKey (text : List Char) : Option (String × List Char) :=
  let bare := text.takeWhile isBareKeyCharacter
  if bare.isEmpty then (readLine text).map fun (key, rest) => (String.ofList key, rest)
  else some (String.ofList bare, text.dropWhile isBareKeyCharacter)

/-- Names between points: all but the last, the last, and what follows. -/
def readKey : Nat → List Char → Option (List String × String × List Char)
  | 0, _ => none
  | fuel + 1, text => do
    let (name, rest) ← readSimpleKey (dropSpaces text)
    match dropSpaces rest with
    | '.' :: rest =>
      let (path, last, rest) ← readKey fuel rest
      return (name :: path, last, rest)
    | rest => return ([], name, rest)

def endsScalar (c : Char) : Bool := " \t\n\r,]\x7d#\"'=[\x7b".toList.contains c

def scalarLength (text : List Char) : Nat :=
  let word := text.takeWhile (!endsScalar ·)
  match readDate word, text.drop word.length with
  | some (_, []), ' ' :: c :: rest =>
    if c.isDigit then word.length + 1 + ((c :: rest).takeWhile (!endsScalar ·)).length
    else word.length
  | _, _ => word.length

def ofScalar (word : List Char) : Option Value :=
  if word = "true".toList then some (.flag true)
  else if word = "false".toList then some (.flag false)
  else (readNumeral word).or ((readMoment word).map fun moment => .moment (String.ofList moment))

def readScalar (text : List Char) : Option (Value × List Char) :=
  let length := scalarLength text
  (ofScalar (text.take length)).map (·, text.drop length)

def nestingLimit : Nat := 80

mutual

def readValue (depth : Nat) : Nat → List Char → Option (Value × List Char)
  | 0, _ => none
  | fuel + 1, text =>
    match text with
    | [] => none
    | c :: rest =>
      if c = '"' || c = '\'' then
        (readText text).map fun (content, rest) => (.text (String.ofList content), rest)
      else if c = '[' then
        if nestingLimit ≤ depth then none
        else (readItems (depth + 1) fuel rest).map fun (items, rest) => (.array items, rest)
      else if c = '{' then
        if nestingLimit ≤ depth then none
        else
          (readFields (depth + 1) fuel [] rest).map fun (fields, rest) =>
            (.table (Draft.sortByKey (Draft.values fields)), rest)
      else readScalar text

def readItems (depth : Nat) : Nat → List Char → Option (List Value × List Char)
  | 0, _ => none
  | fuel + 1, text => do
    match ← dropVoid false text with
    | ']' :: rest => return ([], rest)
    | text =>
      let (item, rest) ← readValue depth fuel text
      match ← dropVoid false rest with
      | ']' :: rest => return ([item], rest)
      | ',' :: rest =>
        let (items, rest) ← readItems depth fuel rest
        return (item :: items, rest)
      | _ => none

def readFields (depth : Nat) : Nat → Entries Draft → List Char → Option (Entries Draft × List Char)
  | 0, _, _ => none
  | fuel + 1, fields, text => do
    match ← dropVoid false text with
    | '}' :: rest => return (fields, rest)
    | text =>
      let (path, key, rest) ← readKey text.length text
      let given ← separator '=' rest
      let (value, rest) ← readValue depth fuel (dropSpaces given)
      let fields ← Draft.addValue value key true path fields
      match ← dropVoid false rest with
      | '}' :: rest => return (fields, rest)
      | ',' :: rest => readFields depth fuel fields rest
      | _ => none

end

structure Reading where
  root : Entries Draft
  current : List String

namespace Reading

def readHeader (reading : Reading) (text : List Char) : Option (Reading × List Char) := do
  let (path, key, rest) ← readKey (text.length + 1) text
  let rest ← separator ']' rest
  let root ← Draft.within (Draft.openTable key) path reading.root
  return (⟨root, path ++ [key]⟩, rest)

def readNextHeader (reading : Reading) (text : List Char) : Option (Reading × List Char) := do
  let (path, key, rest) ← readKey (text.length + 1) text
  let rest ← separator ']' rest
  let rest ← separator ']' rest
  let root ← Draft.within (Draft.openNext key) path reading.root
  return (⟨root, path ++ [key]⟩, rest)

def readEntry (reading : Reading) (text : List Char) : Option (Reading × List Char) := do
  let (path, key, rest) ← readKey (text.length + 1) text
  let given ← separator '=' rest
  let (value, rest) ← readValue 0 (given.length + 1) (dropSpaces given)
  let root ← Draft.within (Draft.addValue value key true path) reading.current reading.root
  return ({ reading with root }, rest)

def step (reading : Reading) (text : List Char) : Option (Reading × List Char) :=
  match text with
  | '[' :: '[' :: rest => reading.readNextHeader rest
  | '[' :: rest => reading.readHeader rest
  | text => reading.readEntry text

def run : Nat → Reading → List Char → Option Reading
  | 0, _, _ => none
  | fuel + 1, reading, text => do
    match ← dropVoid false text with
    | [] => return reading
    | text =>
      let (reading, rest) ← reading.step text
      run fuel reading (← endOfLine rest)

end Reading

def read (document : String) : Option (List (String × Value)) :=
  let text :=
    match document.toList with
    | '\uFEFF' :: rest => rest
    | text => text
  (Reading.run (text.length + 1) ⟨[], []⟩ text).map fun reading =>
    Draft.sortByKey (Draft.values reading.root)

end Formwright.Toml
