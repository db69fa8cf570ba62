import Formwright.Ignore.Glob

/-!
Reading glob patterns. Classes, alternatives and escapes have to be complete.
-/

namespace Formwright.Ignore

structure Group where
  /-- The tokens before the group, last first. -/
  before : List Token
  /-- The finished branches, last first. -/
  branches : List (List Token)

structure GlobReading where
  /-- Last first. -/
  tokens : List Token
  /-- Innermost first. -/
  groups : List Group
  /-- The character before the one that is being read. -/
  previous : Option Char

namespace GlobReading

def push (reading : GlobReading) (token : Token) : GlobReading :=
  { reading with tokens := token :: reading.tokens }

def openGroup (reading : GlobReading) : GlobReading :=
  { reading with tokens := [], groups := ⟨reading.tokens, []⟩ :: reading.groups }

/-- A comma outside of groups stands for itself. -/
def nextBranch (reading : GlobReading) : GlobReading :=
  match reading.groups with
  | [] => reading.push (.literal ',')
  | group :: outer =>
    { reading with
      tokens := []
      groups := { group with branches := reading.tokens.reverse :: group.branches } :: outer }

def closeGroup (reading : GlobReading) : Option GlobReading :=
  match reading.groups with
  | [] => none
  | group :: outer =>
    some { reading with
      tokens := .choice (reading.tokens.reverse :: group.branches).reverse :: group.before
      groups := outer }

/-- What two stars mean depends on what stands on either side of them. Also gives the number of
characters they take. -/
def doubleStar (reading : GlobReading) (rest : List Char) : GlobReading × Nat :=
  let plain := ((reading.push .star).push .star, 2)
  let atStart := reading.previous = some ',' || reading.previous = some '{'
  if reading.tokens.isEmpty then
    match rest with
    | [] => (reading.push .leadingDirectories, 2)
    | c :: _ => if c = '/' then (reading.push .leadingDirectories, 3) else plain
  else if reading.previous != some '/' && (reading.groups.isEmpty || !atStart) then plain
  else
    let replaceLast (token : Token) : GlobReading :=
      match reading.tokens with
      | .leadingDirectories :: _ => reading
      | .everythingBelow :: _ => reading
      | _ :: older => { reading with tokens := token :: older }
      | [] => reading.push token
    match rest with
    | [] => (replaceLast .everythingBelow, 2)
    | c :: _ =>
      if c = '/' then (replaceLast .directoriesBetween, 3)
      else if (c = ',' || c = '}') && !reading.groups.isEmpty then
        (replaceLast .everythingBelow, 2)
      else plain

end GlobReading

structure ClassReading where
  ranges : List (Char × Char)
  inRange : Bool

/-- The rest of a class and the number of characters it takes, the closing bracket included. A
bracket or a dash that comes first, and a dash that comes last, stand for themselves. -/
def readClass (first : Bool) (reading : ClassReading) (count : Nat) :
    List Char → Option (List (Char × Char) × Nat)
  | [] => none
  | c :: rest =>
    if c = ']' && !first then
      let ranges := if reading.inRange then ('-', '-') :: reading.ranges else reading.ranges
      some (ranges.reverse, count + 1)
    else if c = '-' && !first && !reading.inRange then
      readClass false { reading with inRange := true } (count + 1) rest
    else
      match reading.inRange, reading.ranges with
      | true, (low, _) :: older =>
        if c < low then none else readClass false ⟨(low, c) :: older, false⟩ (count + 1) rest
      | _, ranges => readClass false ⟨(c, c) :: ranges, false⟩ (count + 1) rest

def readNegation : List Char → Bool × List Char
  | [] => (false, [])
  | c :: rest => if c = '!' || c = '^' then (true, rest) else (false, c :: rest)

def GlobReading.step (reading : GlobReading) (c : Char) (rest : List Char) :
    Option (GlobReading × Nat) :=
  match c with
  | '?' => some (reading.push .any, 1)
  | '*' =>
    match rest with
    | '*' :: later => some (reading.doubleStar later)
    | _ => some (reading.push .star, 1)
  | '[' =>
    let (negated, inner) := readNegation rest
    (readClass true ⟨[], false⟩ 0 inner).map fun (ranges, count) =>
      (reading.push (.oneOf negated ranges), count + 1 + if negated then 1 else 0)
  | '{' => some (reading.openGroup, 1)
  | '}' => reading.closeGroup.map (·, 1)
  | ',' => some (reading.nextBranch, 1)
  | '\\' =>
    match rest with
    | [] => none
    | d :: _ => some (reading.push (.literal d), 2)
  | c => some (reading.push (.literal c), 1)

/-- The first `skip` characters are already read. -/
def readGlobFrom (reading : GlobReading) : Nat → List Char → Option (List Token)
  | _, [] => if reading.groups.isEmpty then some reading.tokens.reverse else none
  | skip + 1, c :: rest => readGlobFrom { reading with previous := some c } skip rest
  | 0, c :: rest =>
    match reading.step c rest with
    | none => none
    | some (after, count) => readGlobFrom { after with previous := some c } (count - 1) rest

def readGlob (pattern : List Char) : Option (List Token) := readGlobFrom ⟨[], [], none⟩ 0 pattern

end Formwright.Ignore
