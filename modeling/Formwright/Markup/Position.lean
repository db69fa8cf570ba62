/-!
Places in a document, and a reading head that knows its place.
-/

namespace Formwright.Markup

/-- Lines and columns count from one. A column is a character. -/
structure Position where
  line : Nat
  column : Nat
deriving DecidableEq, Repr, Inhabited

namespace Position

def start : Position := ⟨1, 1⟩

def after (position : Position) (c : Char) : Position :=
  if c = '\n' then ⟨position.line + 1, 1⟩ else ⟨position.line, position.column + 1⟩

def text (position : Position) : String := s!"{position.line}:{position.column}"

end Position

structure Cursor where
  position : Position
  rest : List Char
deriving Repr

namespace Cursor

def ofDocument (document : List Char) : Cursor := ⟨.start, document⟩

def skip : Nat → Cursor → Cursor
  | 0, cursor => cursor
  | _ + 1, ⟨position, []⟩ => ⟨position, []⟩
  | count + 1, ⟨position, c :: rest⟩ => skip count ⟨position.after c, rest⟩

def startsWith (cursor : Cursor) (text : String) : Bool := text.toList.isPrefixOf cursor.rest

def skipWhile (keep : Char → Bool) (cursor : Cursor) : Cursor :=
  cursor.skip (cursor.rest.takeWhile keep).length

end Cursor
end Formwright.Markup
