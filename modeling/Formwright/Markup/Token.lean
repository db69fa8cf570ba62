import Formwright.Markup.Position
import Formwright.Text.Categories

/-!
Tokens of a document, in the order in which they stand there, and the classes of characters that
they are told apart by.
-/

namespace Formwright.Markup

open Text (CharRanges)

/-! ## Characters -/

def isSpace (c : Char) : Bool := c = ' ' || c = '\t' || c = '\n' || c = '\r'

def isDocumentCharacter (c : Char) : Bool :=
  if c.toNat < 0x20 then c = '\t' || c = '\n' || c = '\r'
  else c.toNat != 0xFFFE && c.toNat != 0xFFFF

def nameStarts : CharRanges :=
  [(0x41, 0x5A), (0x5F, 0x5F), (0x61, 0x7A), (0xC0, 0xD6), (0xD8, 0xF6), (0xF8, 0x2FF),
    (0x370, 0x37D), (0x37F, 0x1FFF), (0x200C, 0x200D), (0x2070, 0x218F), (0x2C00, 0x2FEF),
    (0x3001, 0xD7FF), (0xF900, 0xFDCF), (0xFDF0, 0xFFFD), (0x10000, 0xEFFFF)]

/-- Characters a name may only go on with. -/
def nameFollowers : CharRanges :=
  [(0x2D, 0x2E), (0x30, 0x39), (0xB7, 0xB7), (0x300, 0x36F), (0x203F, 0x2040)]

def isNameStart (c : Char) : Bool := c = ':' || nameStarts.contains c

def isNameCharacter (c : Char) : Bool := isNameStart c || nameFollowers.contains c

/-! ## Tokens -/

structure QualifiedName where
  qualifier : List Char
  localName : List Char
deriving DecidableEq, Repr

def QualifiedName.text (name : QualifiedName) : String :=
  if name.qualifier.isEmpty then String.ofList name.localName
  else String.ofList (name.qualifier ++ ':' :: name.localName)

inductive Token
  | tagStart (name : QualifiedName) (position : Position)
  /-- The value is not yet expanded; the cursor covers it and nothing else. -/
  | attribute (name : QualifiedName) (value : Cursor) (position : Position)
  | tagEnd (selfClosing : Bool)
  | closeTag (name : QualifiedName) (position : Position)
  | text (content : Cursor)
  | characterData (content : List Char)
  | comment (content : List Char)
  | instruction (target content : List Char)
deriving Repr

end Formwright.Markup
