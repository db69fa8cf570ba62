import Formwright.Text.Categories

/-!
Classes of characters that the readers of scripts, markup and names ask for, and blanks at the ends
of a text.
-/

namespace Formwright.Text

/-- The property White_Space. -/
def blanks : CharRanges :=
  [(0x9, 0xD), (0x20, 0x20), (0x85, 0x85), (0xA0, 0xA0), (0x1680, 0x1680), (0x2000, 0x200A),
    (0x2028, 0x2029), (0x202F, 0x202F), (0x205F, 0x205F), (0x3000, 0x3000)]

def joinControls : CharRanges := [(0x200C, 0x200D)]

def isBlank (c : Char) : Bool := blanks.contains c

def isDecimalDigit (c : Char) : Bool := decimalDigits.contains c

def isAlphanumeric (c : Char) : Bool :=
  alphabetic.contains c || decimalDigits.contains c || otherNumbers.contains c

/-- Characters of a word: a boundary lies where exactly one side is of this class. -/
def isWordCharacter (c : Char) : Bool :=
  alphabetic.contains c || marks.contains c || decimalDigits.contains c ||
    connectors.contains c || joinControls.contains c

def startsIdentifier (c : Char) : Bool :=
  c.isAlpha || c == '_' || c == '$'

def continuesIdentifier (c : Char) : Bool :=
  isWordCharacter c || c == '$'

def atWordStart (previous : Option Char) : Bool :=
  !previous.any isWordCharacter

def atWordEnd (following : List Char) : Bool :=
  !following.head?.any isWordCharacter

def trimStart (text : List Char) : List Char := text.dropWhile isBlank

def trimEnd (text : List Char) : List Char := (text.reverse.dropWhile isBlank).reverse

def trim (text : List Char) : List Char := trimEnd (trimStart text)

def isTrimmed (text : List Char) : Bool := trim text == text

end Formwright.Text
