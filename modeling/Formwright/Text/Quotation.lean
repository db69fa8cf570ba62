import Formwright.Text.Display

/-!
Texts between quotes: string literals, read alike by JSON and by scripts, and quotations inside a
message, where what cannot be seen is spelled out.
-/

namespace Formwright.Text

def hexDigit (n : Nat) : Char := "0123456789abcdef".toList.getD n '0'

def escapeInLiteral (c : Char) : List Char :=
  match c with
  | '"' => ['\\', '"']
  | '\\' => ['\\', '\\']
  | '\n' => ['\\', 'n']
  | '\r' => ['\\', 'r']
  | '\t' => ['\\', 't']
  | c =>
    if c.toNat = 8 then ['\\', 'b']
    else if c.toNat = 12 then ['\\', 'f']
    else if c.toNat < 32 then
      ['\\', 'u', '0', '0', hexDigit (c.toNat / 16), hexDigit (c.toNat % 16)]
    else [c]

def quotedLiteral (text : List Char) : List Char :=
  '"' :: text.flatMap escapeInLiteral ++ ['"']

/-! ## Messages -/

def codeEscape (c : Char) : List Char :=
  "\\u\x7b".toList ++ Nat.toDigits 16 c.toNat ++ ['}']

def escapeInQuotation (delimiter c : Char) : List Char :=
  if c.toNat = 0 then ['\\', '0']
  else if c = '\t' then ['\\', 't']
  else if c = '\r' then ['\\', 'r']
  else if c = '\n' then ['\\', 'n']
  else if c = '\\' then ['\\', '\\']
  else if c = delimiter then ['\\', c]
  else if extenders.contains c || (unprintable.contains c && c != ' ') then codeEscape c
  else [c]

def quoteText (text : String) : String :=
  String.ofList ('"' :: text.toList.flatMap (escapeInQuotation '"') ++ ['"'])

def quoteCharacter (c : Char) : String :=
  String.ofList ('\'' :: escapeInQuotation '\'' c ++ ['\''])

end Formwright.Text
