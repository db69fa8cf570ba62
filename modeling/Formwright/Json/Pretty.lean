import Formwright.Text.Quotation

/-!
Documents in JSON, laid out over lines with two spaces a level.
-/

namespace Formwright

inductive Json
  | flag (value : Bool)
  | text (value : String)
  | list (items : List Json)
  | record (fields : List (String × Json))

namespace Json

def quoted (text : String) : String := String.ofList (Text.quotedLiteral text.toList)

def layOut (start finish lead : String) (parts : List String) : String :=
  if parts.isEmpty then start ++ finish
  else
    let lines := parts.map (lead ++ "  " ++ ·)
    start ++ "\n" ++ String.intercalate ",\n" lines ++ "\n" ++ lead ++ finish

mutual

/-- `lead` is what the lines of the document begin with. -/
def prettyAt (lead : String) : Json → String
  | .flag value => if value then "true" else "false"
  | .text value => quoted value
  | .list items => layOut "[" "]" lead (prettyItems (lead ++ "  ") items)
  | .record fields => layOut "\x7b" "\x7d" lead (prettyFields (lead ++ "  ") fields)

def prettyItems (lead : String) : List Json → List String
  | [] => []
  | item :: items => prettyAt lead item :: prettyItems lead items

def prettyFields (lead : String) : List (String × Json) → List String
  | [] => []
  | (key, value) :: fields =>
    (quoted key ++ ": " ++ prettyAt lead value) :: prettyFields lead fields

end

def pretty (document : Json) : String := prettyAt "" document

end Json
end Formwright
