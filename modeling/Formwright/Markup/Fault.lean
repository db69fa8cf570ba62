import Formwright.Markup.Position
import Formwright.Text.Quotation

/-!
What can be wrong with a document, and how it is told.
-/

namespace Formwright.Markup

inductive Fault
  | noRoot
  | rootNotClosed
  | unexpectedEnd
  | typeDeclaration
  | invalidName (position : Position)
  | unknownToken (position : Position)
  | unexpectedDeclaration (position : Position)
  | malformedReference (position : Position)
  | unknownReference (name : String) (position : Position)
  | invalidComment (position : Position)
  | sectionEndInText (position : Position)
  | unexpectedCharacter (expected found : Char) (position : Position)
  | noQuote (found : Char) (position : Position)
  | noSpace (found : Char) (position : Position)
  | missingText (expected : String) (position : Position)
  | foreignCharacter (found : Char) (position : Position)
  | mismatchedTag (opened closed : String) (position : Position)
  | repeatedAttribute (name : String) (position : Position)
  | repeatedNamespace (qualifier : String) (position : Position)
  | unknownNamespace (qualifier : String) (position : Position)
  | reservedElementQualifier (position : Position)
  | wrongMeaningOfXml (position : Position)
  | meaningOfXmlTaken (position : Position)
  | meaningOfXmlnsTaken (position : Position)
deriving DecidableEq, Repr

def leadByte (c : Char) : String :=
  String.singleton (Char.ofNat ((String.singleton c).toUTF8.toList.headD 0).toNat)

namespace Fault

def message : Fault → String
  | noRoot => "the document does not have a root node"
  | rootNotClosed => "the root node was opened but never closed"
  | unexpectedEnd => "unexpected end of stream"
  | typeDeclaration => "XML with DTD detected"
  | invalidName p => s!"invalid name token at {p.text}"
  | unknownToken p => s!"unknown token at {p.text}"
  | unexpectedDeclaration p => s!"unexpected XML declaration at {p.text}"
  | malformedReference p => s!"malformed entity reference at {p.text}"
  | unknownReference name p => s!"unknown entity reference '{name}' at {p.text}"
  | invalidComment p => s!"comment at {p.text} contains '--'"
  | sectionEndInText p => s!"']]>' at {p.text} is not allowed inside a character data"
  | unexpectedCharacter expected found p =>
    s!"expected '{expected}' not '{leadByte found}' at {p.text}"
  | noQuote found p => s!"expected a quote not '{leadByte found}' at {p.text}"
  | noSpace found p => s!"expected a whitespace not '{leadByte found}' at {p.text}"
  | missingText expected p => s!"expected '{expected}' at {p.text}"
  | foreignCharacter found p =>
    s!"a non-XML character {Text.quoteCharacter found} found at {p.text}"
  | mismatchedTag opened closed p => s!"expected '{opened}' tag, not '{closed}' at {p.text}"
  | repeatedAttribute name p => s!"attribute '{name}' at {p.text} is already defined"
  | repeatedNamespace qualifier p => s!"namespace '{qualifier}' at {p.text} is already defined"
  | unknownNamespace qualifier p => s!"an unknown namespace prefix '{qualifier}' at {p.text}"
  | reservedElementQualifier p => s!"the 'xmlns' prefix is used at {p.text}, but it must not be"
  | wrongMeaningOfXml p => s!"'xml' namespace prefix mapped to wrong URI at {p.text}"
  | meaningOfXmlTaken p => s!"the 'xml' namespace URI is used for not 'xml' prefix at {p.text}"
  | meaningOfXmlnsTaken p => s!"the 'xmlns' URI is used at {p.text}, but it must not be declared"

end Fault
end Formwright.Markup
