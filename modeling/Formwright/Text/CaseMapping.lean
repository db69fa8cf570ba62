import Formwright.Text.Casing

/-!
Case mappings: of one character, which may become several, and of a whole text, where a capital
sigma that ends a word has a small form of its own.
-/

namespace Formwright.Text

def CaseRun.covers (run : CaseRun) (code : Nat) : Bool :=
  run.first ≤ code && code ≤ run.last && (code - run.first) % run.stride == 0

def mapCase (runs : List CaseRun) (expansions : List (Nat × List Nat)) (c : Char) : List Char :=
  match expansions.lookup c.toNat with
  | some codes => codes.map Char.ofNat
  | none =>
    match runs.find? (·.covers c.toNat) with
    | some run => [Char.ofNat ((c.toNat : Int) + run.shift).toNat]
    | none => [c]

def capital (c : Char) : List Char := mapCase upperRuns upperExpansions c

def small (c : Char) : List Char := mapCase lowerRuns lowerExpansions c

def meetsCased : List Char → Bool
  | [] => false
  | c :: rest => if caseIgnorable.contains c then meetsCased rest else cased.contains c

/-- `before` holds the text to the left, nearest character first. -/
def lowercaseAfter (before : List Char) : List Char → List Char
  | [] => []
  | c :: rest =>
    let form :=
      if c = 'Σ' then [if meetsCased before && !meetsCased rest then 'ς' else 'σ'] else small c
    form ++ lowercaseAfter (c :: before) rest

def lowercase (text : List Char) : List Char := lowercaseAfter [] text

end Formwright.Text
