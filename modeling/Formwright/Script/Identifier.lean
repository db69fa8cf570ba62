import Formwright.Text.Classes

/-!
Identifiers of scripts and the blanks around them.
-/

namespace Formwright.Script

open Text

def dropBlanks (text : List Char) : List Char := text.dropWhile isBlank

def identifier : List Char → Option (List Char × List Char)
  | [] => none
  | c :: rest =>
    if startsIdentifier c then
      some (c :: rest.takeWhile continuesIdentifier, rest.dropWhile continuesIdentifier)
    else none

theorem length_dropWhile_le (keep : Char → Bool) (text : List Char) :
    (text.dropWhile keep).length ≤ text.length :=
  (List.dropWhile_sublist keep).length_le

theorem length_of_identifier {text name rest : List Char}
    (found : identifier text = some (name, rest)) : rest.length < text.length := by
  cases text with
  | nil => simp [identifier] at found
  | cons c later =>
    simp only [identifier] at found
    split at found
    · simp only [Option.some.injEq, Prod.mk.injEq] at found
      rw [← found.2]
      exact Nat.lt_succ_of_le (length_dropWhile_le _ _)
    · simp at found

end Formwright.Script
