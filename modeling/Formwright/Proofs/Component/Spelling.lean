import Formwright.Proofs.Component.Name
import Mathlib.Data.List.Basic

/-!
How a name is derived from a text, read off in one pass: letters and digits are kept, a letter that
begins a word as a capital and every other one small. Two ASCII texts derive one name when they
have the same letters and digits, whatever their case, and the same letters begin words.
-/

namespace Formwright.Component

open Text

/-- A word begins behind a character that belongs to none, and where a capital ASCII letter follows
a small one. -/
def beginsWord (previous : Option Char) (c : Char) : Bool :=
  !previous.any isAlphanumeric || (previous.any Char.isLower && c.isUpper)

def letters (previous : Option Char) : List Char → List (Char × Bool)
  | [] => []
  | c :: rest =>
    if isAlphanumeric c then (c, beginsWord previous c) :: letters (some c) rest
    else letters (some c) rest

def writtenLetter (letter : Char × Bool) : List Char :=
  if letter.2 then capital letter.1 else small letter.1

def spelling (text : String) : List Char := (letters none text.toList).flatMap writtenLetter

/-- What becomes of a text whose words are set apart. `inside` tells that a word has begun. -/
def capitalised (inside : Bool) : List Char → List Char
  | [] => []
  | c :: rest =>
    if isAlphanumeric c then (if inside then small c else capital c) ++ capitalised true rest
    else capitalised false rest

theorem capitalise_append {word : List Char} (begun : word ≠ []) (c : Char) :
    capitalise (word ++ [c]) = capitalise word ++ small c := by
  cases word with
  | nil => exact (begun rfl).elim
  | cons first later =>
    simp only [List.cons_append, capitalise, List.flatMap_append, List.flatMap_singleton,
      List.append_assoc]

/-- The word that has begun is finished as it goes on. -/
theorem flatMap_wordsAfter (word text : List Char) :
    ((wordsAfter word text).filter (!·.isEmpty)).flatMap capitalise =
      capitalise word.reverse ++ capitalised (!word.isEmpty) text := by
  induction text generalizing word with
  | nil => cases word <;> simp [wordsAfter, capitalised, capitalise]
  | cons c rest ih =>
    rw [wordsAfter, capitalised]
    by_cases kept : isAlphanumeric c = true
    · rw [if_pos kept, if_pos kept, ih (c :: word), List.reverse_cons, ← List.append_assoc]
      cases word with
      | nil => simp [capitalise]
      | cons last before =>
        rw [capitalise_append (by simp)]
        rfl
    · rw [if_neg kept, if_neg kept]
      cases word with
      | nil => exact ih []
      | cons last before =>
        rw [List.filter_cons_of_pos (by simp), List.flatMap_cons, ih []]
        rfl

def separateAfter (previous : Char) (text : List Char) : List Char :=
  if previous.isLower && text.head?.any Char.isUpper then '_' :: separateCases text
  else separateCases text

theorem separateCases_cons (c : Char) (rest : List Char) :
    separateCases (c :: rest) = c :: separateAfter c rest := by
  cases rest with
  | nil => rw [separateCases, separateAfter, List.head?_nil, Option.any_none, Bool.and_false]; rfl
  | cons next later =>
    rw [separateCases, separateAfter, List.head?_cons, Option.any_some]
    split <;> rfl

theorem capitalised_separateAfter (previous : Char) (text : List Char) :
    capitalised (isAlphanumeric previous) (separateAfter previous text) =
      (letters (some previous) text).flatMap writtenLetter := by
  have mark : isAlphanumeric '_' = false :=
    Bool.eq_false_iff.mpr (mt (isPlain_of_isAlphanumeric '_') (by decide))
  induction text generalizing previous with
  | nil => simp [separateAfter, separateCases, capitalised, letters]
  | cons c rest ih =>
    rw [separateAfter, List.head?_cons, Option.any_some, separateCases_cons, letters, beginsWord,
      Option.any_some, Option.any_some]
    by_cases ends : (previous.isLower && c.isUpper) = true
    · rw [if_pos ends, ends, Bool.or_true, capitalised, mark, if_neg Bool.false_ne_true, capitalised]
      by_cases kept : isAlphanumeric c = true
      · rw [if_pos kept, if_pos kept, List.flatMap_cons, ← ih, kept]
        rfl
      · rw [if_neg kept, if_neg kept, ← ih, eq_false_of_ne_true kept]
    · rw [if_neg ends, eq_false_of_ne_true ends, Bool.or_false, capitalised]
      by_cases kept : isAlphanumeric c = true
      · rw [if_pos kept, if_pos kept, List.flatMap_cons, ← ih, kept]
        cases isAlphanumeric previous <;> rfl
      · rw [if_neg kept, if_neg kept, ← ih, eq_false_of_ne_true kept]

theorem toList_pascalCase (text : String) : (pascalCase text).toList = spelling text := by
  rw [pascalCase, String.toList_ofList, words, flatMap_wordsAfter, spelling]
  show capitalised false (separateCases text.toList) = _
  cases text.toList with
  | nil => rfl
  | cons c rest =>
    rw [separateCases_cons, letters, capitalised]
    by_cases kept : isAlphanumeric c = true
    · rw [if_pos kept, if_pos kept, List.flatMap_cons, ← capitalised_separateAfter, kept]
      rfl
    · rw [if_neg kept, if_neg kept, ← capitalised_separateAfter, eq_false_of_ne_true kept]

/-! ## ASCII texts -/

def readLetter (letter : Char × Bool) : Char × Bool :=
  (letter.1.toLower, letter.2 && letter.1.isAlpha)

def reading (text : String) : List (Char × Bool) := (letters none text.toList).map readLetter

def IsAscii (text : String) : Prop := ∀ c ∈ text.toList, c.toNat < 128

instance (text : String) : Decidable (IsAscii text) :=
  List.decidableBAll (fun c : Char => c.toNat < 128) text.toList

theorem mem_of_mem_letters {previous : Option Char} {text : List Char} {letter : Char × Bool}
    (mem : letter ∈ letters previous text) : letter.1 ∈ text := by
  induction text generalizing previous with
  | nil => cases mem
  | cons c rest ih =>
    rw [letters] at mem
    split at mem
    next =>
      obtain rfl | behind := List.mem_cons.mp mem
      · exact List.mem_cons_self
      · exact List.mem_cons_of_mem c (ih behind)
    next => exact List.mem_cons_of_mem c (ih mem)

def writtenAscii (letter : Char × Bool) : Char :=
  if letter.2 then letter.1.toUpper else letter.1.toLower

theorem writtenLetter_ascii {letter : Char × Bool} (ascii : letter.1.toNat < 128) :
    writtenLetter letter = [writtenAscii letter] := by
  rw [writtenLetter, writtenAscii]
  split
  · exact capital_ascii ascii
  · exact small_ascii ascii

theorem toList_pascalCase_ascii {text : String} (ascii : IsAscii text) :
    (pascalCase text).toList = (letters none text.toList).map writtenAscii := by
  rw [toList_pascalCase, spelling, List.map_eq_flatMap]
  apply List.flatMap_congr
  intro letter mem
  exact writtenLetter_ascii (ascii letter.1 (mem_of_mem_letters mem))

def readBack (c : Char) : Char × Bool := (c.toLower, c.isUpper)

def writeDown (read : Char × Bool) : Char := if read.2 then read.1.toUpper else read.1

theorem readBack_writtenAscii {letter : Char × Bool} (ascii : letter.1.toNat < 128) :
    readBack (writtenAscii letter) = readLetter letter ∧
      writeDown (readLetter letter) = writtenAscii letter := by
  obtain ⟨c, begins⟩ := letter
  cases begins <;>
    exact forall_ascii (motive := fun c =>
      readBack (writtenAscii (c, _)) = readLetter (c, _) ∧
        writeDown (readLetter (c, _)) = writtenAscii (c, _)) (by decide +kernel) ascii

/-- ASCII texts derive one name exactly when they read alike. -/
theorem pascalCase_eq_iff {first second : String} (firstAscii : IsAscii first)
    (secondAscii : IsAscii second) :
    pascalCase first = pascalCase second ↔ reading first = reading second := by
  have back {text : String} (ascii : IsAscii text) :
      ((pascalCase text).toList).map readBack = reading text := by
    rw [toList_pascalCase_ascii ascii, reading, List.map_map]
    apply List.map_congr_left
    intro letter mem
    exact (readBack_writtenAscii (ascii letter.1 (mem_of_mem_letters mem))).1
  have down {text : String} (ascii : IsAscii text) :
      (reading text).map writeDown = (pascalCase text).toList := by
    rw [toList_pascalCase_ascii ascii, reading, List.map_map]
    apply List.map_congr_left
    intro letter mem
    exact (readBack_writtenAscii (ascii letter.1 (mem_of_mem_letters mem))).2
  constructor
  · intro same
    rw [← back firstAscii, ← back secondAscii, same]
  · intro same
    apply String.toList_injective
    rw [← down firstAscii, ← down secondAscii, same]

end Formwright.Component
