import Formwright.Component.Expression
import Formwright.Proofs.Number.Digits
import Formwright.Proofs.Text.Blanks
import Formwright.Proofs.Text.Literal

/-!
Readers of the words, texts and numbers that expressions are made of.
-/

namespace Formwright.Component

open Mapping Text Number

abbrev Reader (α : Type) := List Char → Option (α × List Char)

def readText : Reader String := fun text =>
  (readLiteral text).map fun read => (String.ofList read.1, read.2)

def readNatural (word : List Char) : Option Nat :=
  if isDigits word then some (ofDigits word) else none

def readWord (word : List Char) : Option PropertyValue :=
  if word = "true".toList then some (.flag true)
  else if word = "false".toList then some (.flag false)
  else (readNatural word).map fun value : Nat => .integer value

def readScalar : Reader PropertyValue
  | '"' :: rest => (readText ('"' :: rest)).map fun read => (.text read.1, read.2)
  | '-' :: rest =>
    (readNatural (rest.takeWhile isKeyCharacter)).map fun value : Nat =>
      (.integer (-value), rest.dropWhile isKeyCharacter)
  | text => (readWord (text.takeWhile isKeyCharacter)).map (·, text.dropWhile isKeyCharacter)

def readKey : Reader String
  | '"' :: rest => readText ('"' :: rest)
  | text =>
    let word := String.ofList (text.takeWhile isKeyCharacter)
    if isPlainKey word then some (word, text.dropWhile isKeyCharacter) else none

def opensCode (c : Char) : Bool := isKeyCharacter c || c = '-' || c = '"' || c = '[' || c = '{'

theorem ascii_of_isKeyCharacter {c : Char} (key : isKeyCharacter c = true) : c.toNat < 128 := by
  have code : c.val.toNat = c.toNat := rfl
  delta isKeyCharacter Char.isAlphanum Char.isAlpha Char.isUpper Char.isLower Char.isDigit at key
  simp only [Bool.or_eq_true, Bool.and_eq_true, decide_eq_true_eq, ge_iff_le,
    UInt32.le_iff_toNat_le, code] at key
  obtain ((((⟨_, upper⟩ | ⟨_, lower⟩) | ⟨_, digit⟩) | rfl) | rfl) := key
  · exact Nat.lt_of_le_of_lt upper (by decide)
  · exact Nat.lt_of_le_of_lt lower (by decide)
  · exact Nat.lt_of_le_of_lt digit (by decide)
  · decide
  · decide

theorem dark_of_opensCode {c : Char} (opens : opensCode c = true) : isBlank c = false := by
  have ascii : c.toNat < 128 := by
    have whole := opens
    simp only [opensCode, Bool.or_eq_true, decide_eq_true_eq] at whole
    obtain (((key | rfl) | rfl) | rfl) | rfl := whole
    · exact ascii_of_isKeyCharacter key
    all_goals decide
  exact forall_ascii (motive := fun c => opensCode c = true → isBlank c = false)
    (by decide +kernel) ascii opens

/-- A word that stands before this is complete. -/
def EndsWord (rest : List Char) : Prop := ∀ c ∈ rest.head?, isKeyCharacter c = false

theorem endsWord_cons {c : Char} (other : isKeyCharacter c = false) (rest : List Char) :
    EndsWord (c :: rest) := by
  rintro d ⟨⟩
  exact other

theorem endsWord_of_blank {pad : List Char} (blank : Blank pad) {c : Char}
    (other : opensCode c = false) (rest : List Char) : EndsWord (pad ++ c :: rest) := by
  intro d first
  rw [Bool.eq_false_iff]
  intro key
  have opens : opensCode d = true := by simp [opensCode, key]
  cases pad with
  | nil =>
    cases first
    rw [opens] at other
    cases other
  | cons e pad =>
    cases first
    have light := blank _ List.mem_cons_self
    rw [dark_of_opensCode opens] at light
    cases light

structure ReadsAs {α : Type} (read : Reader α) (code : List Char) (entry : α) : Prop where
  opens : code.head?.any opensCode = true
  reads (rest : List Char) (ends : EndsWord rest) : read (code ++ rest) = some (entry, rest)

theorem readText_literal (text : String) (rest : List Char) :
    readText ((literal text).toList ++ rest) = some (text, rest) := by
  rw [readText, literal, String.toList_ofList, readLiteral_quotedLiteral, Option.map_some,
    String.ofList_toList]

theorem toList_literal (text : String) : ∃ inside, (literal text).toList = '"' :: inside := by
  rw [literal, String.toList_ofList]
  exact ⟨_, rfl⟩

theorem readsAs_text (text : String) :
    ReadsAs readScalar (scalarCode (.text text)).toList (.text text) := by
  obtain ⟨inside, quoted⟩ := toList_literal text
  rw [scalarCode]
  refine ⟨by rw [quoted]; rfl, fun rest _ => ?_⟩
  have read := readText_literal text rest
  rw [quoted, List.cons_append] at read ⊢
  rw [readScalar, read, Option.map_some]

section Word

variable {word rest : List Char} (filled : word ≠ []) (keys : ∀ c ∈ word, isKeyCharacter c = true)

include filled keys

theorem opensCode_word : word.head?.any opensCode = true := by
  cases word with
  | nil => exact absurd rfl filled
  | cons c later => simp [opensCode, keys c List.mem_cons_self]

theorem readScalar_word (ends : EndsWord rest) :
    readScalar (word ++ rest) = (readWord word).map (·, rest) := by
  cases word with
  | nil => exact absurd rfl filled
  | cons c later =>
    have key := keys c List.mem_cons_self
    rw [List.cons_append, readScalar, ← List.cons_append, takeWhile_run keys ends,
      dropWhile_run keys ends]
    · rintro _ ⟨⟩
      exact absurd key (by decide)
    · rintro _ ⟨⟩
      exact absurd key (by decide)

theorem readsAs_word {scalar : PropertyValue} (means : readWord word = some scalar) :
    ReadsAs readScalar word scalar := by
  refine ⟨opensCode_word filled keys, fun rest ends => ?_⟩
  rw [readScalar_word filled keys ends, means, Option.map_some]

theorem readKey_word (plain : isPlainKey (String.ofList word) = true) (ends : EndsWord rest) :
    readKey (word ++ rest) = some (String.ofList word, rest) := by
  cases word with
  | nil => exact absurd rfl filled
  | cons c later =>
    have key := keys c List.mem_cons_self
    rw [List.cons_append, readKey, ← List.cons_append, takeWhile_run keys ends,
      dropWhile_run keys ends]
    · exact if_pos plain
    · rintro _ ⟨⟩
      exact absurd key (by decide)

end Word

theorem readsAs_flag (flag : Bool) :
    ReadsAs readScalar (scalarCode (.flag flag)).toList (.flag flag) := by
  cases flag with
  | true =>
    show ReadsAs readScalar ['t', 'r', 'u', 'e'] _
    exact readsAs_word (List.cons_ne_nil _ _) (List.all_eq_true.mp (by decide)) (by decide)
  | false =>
    show ReadsAs readScalar ['f', 'a', 'l', 's', 'e'] _
    exact readsAs_word (List.cons_ne_nil _ _) (List.all_eq_true.mp (by decide)) (by decide)

theorem readNatural_toDigits (value : Nat) : readNatural (Nat.toDigits 10 value) = some value := by
  have digits : isDigits (Nat.toDigits 10 value) = true :=
    isDigits_iff.mpr ⟨Nat.toDigits_ne_nil, isDigit_toDigits value⟩
  rw [readNatural, if_pos digits, ofDigits_toDigits]

theorem readWord_toDigits (value : Nat) :
    readWord (Nat.toDigits 10 value) = some (.integer value) := by
  have other {word : String} {c : Char} (mem : c ∈ word.toList) (letter : c.isDigit = false) :
      Nat.toDigits 10 value ≠ word.toList := by
    intro same
    rw [← same] at mem
    rw [isDigit_toDigits value c mem] at letter
    cases letter
  have notTrue : Nat.toDigits 10 value ≠ "true".toList :=
    other (c := 't') (by decide) (by decide)
  have notFalse : Nat.toDigits 10 value ≠ "false".toList :=
    other (c := 'f') (by decide) (by decide)
  rw [readWord, if_neg notTrue, if_neg notFalse, readNatural_toDigits, Option.map_some]

theorem readsAs_integer (value : Int) :
    ReadsAs readScalar (scalarCode (.integer value)).toList (.integer value) := by
  have filled : Nat.toDigits 10 value.natAbs ≠ [] := Nat.toDigits_ne_nil
  have keys : ∀ c ∈ Nat.toDigits 10 value.natAbs, isKeyCharacter c = true := by
    intro c mem
    simp [isKeyCharacter, Char.isAlphanum, isDigit_toDigits _ c mem]
  rw [scalarCode, String.toList_ofList, integerText]
  split
  next negative =>
    have back : -(value.natAbs : Int) = value := by omega
    refine ⟨rfl, fun rest ends => ?_⟩
    rw [List.cons_append, readScalar, takeWhile_run keys ends, dropWhile_run keys ends,
      readNatural_toDigits, Option.map_some, back]
  next notNegative =>
    have back : (value.natAbs : Int) = value := by omega
    have means := readWord_toDigits value.natAbs
    rw [back] at means
    exact readsAs_word filled keys means

/-- A key stands for itself if it is a word, and in quotes otherwise. -/
theorem readsAs_key (key : String) : ReadsAs readKey (fieldKey key).toList key := by
  rw [fieldKey]
  split
  next plain =>
    have filled : key.toList ≠ [] := by
      intro none
      rw [isPlainKey, none] at plain
      cases plain
    have keys : ∀ c ∈ key.toList, isKeyCharacter c = true := by
      intro c mem
      rw [isPlainKey] at plain
      split at plain
      next => cases plain
      next first others begins =>
        simp only [Bool.and_eq_true] at plain
        rw [begins] at mem
        cases mem with
        | head => exact plain.1.1
        | tail _ inside => exact List.all_eq_true.mp plain.2 c inside
    have word : isPlainKey (String.ofList key.toList) = true := by rwa [String.ofList_toList]
    refine ⟨opensCode_word filled keys, fun rest ends => ?_⟩
    rw [readKey_word filled keys word ends, String.ofList_toList]
  next =>
    obtain ⟨inside, quoted⟩ := toList_literal key
    refine ⟨by rw [quoted]; rfl, fun rest _ => ?_⟩
    have read := readText_literal key rest
    rw [quoted] at read ⊢
    exact read

end Formwright.Component
