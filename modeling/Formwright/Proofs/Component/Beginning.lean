import Formwright.Proofs.Component.Conversion
import Formwright.Proofs.Component.Words

/-!
How a derived name begins. Its first character is the capital of the first character of the first
word, and a number is its own capital. Names that would begin with an ASCII digit are refused; a
number of another script gets in front of the name.
-/

namespace Formwright.Component

open Mapping Text

def firstCharacter (text : String) : Option Char := (wordsOf text.toList).head?.bind List.head?

theorem head_pascalCase (text : String) :
    (pascalCase text).toList.head? = (firstCharacter text).bind fun c => (capital c).head? := by
  rw [toList_pascalCase, spelling_eq_wordsOf, firstCharacter]
  cases words : wordsOf text.toList with
  | nil => rfl
  | cons word later =>
    have mem : word ∈ wordsOf text.toList := words ▸ List.mem_cons_self
    obtain ⟨run, _, piece⟩ := List.mem_flatMap.mp mem
    obtain ⟨c, rest, rfl⟩ := List.exists_cons_of_ne_nil (List.ne_nil_of_mem_splitBy piece)
    rw [List.flatMap_cons, capitalise, List.append_assoc,
      List.head?_append_of_ne_nil _ (capital_ne_nil c)]
    rfl

/-- A name begins with a number exactly when its text does, and then with the same one. -/
theorem head_pascalCase_cases (text : String) :
    (firstCharacter text = none ∧ pascalCase text = "") ∨
      ∃ c d, firstCharacter text = some c ∧ (pascalCase text).toList.head? = some d ∧
        isNumber d = isNumber c ∧ (isNumber c = true → d = c) := by
  have head := head_pascalCase text
  cases first : firstCharacter text with
  | none =>
    rw [first] at head
    exact .inl ⟨rfl, String.toList_eq_nil_iff.mp (List.head?_eq_none_iff.mp head)⟩
  | some c =>
    rw [first, Option.bind_some] at head
    obtain ⟨d, rest, capitals⟩ := List.exists_cons_of_ne_nil (capital_ne_nil c)
    have inside : d ∈ capital c := capitals ▸ List.mem_cons_self
    refine .inr ⟨c, d, rfl, by rw [head, capitals]; rfl, isNumber_of_mem_capital inside, ?_⟩
    intro number
    rw [capital_of_isNumber number] at inside
    exact List.mem_singleton.mp inside

theorem unitName_eq_none {form : Form} :
    unitName form = none ↔ ∀ c ∈ firstCharacter (nameSource form), c.isDigit = true := by
  delta unitName
  simp only
  obtain ⟨first, empty⟩ | ⟨c, d, first, head, alike, kept⟩ :=
    head_pascalCase_cases (nameSource form)
  · rw [first, empty]
    exact iff_of_true rfl (by rintro _ ⟨⟩)
  · obtain ⟨later, text⟩ := List.head?_eq_some_iff.mp head
    have digits : d.isDigit = true ↔ c.isDigit = true := by
      constructor <;> intro digit
      · rw [← kept (alike ▸ isNumber_of_isDigit digit), digit]
      · rw [kept (isNumber_of_isDigit digit), digit]
    rw [text, first]
    simp [digits]

theorem head_of_unitName {form : Form} {name : String} (named : unitName form = some name) :
    ∃ c d, firstCharacter (nameSource form) = some c ∧ name.toList.head? = some d ∧
      isNumber d = isNumber c ∧ (isNumber c = true → d = c) := by
  obtain ⟨rfl, first, later, text, -⟩ := unitName_eq_some.mp named
  refine (head_pascalCase_cases (nameSource form)).resolve_left ?_
  rintro ⟨-, empty⟩
  rw [empty] at text
  cases text

/-- A form's name is refused exactly when its text has no word or the first word begins with an
ASCII digit, and the form then gives one error. A name that is accepted begins with no ASCII digit,
and with another number exactly when the first word does. So no accepted name begins with a number,
and every name whose first word does is refused, exactly when the first word begins with no number
beyond ASCII. -/
theorem names_begin_as_first_word (table : Table) (options : Options) (handlers : Entries String)
    (form : Form) :
    let first := firstCharacter (nameSource form)
    let outcome := convertForm table options handlers form
    (unitName form = none ↔ ∀ c ∈ first, c.isDigit = true) ∧
    (unitName form = none →
      outcome.units = [] ∧ outcome.errors = [⟨form.id, .unusableName (nameSource form)⟩]) ∧
    (∀ name, unitName form = some name → ∃ c d, first = some c ∧ name.toList.head? = some d ∧
      d.isDigit = false ∧ isNumber d = isNumber c ∧ (isNumber c = true → d = c)) ∧
    ((∀ c ∈ first, isNumber c = true → c.toNat < 128) ↔
      (∀ name, unitName form = some name → ∀ d ∈ name.toList.head?, isNumber d = false) ∧
        ∀ c ∈ first, isNumber c = true → unitName form = none) := by
  intro first outcome
  refine ⟨unitName_eq_none, ?_, ?_, ?_⟩
  · intro refused
    have met : obstacle table form = some (.unusableName (nameSource form)) := by
      delta obstacle
      rw [refused]
    refine ⟨units_of_obstacle table options handlers met, ?_⟩
    rw [show outcome.errors = _ from errors_of_convertForm table options handlers form, met]
    rfl
  · intro name named
    obtain ⟨c, d, here, head, alike, kept⟩ := head_of_unitName named
    obtain ⟨-, d', later, text, noDigit⟩ := unitName_eq_some.mp named
    rw [text, List.head?_cons, Option.some.injEq] at head
    exact ⟨c, d, here, by rw [text, head]; rfl, head ▸ noDigit, alike, kept⟩
  · constructor
    · intro ascii
      have refused : ∀ c ∈ first, isNumber c = true → unitName form = none := by
        intro c here number
        rw [unitName_eq_none]
        intro other same
        obtain rfl := Option.mem_unique here same
        exact isDigit_of_isNumber (ascii c here number) number
      refine ⟨?_, refused⟩
      intro name named d front
      obtain ⟨c, d', here, head, alike, -⟩ := head_of_unitName named
      rw [Option.mem_unique front head, alike, ← Bool.not_eq_true]
      intro number
      rw [refused c here number] at named
      cases named
    · rintro ⟨-, refused⟩ c here number
      have digit := unitName_eq_none.mp (refused c here number) c here
      exact (by have most := (toNat_of_isDigit digit).2; omega)

/-- ASCII digits in front of the first word, behind characters of no word. -/
theorem digits_in_front_are_refused :
    let form : Form := ⟨"7", "--7days", [], []⟩
    unitName form = none ∧
      (convertForm .standard {} [] form).errors = [⟨"7", .unusableName "--7days"⟩] := by
  intro form
  have refused : unitName form = none := by
    decide +kernel
  have source : nameSource form = "--7days" := by
    decide +kernel
  obtain ⟨-, errors, -⟩ := names_begin_as_first_word .standard {} [] form
  exact ⟨refused, source ▸ (errors refused).2⟩

/-- A digit of another script and a raised digit are left in front of names. -/
theorem foreign_digits_begin_names :
    let days : Form := ⟨"٣days", "", [], []⟩
    let second : Form := ⟨"main", "²nd", [], []⟩
    ((convertForm .standard {} [] days).units.map (·.name) = ["٣days"] ∧
      (convertForm .standard {} [] second).units.map (·.name) = ["²nd"]) ∧
    isDecimalDigit '٣' = true ∧ otherNumbers.contains '²' = true := by
  decide +kernel

end Formwright.Component
