import Formwright.Component.Name
import Formwright.Proofs.Text.CaseMapping

/-!
The characters of names of generated things. Of the ASCII characters only letters and digits get
into a name.
-/

namespace Formwright.Component

open Text

theorem isAlphanumeric_of_wordsAfter {word : List Char}
    (alphanumeric : ∀ c ∈ word, isAlphanumeric c = true) (text : List Char) :
    ∀ found ∈ wordsAfter word text, ∀ c ∈ found, isAlphanumeric c = true := by
  induction text generalizing word with
  | nil =>
    intro found mem c inside
    rw [wordsAfter, List.mem_singleton] at mem
    rw [mem, List.mem_reverse] at inside
    exact alphanumeric c inside
  | cons c later ih =>
    intro found mem d inside
    rw [wordsAfter] at mem
    split at mem
    next more =>
      refine ih ?_ found mem d inside
      intro e listed
      obtain rfl | before := List.mem_cons.mp listed
      · exact more
      · exact alphanumeric e before
    next =>
      obtain rfl | behind := List.mem_cons.mp mem
      · exact alphanumeric d (List.mem_reverse.mp inside)
      · exact ih (by rintro _ ⟨⟩) found behind d inside

theorem allPlain_capitalise {word : List Char} (plain : AllPlain word) :
    AllPlain (capitalise word) := by
  intro c mem
  cases word with
  | nil => cases mem
  | cons first later =>
    obtain start | rest := List.mem_append.mp mem
    next => exact allPlain_capital (plain first List.mem_cons_self) c start
    next =>
      obtain ⟨d, listed, form⟩ := List.mem_flatMap.mp rest
      exact allPlain_small (plain d (List.mem_cons_of_mem first listed)) c form

theorem allPlain_pascalCase (text : String) : AllPlain (pascalCase text).toList := by
  intro c mem
  rw [pascalCase, String.toList_ofList] at mem
  obtain ⟨word, listed, inside⟩ := List.mem_flatMap.mp mem
  refine allPlain_capitalise ?_ c inside
  intro d known
  apply isPlain_of_isAlphanumeric
  exact isAlphanumeric_of_wordsAfter (by rintro _ ⟨⟩) _ word (List.mem_filter.mp listed).1 d known

theorem unitName_eq_some {form : Form} {name : String} :
    unitName form = some name ↔
      name = pascalCase (nameSource form) ∧
        ∃ first later, name.toList = first :: later ∧ first.isDigit = false := by
  -- the equation of the definition would have to evaluate the name
  delta unitName
  generalize pascalCase (nameSource form) = derived
  simp only
  constructor
  next =>
    intro named
    split at named
    next => cases named
    next first later same =>
      split at named
      next => cases named
      next digit =>
        cases named
        exact ⟨rfl, first, later, same, Bool.not_eq_true _ |>.mp digit⟩
  next =>
    rintro ⟨rfl, first, later, same, digit⟩
    rw [same]
    simp [digit]

end Formwright.Component
