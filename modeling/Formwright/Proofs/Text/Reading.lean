import Formwright.Text.Substitution

/-!
What a reader takes off the front of a text, and what it leaves.
-/

namespace Formwright.Text

theorem afterStart_append (start rest : List Char) :
    afterStart start (start ++ rest) = some rest := by
  induction start with
  | nil => rfl
  | cons s start ih => rw [List.cons_append, afterStart, if_pos rfl, ih]

theorem afterStart_other {s c : Char} (other : s ≠ c) (rest : List Char) :
    afterStart [s] (c :: rest) = none := if_neg other

theorem append_of_afterStart {start text rest : List Char}
    (found : afterStart start text = some rest) : text = start ++ rest := by
  induction start generalizing text with
  | nil =>
    injection found
  | cons s start ih =>
    cases text with
    | nil => cases found
    | cons c text =>
      rw [afterStart] at found
      split at found
      next same => rw [same, ih found, List.cons_append]
      next => cases found

theorem occursIn_iff (needle text : List Char) :
    occursIn needle text = true ↔ needle <:+: text := by
  induction text with
  | nil => rw [occursIn, List.isEmpty_iff, List.infix_nil]
  | cons c rest ih =>
    rw [occursIn, Bool.or_eq_true_iff, List.isPrefixOf_iff_prefix, ih, List.infix_cons_iff]

theorem any_head_append {first : Char → Bool} {text : List Char}
    (opens : text.head?.any first = true) (rest : List Char) :
    (text ++ rest).head?.any first = true := by
  cases text with
  | nil => cases opens
  | cons c later => exact opens

section Run

variable {keep : Char → Bool} {run rest : List Char} (all : ∀ c ∈ run, keep c = true)
  (stops : ∀ c ∈ rest.head?, keep c = false)

include stops

theorem dropWhile_stopped : rest.dropWhile keep = rest := by
  cases rest with
  | nil => rfl
  | cons c later => exact List.dropWhile_cons_of_neg (Bool.eq_false_iff.mp (stops c rfl))

theorem takeWhile_stopped : rest.takeWhile keep = [] := by
  cases rest with
  | nil => rfl
  | cons c later => exact List.takeWhile_cons_of_neg (Bool.eq_false_iff.mp (stops c rfl))

include all

/-- A run of characters of one class is taken whole if the next character is of another. -/
theorem takeWhile_run : (run ++ rest).takeWhile keep = run := by
  rw [List.takeWhile_append_of_pos all, takeWhile_stopped stops, List.append_nil]

theorem dropWhile_run : (run ++ rest).dropWhile keep = rest := by
  rw [List.dropWhile_append_of_pos all, dropWhile_stopped stops]

end Run
end Formwright.Text
