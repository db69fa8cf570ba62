import Formwright.Number.Reading
import Formwright.Proofs.Text.Ascii
import Mathlib.Tactic.Linarith
import Mathlib.Tactic.Ring

/-!
ASCII digits and the numbers that they stand for.
-/

namespace Formwright.Number

open Text

theorem isDigits_iff {text : List Char} :
    isDigits text = true ↔ text ≠ [] ∧ ∀ c ∈ text, c.isDigit = true := by
  rw [isDigits, Bool.and_eq_true, Bool.not_eq_true', List.isEmpty_eq_false_iff, List.all_eq_true]

theorem isDigit_toDigits (value : Nat) : ∀ c ∈ Nat.toDigits 10 value, c.isDigit = true :=
  fun _ mem => Nat.isDigit_of_mem_toDigits (by decide) (by decide) mem

theorem ofDigits_toDigits (value : Nat) : ofDigits (Nat.toDigits 10 value) = value := by
  have back := Nat.ofDigitChars_toDigits (b := 10) (n := value) (by decide) (by decide)
  rwa [Nat.ofDigitChars_eq_foldl] at back

theorem digitValue_lt {c : Char} (digit : c.isDigit = true) : digitValue c < 10 := by
  have most := (toNat_of_isDigit digit).2
  have zero : '0'.toNat = 48 := rfl
  rw [digitValue]
  omega

theorem foldl_digits (start : Nat) (digits : List Char) :
    digits.foldl (fun value c => 10 * value + digitValue c) start =
      start * 10 ^ digits.length + ofDigits digits := by
  induction digits generalizing start with
  | nil => rw [List.foldl_nil, ofDigits, List.foldl_nil, List.length_nil]; omega
  | cons c later ih =>
    rw [List.foldl_cons, ofDigits, List.foldl_cons, ih, ih (10 * 0 + digitValue c),
      List.length_cons, Nat.pow_succ]
    ring

theorem ofDigits_cons (c : Char) (later : List Char) :
    ofDigits (c :: later) = digitValue c * 10 ^ later.length + ofDigits later := by
  rw [ofDigits, List.foldl_cons, foldl_digits, Nat.mul_zero, Nat.zero_add]

theorem ofDigits_lt {digits : List Char} (ascii : ∀ c ∈ digits, c.isDigit = true) :
    ofDigits digits < 10 ^ digits.length := by
  induction digits with
  | nil => decide
  | cons c later ih =>
    rw [List.forall_mem_cons] at ascii
    have first := digitValue_lt ascii.1
    have rest := ih ascii.2
    rw [ofDigits_cons, List.length_cons, Nat.pow_succ]
    nlinarith

theorem ofDigits_dropZeros (digits : List Char) :
    ofDigits (digits.dropWhile (· == '0')) = ofDigits digits := by
  induction digits with
  | nil => rfl
  | cons c later ih =>
    by_cases zero : c = '0'
    · rw [List.dropWhile_cons_of_pos (by rw [zero]; decide), ih, ofDigits_cons, zero]
      show ofDigits later = 0 * 10 ^ later.length + ofDigits later
      omega
    · rw [List.dropWhile_cons_of_neg (by simpa using zero)]

/-- Digits that do not begin with a zero stand for a number of as many places. -/
theorem le_ofDigits {c : Char} {later : List Char} (digit : c.isDigit = true) (first : c ≠ '0') :
    10 ^ later.length ≤ ofDigits (c :: later) := by
  have positive : 1 ≤ digitValue c := by
    have least := (toNat_of_isDigit digit).1
    have zero : '0'.toNat = 48 := rfl
    have other : c.toNat ≠ 48 := fun same => first (Char.toNat_inj.mp same)
    rw [digitValue]
    omega
  rw [ofDigits_cons]
  nlinarith [Nat.pow_pos (n := later.length) (show 0 < 10 by decide)]

end Formwright.Number
