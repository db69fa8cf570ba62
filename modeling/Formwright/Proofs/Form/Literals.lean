import Formwright.Form.Property
import Formwright.Proofs.Number.Numeral

/-!
Literals among the values. The patterns let digits of every script through, and the readers take
ASCII digits only, so that a value is a number if its text is a numeral in ASCII digits.
-/

namespace Formwright.PropertyValue

open Text Number Binary64

/-! ## Patterns -/

theorem dropMinus_text (numeral : Numeral) :
    dropMinus numeral.text = numeral.whole ++ numeral.tail := by
  have plain {c : Char} := numeral.unsigned_plain (c := c)
  rw [Numeral.text]
  generalize numeral.whole ++ numeral.tail = unsigned at *
  cases numeral.negative with
  | true => rfl
  | false =>
    rw [if_neg Bool.false_ne_true, List.nil_append, dropMinus.eq_def]
    split
    next => exact ((plain List.mem_cons_self).1 rfl).elim
    next => rfl

theorem looksWhole_text (numeral : Numeral) :
    looksWhole numeral.text = numeral.fraction.isNone := by
  rw [looksWhole, dropMinus_text]
  obtain ⟨noPoint, last, -⟩ | ⟨point, last, -⟩ := numeral.tail_cases
  · rw [noPoint, last, List.append_nil]
    have digits : numeral.whole.all isDecimalDigit = true :=
      List.all_eq_true.mpr fun c mem => isDecimalDigit_of_isDigit (numeral.wholeDigits c mem)
    have filled : numeral.whole.isEmpty = false :=
      List.isEmpty_eq_false_iff.mpr (numeral.filled noPoint)
    rw [digits, filled]
    rfl
  · rw [point, last, List.all_append, List.all_cons]
    have mark : isDecimalDigit '.' = false := by decide
    rw [mark, Bool.false_and, Bool.and_false, Bool.and_false]
    rfl

theorem looksDecimal_text (numeral : Numeral) (point : numeral.fraction.isSome = true) :
    looksDecimal numeral.text = true := by
  have wide : ∀ c ∈ numeral.whole, isDecimalDigit c = true := fun c mem =>
    isDecimalDigit_of_isDigit (numeral.wholeDigits c mem)
  obtain ⟨noPoint, -, -⟩ | ⟨-, last, filled⟩ := numeral.tail_cases
  · rw [noPoint] at point
    cases point
  · rw [looksDecimal, dropMinus_text, last, List.dropWhile_append_of_pos wide]
    show (!numeral.places.isEmpty && numeral.places.all isDecimalDigit) = true
    rw [List.isEmpty_eq_false_iff.mpr filled]
    exact List.all_eq_true.mpr fun c mem => isDecimalDigit_of_isDigit (numeral.isDigit_places c mem)

/-- Behind the minus the patterns let digits and a point through, and they end with a digit. -/
theorem digits_of_looks {text : List Char}
    (looks : looksWhole text = true ∨ looksDecimal text = true) :
    (∀ c ∈ dropMinus text, isDecimalDigit c = true ∨ c = '.') ∧
      (dropMinus text).getLast? ≠ some '.' := by
  have ends (before : List Char) {digits : List Char} (filled : digits.isEmpty = false)
      (wide : ∀ c ∈ digits, isDecimalDigit c = true) : (before ++ digits).getLast? ≠ some '.' := by
    intro last
    rw [List.getLast?_append_of_ne_nil _ (List.isEmpty_eq_false_iff.mp filled)] at last
    have point := wide '.' (List.mem_of_getLast? last)
    revert point
    decide
  obtain whole | decimal := looks
  · rw [looksWhole] at whole
    simp only [Bool.and_eq_true, Bool.not_eq_true', List.all_eq_true] at whole
    exact ⟨fun c mem => .inl (whole.2 c mem), ends [] whole.1 whole.2⟩
  · rw [looksDecimal] at decimal
    have parts : (dropMinus text).takeWhile isDecimalDigit ++
        (dropMinus text).dropWhile isDecimalDigit = dropMinus text :=
      List.takeWhile_append_dropWhile
    split at decimal
    next fraction found =>
      simp only [Bool.and_eq_true, Bool.not_eq_true', List.all_eq_true] at decimal
      rw [found] at parts
      rw [← parts]
      constructor
      · rw [List.forall_mem_append, List.forall_mem_cons]
        exact ⟨fun c mem => .inl (List.mem_takeWhile_imp mem), .inr rfl,
          fun c mem => .inl (decimal.2 c mem)⟩
      · rw [List.append_cons]
        exact ends _ decimal.1 decimal.2
    next => cases decimal

theorem isBare_of_looks {text : List Char}
    (looks : looksWhole text = true ∨ looksDecimal text = true) : IsBare text := by
  obtain ⟨digits, ends⟩ := digits_of_looks looks
  have plain {c : Char} (allowed : c = '-' ∨ isDecimalDigit c = true ∨ c = '.') :
      c ∉ ['+', 'e', 'E'] := by
    intro mem
    simp only [List.mem_cons, List.not_mem_nil, or_false] at mem
    revert allowed
    obtain rfl | rfl | rfl := mem <;> decide
  revert digits ends
  rw [dropMinus.eq_def]
  split
  next rest =>
    intro digits ends
    constructor
    · rw [List.forall_mem_cons]
      exact ⟨plain (.inl rfl), fun c mem => plain (.inr (digits c mem))⟩
    · intro last
      cases rest with
      | nil => cases last
      | cons c rest => exact ends last
  next => exact fun digits ends => ⟨fun c mem => plain (.inr (digits c mem)), ends⟩

/-! ## Values -/

theorem fitsInt64_iff (n : Int) : fitsInt64 n = true ↔ -(2 ^ 63) ≤ n ∧ n < 2 ^ 63 := by
  rw [fitsInt64, Bool.and_eq_true, decide_eq_true_eq, decide_eq_true_eq]
  exact Iff.rfl

theorem le_overflow : (2 : ℚ) ^ 64 ≤ overflow := by
  have unit : (2 : ℚ) ^ (64 : Int) ≤ halfUnit := zpow_le_zpow_right₀ (by norm_num) (by decide)
  have positive := halfUnit_pos
  rw [show (2 : ℚ) ^ (64 : Int) = 2 ^ 64 from zpow_natCast 2 64] at unit
  rw [overflow]
  nlinarith

/-- Whole numbers of 64 bits are far below the overflow. -/
theorem lt_overflow_of_fits {numeral : Numeral} (noPoint : numeral.fraction = none)
    (fits : fitsInt64 numeral.integer = true) : numeral.magnitude < overflow := by
  have small : ofDigits numeral.whole < 2 ^ 64 := by
    rw [fitsInt64_iff, Numeral.integer] at fits
    split at fits <;> omega
  have noPlaces : numeral.places = [] := by
    rw [Numeral.places, noPoint]
    rfl
  rw [Numeral.magnitude, noPlaces, List.append_nil, decimalValue, List.length_nil, Nat.cast_zero,
    neg_zero, zpow_zero, mul_one]
  refine lt_of_lt_of_le ?_ le_overflow
  exact_mod_cast small

section Numerals

variable {raw : String} {numeral : Numeral} (spelled : numeral.text = raw.toList)

include spelled

theorem not_flag_of_numeral : raw ≠ "true" ∧ raw ≠ "false" := by
  have noLetter : 'e' ∉ raw.toList := by
    rw [← spelled]
    intro mem
    have allowed := numeral.mem_text mem
    revert allowed
    decide
  constructor <;> rintro rfl <;> exact noLetter (by decide)

theorem finiteOrText_numeral :
    finiteOrText raw = if numeral.number.isFinite then .number numeral.number else .text raw := by
  rw [finiteOrText, ← spelled, numeral.readBinary64_text]

theorem readInt64_numeral (noPoint : numeral.fraction = none) :
    readInt64 raw.toList =
      if fitsInt64 numeral.integer then some numeral.integer else none := by
  rw [readInt64, ← spelled, numeral.readInteger_text noPoint, Option.filter_some]

/-- The value of a numeral, by what it stands for. -/
theorem ofText_numeral :
    ofText raw =
      if numeral.fraction = none ∧ fitsInt64 numeral.integer = true then .integer numeral.integer
      else if numeral.number.isFinite then .number numeral.number
      else .text raw := by
  obtain ⟨noTrue, noFalse⟩ := not_flag_of_numeral spelled
  have whole := looksWhole_text numeral
  rw [spelled] at whole
  rw [ofText, if_neg noTrue, if_neg noFalse, whole]
  by_cases noPoint : numeral.fraction = none
  · rw [if_pos (Option.isNone_iff_eq_none.mpr noPoint), readInt64_numeral spelled noPoint]
    by_cases fits : fitsInt64 numeral.integer = true
    · rw [if_pos fits, if_pos ⟨noPoint, fits⟩]
    · rw [if_neg fits, if_neg fun both => fits both.2, ← finiteOrText_numeral spelled]
  · have decimal := looksDecimal_text numeral (Option.isSome_iff_ne_none.mpr noPoint)
    rw [spelled] at decimal
    rw [if_neg (mt Option.isNone_iff_eq_none.mp noPoint), if_pos decimal,
      if_neg fun both => noPoint both.1, finiteOrText_numeral spelled]

end Numerals

/-- Any other text is kept, also if it looks like a numeral in the digits of another script. -/
theorem ofText_other {raw : String} (noTrue : raw ≠ "true") (noFalse : raw ≠ "false")
    (other : ∀ numeral : Numeral, numeral.text ≠ raw.toList) : ofText raw = .text raw := by
  have kept (looks : looksWhole raw.toList = true ∨ looksDecimal raw.toList = true) :
      finiteOrText raw = .text raw := by
    rw [finiteOrText]
    split
    next value read =>
      split
      next finite =>
        obtain ⟨numeral, spelled⟩ :=
          exists_numeral_of_readBinary64 (isBare_of_looks looks) read finite
        exact (other numeral spelled).elim
      next => rfl
    next => rfl
  rw [ofText, if_neg noTrue, if_neg noFalse]
  split
  next whole =>
    split
    next value read =>
      obtain ⟨taken, -⟩ := Option.filter_eq_some_iff.mp read
      obtain ⟨numeral, spelled, -⟩ :=
        exists_numeral_of_readInteger (isBare_of_looks (.inl whole)) taken
      exact (other numeral spelled).elim
    next => exact kept (.inl whole)
  next =>
    split
    next decimal => exact kept (.inr decimal)
    next => rfl

theorem ofText_flag (flag : Bool) : ofText (if flag then "true" else "false") = .flag flag := by
  cases flag <;> decide

/-- Each text is a flag, a numeral or something else. -/
theorem text_cases (raw : String) :
    (∃ flag : Bool, raw = if flag then "true" else "false") ∨
      (∃ numeral : Numeral, numeral.text = raw.toList) ∨
      (raw ≠ "true" ∧ raw ≠ "false" ∧ ∀ numeral : Numeral, numeral.text ≠ raw.toList) := by
  by_cases isTrue : raw = "true"
  · exact .inl ⟨true, isTrue⟩
  · by_cases isFalse : raw = "false"
    · exact .inl ⟨false, isFalse⟩
    · by_cases spelled : ∃ numeral : Numeral, numeral.text = raw.toList
      · exact .inr (.inl spelled)
      · exact .inr (.inr ⟨isTrue, isFalse, not_exists.mp spelled⟩)

section Kinds

variable (raw : String)

theorem ofText_eq_flag_iff (flag : Bool) :
    ofText raw = .flag flag ↔ raw = if flag then "true" else "false" := by
  refine ⟨fun read => ?_, fun same => same ▸ ofText_flag flag⟩
  obtain ⟨found, rfl⟩ | ⟨numeral, spelled⟩ | ⟨noTrue, noFalse, other⟩ := text_cases raw
  · rw [ofText_flag] at read
    cases read
    rfl
  · rw [ofText_numeral spelled] at read
    split at read
    next => cases read
    next => split at read <;> cases read
  · rw [ofText_other noTrue noFalse other] at read
    cases read

theorem ofText_eq_integer_iff (n : Int) :
    ofText raw = .integer n ↔
      ∃ numeral : Numeral, numeral.text = raw.toList ∧ numeral.fraction = none ∧
        numeral.integer = n ∧ -(2 ^ 63) ≤ n ∧ n < 2 ^ 63 := by
  constructor
  · intro read
    obtain ⟨flag, rfl⟩ | ⟨numeral, spelled⟩ | ⟨noTrue, noFalse, other⟩ := text_cases raw
    · rw [ofText_flag] at read
      cases read
    · rw [ofText_numeral spelled] at read
      split at read
      next small =>
        cases read
        exact ⟨numeral, spelled, small.1, rfl, (fitsInt64_iff _).mp small.2⟩
      next => split at read <;> cases read
    · rw [ofText_other noTrue noFalse other] at read
      cases read
  · rintro ⟨numeral, spelled, noPoint, rfl, fits⟩
    rw [ofText_numeral spelled, if_pos ⟨noPoint, (fitsInt64_iff _).mpr fits⟩]

theorem ofText_eq_number_iff (number : Binary64) :
    ofText raw = .number number ↔
      ∃ numeral : Numeral, numeral.text = raw.toList ∧
        (numeral.fraction = none → ¬(-(2 ^ 63) ≤ numeral.integer ∧ numeral.integer < 2 ^ 63)) ∧
        readBinary64 raw.toList = some number ∧ number.isFinite = true := by
  constructor
  · intro read
    obtain ⟨flag, rfl⟩ | ⟨numeral, spelled⟩ | ⟨noTrue, noFalse, other⟩ := text_cases raw
    · rw [ofText_flag] at read
      cases read
    · rw [ofText_numeral spelled] at read
      split at read
      next => cases read
      next notSmall =>
        split at read
        next finite =>
          cases read
          refine ⟨numeral, spelled, fun noPoint fits => ?_, ?_, finite⟩
          · exact notSmall ⟨noPoint, (fitsInt64_iff _).mpr fits⟩
          · rw [← spelled, numeral.readBinary64_text]
        next => cases read
    · rw [ofText_other noTrue noFalse other] at read
      cases read
  · rintro ⟨numeral, spelled, large, read, finite⟩
    rw [← spelled, numeral.readBinary64_text] at read
    cases read
    rw [ofText_numeral spelled, if_neg, if_pos finite]
    exact fun both => large both.1 ((fitsInt64_iff _).mp both.2)

theorem ofText_eq_text_iff (text : String) :
    ofText raw = .text text ↔
      text = raw ∧ raw ≠ "true" ∧ raw ≠ "false" ∧
        ∀ numeral : Numeral, numeral.text = raw.toList → overflow ≤ numeral.magnitude := by
  constructor
  · intro read
    obtain ⟨flag, rfl⟩ | ⟨numeral, spelled⟩ | ⟨noTrue, noFalse, other⟩ := text_cases raw
    · rw [ofText_flag] at read
      cases read
    · obtain ⟨noTrue, noFalse⟩ := not_flag_of_numeral spelled
      have same : text = raw := by
        rw [ofText_numeral spelled] at read
        split at read
        next => cases read
        next =>
          split at read <;> cases read
          rfl
      refine ⟨same, noTrue, noFalse, fun numeral spelled => ?_⟩
      rw [ofText_numeral spelled] at read
      rw [← not_lt, ← numeral.rounds_number.isFinite_iff]
      intro finite
      rw [if_pos finite] at read
      split at read <;> cases read
    · rw [ofText_other noTrue noFalse other] at read
      cases read
      exact ⟨rfl, noTrue, noFalse, fun numeral spelled => (other numeral spelled).elim⟩
  · rintro ⟨rfl, noTrue, noFalse, beyond⟩
    by_cases spelled : ∃ numeral : Numeral, numeral.text = text.toList
    · obtain ⟨numeral, spelled⟩ := spelled
      have far := beyond numeral spelled
      rw [ofText_numeral spelled, if_neg, if_neg]
      · rw [numeral.rounds_number.isFinite_iff, not_lt]
        exact far
      · exact fun both => (lt_overflow_of_fits both.1 both.2).not_ge far
    · exact ofText_other noTrue noFalse (not_exists.mp spelled)

end Kinds

/-- The value of a text is of the kind that the text spells: a flag, a whole number of 64 bits, the
finite number nearest to a numeral, or else the text as it stands. -/
theorem literals_are_read (raw : String) :
    (∀ flag : Bool, ofText raw = .flag flag ↔ raw = if flag then "true" else "false") ∧
    (∀ n : Int, ofText raw = .integer n ↔
      ∃ numeral : Numeral, numeral.text = raw.toList ∧ numeral.fraction = none ∧
        numeral.integer = n ∧ -(2 ^ 63) ≤ n ∧ n < 2 ^ 63) ∧
    (∀ number : Binary64, ofText raw = .number number ↔
      ∃ numeral : Numeral, numeral.text = raw.toList ∧
        (numeral.fraction = none → ¬(-(2 ^ 63) ≤ numeral.integer ∧ numeral.integer < 2 ^ 63)) ∧
        readBinary64 raw.toList = some number ∧ number.isFinite = true) ∧
    (∀ numeral : Numeral, numeral.text = raw.toList →
      ∃ number, readBinary64 raw.toList = some number ∧
        Rounds numeral.negative numeral.magnitude number ∧
        (number.isFinite = true ↔ numeral.magnitude < overflow)) ∧
    (∀ text : String, ofText raw = .text text ↔
      text = raw ∧ raw ≠ "true" ∧ raw ≠ "false" ∧
        ∀ numeral : Numeral, numeral.text = raw.toList → overflow ≤ numeral.magnitude) ∧
    (∀ c ∈ raw.toList, ¬(c.isDigit = true ∨ c = '-' ∨ c = '.') → raw ≠ "true" → raw ≠ "false" →
      ofText raw = .text raw) ∧
    (∀ n : Int, -(2 ^ 63) ≤ n → n < 2 ^ 63 → raw = String.ofList (integerText n) →
      ofText raw = .integer n) := by
  refine ⟨ofText_eq_flag_iff raw, ofText_eq_integer_iff raw, ofText_eq_number_iff raw, ?_,
    ofText_eq_text_iff raw, ?_, ?_⟩
  · intro numeral spelled
    refine ⟨numeral.number, ?_, numeral.rounds_number, numeral.rounds_number.isFinite_iff⟩
    rw [← spelled, numeral.readBinary64_text]
  · intro c mem foreign noTrue noFalse
    refine ofText_other noTrue noFalse fun numeral spelled => foreign (numeral.mem_text ?_)
    rw [spelled]
    exact mem
  · rintro n least most rfl
    refine (ofText_eq_integer_iff _ n).mpr ⟨.ofInt n, ?_, rfl, Numeral.integer_ofInt n, least, most⟩
    rw [Numeral.text_ofInt, String.toList_ofList]

/-- The least whole number of 64 bits, the one below it, a digit of another script and a space. -/
theorem literals_at_least_integer :
    ofText "-9223372036854775808" = .integer (-(2 ^ 63)) ∧
      ofText "-9223372036854775809" = .number (.finite true (2 ^ 52) 11) ∧
      ofText "\u0663" = .text "\u0663" ∧ ofText "7 " = .text "7 " := by
  refine ⟨?_, ?_, ?_, ?_⟩
  · obtain ⟨-, -, -, -, -, -, written⟩ := literals_are_read "-9223372036854775808"
    exact written (-(2 ^ 63)) le_rfl (by decide) (by decide)
  · obtain ⟨-, -, number, -⟩ := literals_are_read "-9223372036854775809"
    refine (number _).mpr ⟨.ofInt (-9223372036854775809), ?_, ?_, by decide +kernel, rfl⟩
    · rw [Numeral.text_ofInt]
      decide +kernel
    · rw [Numeral.integer_ofInt]
      decide
  · obtain ⟨-, -, -, -, -, foreign, -⟩ := literals_are_read "\u0663"
    exact foreign '\u0663' (by decide) (by decide) (by decide) (by decide)
  · obtain ⟨-, -, -, -, -, foreign, -⟩ := literals_are_read "7 "
    exact foreign ' ' (by decide) (by decide) (by decide) (by decide)

end Formwright.PropertyValue
