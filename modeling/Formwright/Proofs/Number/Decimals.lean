import Formwright.Proofs.Number.Digits
import Formwright.Proofs.Number.Rounding

/-!
Decimal numerals. A numeral is rounded by the number that its digits and its power of ten stand for,
also where the power is too far away to be formed.
-/

namespace Formwright.Number

open Binary64

/-! ## Powers of ten -/

def decimalValue (digits : List Char) (exponent : Int) : ℚ := ofDigits digits * 10 ^ exponent

theorem ten_pos (exponent : Int) : (0 : ℚ) < 10 ^ exponent := zpow_pos (by norm_num) exponent

theorem decimalValue_nonneg (digits : List Char) (exponent : Int) :
    0 ≤ decimalValue digits exponent :=
  mul_nonneg (Nat.cast_nonneg _) (ten_pos exponent).le

theorem decimalValue_dropZeros (digits : List Char) (exponent : Int) :
    decimalValue (digits.dropWhile (· == '0')) exponent = decimalValue digits exponent := by
  rw [decimalValue, ofDigits_dropZeros, decimalValue]

theorem decimalValue_lt {digits : List Char} (ascii : ∀ c ∈ digits, c.isDigit = true)
    (exponent : Int) : decimalValue digits exponent < 10 ^ (digits.length + exponent) := by
  have fewer : (ofDigits digits : ℚ) < 10 ^ digits.length := by exact_mod_cast ofDigits_lt ascii
  rw [decimalValue, zpow_add₀ (by norm_num), zpow_natCast]
  exact mul_lt_mul_of_pos_right fewer (ten_pos exponent)

theorem le_decimalValue {c : Char} {later : List Char} (digit : c.isDigit = true) (first : c ≠ '0')
    (exponent : Int) : (10 : ℚ) ^ (later.length + exponent) ≤ decimalValue (c :: later) exponent := by
  have least : (10 : ℚ) ^ later.length ≤ ofDigits (c :: later) := by
    exact_mod_cast le_ofDigits digit first
  rw [decimalValue, zpow_add₀ (by norm_num), zpow_natCast]
  exact mul_le_mul_of_nonneg_right least (ten_pos exponent).le

theorem decimalValue_ratio (digits : List Char) (exponent : Int) :
    0 < Nat.pow 10 (-exponent).toNat ∧
      ((ofDigits digits * Nat.pow 10 exponent.toNat : Nat) : ℚ) / (Nat.pow 10 (-exponent).toNat : Nat) =
        decimalValue digits exponent := by
  have power : (10 : ℚ) ^ exponent = 10 ^ exponent.toNat / 10 ^ (-exponent).toNat := by
    rw [← zpow_natCast, ← zpow_natCast, ← zpow_sub₀ (by norm_num)]
    congr 1
    omega
  refine ⟨Nat.pow_pos (by decide), ?_⟩
  rw [decimalValue, power, Nat.pow_eq, Nat.pow_eq]
  push_cast
  rw [mul_div_assoc]

/-- A number of more than 310 places lies behind the greatest. -/
theorem overflow_le_ten : overflow ≤ 10 ^ (310 : Int) := by
  have powers : (2 ^ 54 - 1) * 2 ^ 970 ≤ 10 ^ 310 := by decide +kernel
  have half : halfUnit = ((2 ^ 970 : Nat) : ℚ) := by
    rw [halfUnit, Nat.cast_pow, ← zpow_natCast]
    rfl
  have ten : (10 : ℚ) ^ (310 : Int) = ((10 ^ 310 : Nat) : ℚ) := by
    rw [Nat.cast_pow, ← zpow_natCast]
    rfl
  have top : ((2 : ℚ) ^ 54 - 1) = ((2 ^ 54 - 1 : Nat) : ℚ) := by norm_num
  rw [overflow, half, ten, top, ← Nat.cast_mul, Nat.cast_le]
  exact powers

/-- A number with 330 zeros behind the point is nearer to zero than to the least. -/
theorem ten_le_underflow : 2 * (10 : ℚ) ^ (-331 : Int) ≤ 2 ^ leastExponent := by
  have powers : 2 * 2 ^ 1074 ≤ 10 ^ 331 := by decide +kernel
  have ten : (10 : ℚ) ^ (-331 : Int) = ((10 ^ 331 : Nat) : ℚ)⁻¹ := by
    rw [zpow_neg, Nat.cast_pow, ← zpow_natCast]
    rfl
  have two : (2 : ℚ) ^ leastExponent = ((2 ^ 1074 : Nat) : ℚ)⁻¹ := by
    rw [leastExponent, zpow_neg, Nat.cast_pow, ← zpow_natCast]
    rfl
  generalize 10 ^ 331 = tens at *
  generalize 2 ^ 1074 = twos at *
  have tenPos : (0 : ℚ) < tens := by
    rw [← inv_pos, ← ten]
    exact ten_pos _
  have twoPos : (0 : ℚ) < twos := by
    rw [← inv_pos, ← two]
    exact unit_pos _
  rw [ten, two]
  rw [← div_eq_mul_inv, div_le_iff₀ tenPos, mul_comm, ← div_eq_mul_inv, le_div_iff₀ twoPos]
  exact_mod_cast powers

theorem decimalValue_low {digits : List Char} (ascii : ∀ c ∈ digits, c.isDigit = true)
    {exponent : Int} (low : digits = [] ∨ digits.length + exponent < -330) :
    2 * decimalValue digits exponent ≤ 2 ^ leastExponent := by
  obtain rfl | low := low
  · rw [decimalValue, ofDigits, List.foldl_nil, Nat.cast_zero, zero_mul, mul_zero]
    exact (unit_pos leastExponent).le
  · have below := decimalValue_lt ascii exponent
    have step : (10 : ℚ) ^ (digits.length + exponent) ≤ 10 ^ (-331 : Int) :=
      zpow_le_zpow_right₀ (by norm_num) (by omega)
    have half := ten_le_underflow
    generalize (10 : ℚ) ^ (-331 : Int) = bound at *
    linarith

theorem decimalValue_high {c : Char} {later : List Char} (digit : c.isDigit = true)
    (first : c ≠ '0') {exponent : Int} (high : 310 < (c :: later).length + exponent) :
    overflow ≤ decimalValue (c :: later) exponent := by
  rw [List.length_cons] at high
  have step : (10 : ℚ) ^ (310 : Int) ≤ 10 ^ (later.length + exponent) :=
    zpow_le_zpow_right₀ (by norm_num) (by omega)
  exact overflow_le_ten.trans (step.trans (le_decimalValue digit first exponent))

/-! ## Reading -/

/-- Digits and a power of ten are read as the number that they are rounded to. -/
theorem rounds_ofDecimal (negative : Bool) {digits : List Char}
    (ascii : ∀ c ∈ digits, c.isDigit = true) (exponent : Int) :
    Rounds negative (decimalValue digits exponent) (ofDecimal negative digits exponent) := by
  have kept : ∀ c ∈ digits.dropWhile (· == '0'), c.isDigit = true := fun c mem =>
    ascii c ((List.dropWhile_sublist _).mem mem)
  have begins : ∀ c ∈ (digits.dropWhile (· == '0')).head?, c ≠ '0' := by
    intro c first
    have stopped := List.head?_dropWhile_not (· == '0') digits
    rw [Option.mem_def.mp first] at stopped
    simpa using stopped
  rw [← decimalValue_dropZeros, ofDecimal]
  generalize digits.dropWhile (· == '0') = significant at *
  obtain ⟨proper, ratio⟩ := decimalValue_ratio significant exponent
  split
  next tiny =>
    have low : significant = [] ∨ significant.length + exponent < -330 := by simpa using tiny
    exact ⟨rfl, isNearest_underflow (decimalValue_nonneg _ _) (decimalValue_low kept low), by decide⟩
  next notTiny =>
    split
    next huge =>
      cases significant with
      | nil => exact (notTiny rfl).elim
      | cons c later =>
        have beyond : overflow ≤ decimalValue (c :: later) exponent :=
          decimalValue_high (kept c List.mem_cons_self) (begins c rfl) huge
        obtain ⟨significand, power, near⟩ := exists_isNearest _ proper
        rw [ratio] at near
        have above : greatestExponent < power := by
          rw [← not_le, near.within_iff, not_lt]
          exact beyond
        exact ⟨rfl, significand, power, near, above⟩
    next =>
      rw [← ratio]
      exact rounds_nearest negative _ proper

end Formwright.Number
