import Formwright.Number.Binary64
import Mathlib.Algebra.Order.Field.Power
import Mathlib.Algebra.Order.Floor.Ring
import Mathlib.Data.Rat.Cast.Order
import Mathlib.Tactic.FieldSimp
import Mathlib.Tactic.Linarith
import Mathlib.Tactic.NormNum
import Mathlib.Tactic.Positivity
import Mathlib.Tactic.Ring

/-!
Rounding of fractions. No number of the format, not even with greater exponents, is nearer to a
fraction than the one it is rounded to, and of two nearest ones it is the one with the even
significand. Fractions from half a unit above the greatest number on are infinite.
-/

namespace Formwright.Binary64

def weight (significand : Nat) (exponent : Int) : ℚ := significand * (2 : ℚ) ^ exponent

/-- The one form of each number, were there no greatest exponent. -/
structure IsNormal (significand : Nat) (exponent : Int) : Prop where
  below : significand < 2 ^ 53
  least : leastExponent ≤ exponent
  filled : leastExponent < exponent → 2 ^ 52 ≤ significand

structure IsNearest (magnitude : ℚ) (significand : Nat) (exponent : Int) : Prop where
  normal : IsNormal significand exponent
  nearest : ∀ other power, IsNormal other power →
    |magnitude - weight significand exponent| ≤ |magnitude - weight other power|
  even : ∀ other power, IsNormal other power →
    weight other power ≠ weight significand exponent →
    |magnitude - weight other power| = |magnitude - weight significand exponent| →
    significand % 2 = 0

def Rounds (negative : Bool) (magnitude : ℚ) : Binary64 → Prop
  | .finite sign significand exponent =>
    sign = negative ∧ IsNearest magnitude significand exponent ∧ exponent ≤ greatestExponent
  | .infinite sign =>
    sign = negative ∧
      ∃ significand exponent, IsNearest magnitude significand exponent ∧ greatestExponent < exponent
  | .notANumber => False

/-! ## Rounding to whole numbers -/

/-- A whole number at most a half away, and even if it is a half. -/
def IsHalfEven (value : ℚ) (rounded : Nat) : Prop :=
  2 * |value - rounded| ≤ 1 ∧ (2 * |value - rounded| = 1 → rounded % 2 = 0)

theorem roundHalfEven_distance (numerator : Nat) {denominator : Nat} (positive : 0 < denominator) :
    let distance := |(numerator : Int) - roundHalfEven numerator denominator * denominator|
    2 * distance ≤ denominator ∧
      (2 * distance = denominator → roundHalfEven numerator denominator % 2 = 0) := by
  intro distance
  have whole := Nat.div_add_mod numerator denominator
  have rest := Nat.mod_lt numerator positive
  have parity := Nat.mod_two_eq_zero_or_one (numerator / denominator)
  simp only [distance, roundHalfEven]
  rw [mul_comm denominator] at whole
  generalize numerator / denominator = floor at *
  generalize numerator % denominator = left at *
  have value : (numerator : Int) = floor * denominator + left := by exact_mod_cast whole.symm
  rw [value]
  split
  next below =>
    have off : (floor * denominator + left - floor * denominator : Int) = left := by ring
    rw [off, abs_of_nonneg (by omega)]
    omega
  next notBelow =>
    split
    next above =>
      have off : (floor * denominator + left - (floor + 1 : Nat) * denominator : Int) =
          left - denominator := by
        push_cast
        ring
      rw [off, abs_of_nonpos (by omega)]
      omega
    next notAbove =>
      -- at a half, the even one of the two neighbours is taken
      have off : (floor * denominator + left - (floor + floor % 2 : Nat) * denominator : Int) =
          left - (floor % 2 : Nat) * denominator := by
        push_cast
        ring
      rw [off]
      obtain even | odd := parity
      · rw [even, Nat.cast_zero, zero_mul, sub_zero, abs_of_nonneg (by omega)]
        omega
      · rw [odd, Nat.cast_one, one_mul, abs_of_nonpos (by omega)]
        omega

theorem isHalfEven_roundHalfEven (numerator : Nat) {denominator : Nat}
    (positive : 0 < denominator) :
    IsHalfEven (numerator / denominator) (roundHalfEven numerator denominator) := by
  obtain ⟨near, tie⟩ := roundHalfEven_distance numerator positive
  generalize roundHalfEven numerator denominator = rounded at *
  have nonzero : (0 : ℚ) < denominator := by exact_mod_cast positive
  have scaled : |(numerator / denominator : ℚ) - rounded| =
      (|(numerator : Int) - rounded * denominator| : Int) / denominator := by
    have quotient : (numerator / denominator : ℚ) - rounded =
        (numerator - rounded * denominator) / denominator := by
      field_simp
    rw [quotient, abs_div, abs_of_pos nonzero]
    push_cast
    rfl
  rw [IsHalfEven, scaled, ← mul_div_assoc, div_le_one nonzero, div_eq_one_iff_eq nonzero.ne']
  exact ⟨by exact_mod_cast near, fun half => tie (by exact_mod_cast half)⟩

theorem IsHalfEven.nearest {value : ℚ} {rounded : Nat} (half : IsHalfEven value rounded) (k : Int) :
    |value - rounded| ≤ |value - k| ∧
      (|value - k| = |value - rounded| → k ≠ rounded → rounded % 2 = 0) := by
  obtain ⟨near, tie⟩ := half
  by_cases same : k = rounded
  · rw [same]
    exact ⟨le_rfl, fun _ other => absurd rfl other⟩
  · have apart : (1 : ℚ) ≤ |(k : ℚ) - rounded| := by
      have steps : 1 ≤ |k - rounded| := Int.one_le_abs (sub_ne_zero.mpr same)
      exact_mod_cast steps
    have triangle := abs_sub_le (k : ℚ) value rounded
    rw [abs_sub_comm (k : ℚ) value] at triangle
    exact ⟨by linarith, fun equal _ => tie (by linarith)⟩

/-! ## The grid of an exponent -/

variable {magnitude : ℚ} {significand : Nat} {exponent : Int}

theorem unit_pos (exponent : Int) : (0 : ℚ) < 2 ^ exponent := zpow_pos (by norm_num) exponent

theorem abs_sub_grid (magnitude : ℚ) (k : ℚ) (exponent : Int) :
    |magnitude - k * 2 ^ exponent| = |magnitude / 2 ^ exponent - k| * 2 ^ exponent := by
  have positive := unit_pos exponent
  conv_rhs => rw [← abs_of_pos positive, ← abs_mul, abs_of_pos positive]
  congr 1
  field_simp

theorem zpow_shift {first second : Int} (order : first ≤ second) :
    (2 : ℚ) ^ second = ((2 ^ (second - first).toNat : Nat) : ℚ) * 2 ^ first := by
  have whole : ((second - first).toNat : Int) = second - first := Int.toNat_of_nonneg (by omega)
  push_cast
  rw [← zpow_natCast, whole, ← zpow_add₀ (by norm_num)]
  congr 1
  ring

theorem weight_on_grid {power : Int} (order : exponent ≤ power) (other : Nat) :
    ∃ k : Nat, weight other power = k * 2 ^ exponent := by
  refine ⟨other * 2 ^ (power - exponent).toNat, ?_⟩
  rw [weight, zpow_shift order]
  push_cast
  ring

/-- What has a smaller exponent lies below the numbers that fill this one. -/
theorem weight_lt_grid {other : Nat} {power : Int} (below : other < 2 ^ 53)
    (order : power < exponent) : weight other power < 2 ^ 52 * 2 ^ exponent := by
  have positive := unit_pos power
  have fewer : (other : ℚ) < 2 ^ 53 := by exact_mod_cast below
  have unit : (2 : ℚ) ^ (power + 1) ≤ 2 ^ exponent :=
    zpow_le_zpow_right₀ (by norm_num) (by omega)
  rw [zpow_add_one₀ (by norm_num)] at unit
  rw [weight]
  nlinarith

/-- A fraction that fills an exponent, or lies below the least one, is nearest to a number of that
exponent. -/
theorem nearest_on_grid {rounded : Nat} (half : IsHalfEven (magnitude / 2 ^ exponent) rounded)
    (filled : leastExponent < exponent → 2 ^ 52 * 2 ^ exponent ≤ magnitude)
    {other : Nat} {power : Int} (normal : IsNormal other power) :
    |magnitude - rounded * 2 ^ exponent| ≤ |magnitude - weight other power| ∧
      (|magnitude - weight other power| = |magnitude - rounded * 2 ^ exponent| →
        weight other power ≠ rounded * 2 ^ exponent → rounded % 2 = 0) := by
  have positive := unit_pos exponent
  have onGrid (k : Int) := half.nearest k
  by_cases order : exponent ≤ power
  · obtain ⟨k, same⟩ := weight_on_grid order other
    obtain ⟨near, tie⟩ := onGrid k
    rw [same, abs_sub_grid, abs_sub_grid]
    refine ⟨mul_le_mul_of_nonneg_right near positive.le, fun equal apart => ?_⟩
    refine tie (mul_right_cancel₀ positive.ne' equal) ?_
    intro whole
    have rational : (k : ℚ) = rounded := by exact_mod_cast whole
    exact apart (by rw [rational])
  · -- the least number that fills the exponent is on the grid, and nearer
    obtain ⟨near, -⟩ := onGrid (2 ^ 52)
    have reaches := filled (lt_of_le_of_lt normal.least (not_le.mp order))
    have lower := weight_lt_grid normal.below (not_le.mp order)
    have between : |magnitude - rounded * 2 ^ exponent| ≤ magnitude - 2 ^ 52 * 2 ^ exponent := by
      rw [← abs_of_nonneg (sub_nonneg.mpr reaches), abs_sub_grid, abs_sub_grid]
      have scaled := mul_le_mul_of_nonneg_right near positive.le
      push_cast at scaled
      exact scaled
    have farther : magnitude - 2 ^ 52 * 2 ^ exponent < |magnitude - weight other power| := by
      have side := le_abs_self (magnitude - weight other power)
      linarith
    exact ⟨by linarith, fun equal => absurd equal (by linarith)⟩

/-! ## The exponent of a fraction -/

variable {numerator denominator : Nat}

theorem scaleDown_ratio (numerator : Nat) (positive : 0 < denominator) (exponent : Int) :
    0 < (scaleDown numerator denominator exponent).2 ∧
      ((scaleDown numerator denominator exponent).1 : ℚ) /
          (scaleDown numerator denominator exponent).2 =
        (numerator / denominator) / 2 ^ exponent := by
  have nonzero : (denominator : ℚ) ≠ 0 := by exact_mod_cast positive.ne'
  have power : (2 : ℚ) ^ exponent = 2 ^ exponent.toNat / 2 ^ (-exponent).toNat := by
    rw [← zpow_natCast, ← zpow_natCast, ← zpow_sub₀ (by norm_num)]
    congr 1
    omega
  refine ⟨Nat.mul_pos positive (Nat.pow_pos (by norm_num)), ?_⟩
  simp only [scaleDown, Nat.pow_eq]
  rw [power]
  push_cast
  field_simp

theorem between_powers (positive : 0 < numerator) :
    (2 : ℚ) ^ (numerator.log2 : Int) ≤ numerator ∧
      (numerator : ℚ) < 2 ^ ((numerator.log2 : Int) + 1) := by
  constructor
  · rw [zpow_natCast]
    exact_mod_cast Nat.log2_self_le positive.ne'
  · have above : numerator < 2 ^ (numerator.log2 + 1) := Nat.lt_log2_self
    exact_mod_cast above

theorem pow_mul_zpow (digits : Nat) (exponent : Int) :
    (2 : ℚ) ^ digits * 2 ^ exponent = 2 ^ ((digits : Int) + exponent) := by
  rw [zpow_add₀ (by norm_num), zpow_natCast]

/-- The lengths of numerator and denominator leave two exponents that a fraction may fill. -/
theorem between_lengths (positive : 0 < numerator) (proper : 0 < denominator) :
    let guess : Int := (numerator.log2 : Int) - (denominator.log2 : Int) - 52
    (2 : ℚ) ^ 51 * 2 ^ guess < numerator / denominator ∧
      (numerator / denominator : ℚ) < 2 ^ 53 * 2 ^ guess := by
  intro guess
  have nonzero : (0 : ℚ) < denominator := by exact_mod_cast proper
  obtain ⟨lowTop, highTop⟩ := between_powers positive
  obtain ⟨lowBottom, highBottom⟩ := between_powers proper
  rw [pow_mul_zpow, pow_mul_zpow, lt_div_iff₀ nonzero, div_lt_iff₀ nonzero]
  constructor
  · calc (2 : ℚ) ^ (((51 : Nat) : Int) + guess) * denominator
        < 2 ^ (((51 : Nat) : Int) + guess) * 2 ^ ((denominator.log2 : Int) + 1) :=
          mul_lt_mul_of_pos_left highBottom (unit_pos _)
      _ = 2 ^ (numerator.log2 : Int) := by
          rw [← zpow_add₀ (by norm_num)]
          congr 1
          omega
      _ ≤ numerator := lowTop
  · calc (numerator : ℚ) < 2 ^ ((numerator.log2 : Int) + 1) := highTop
      _ = 2 ^ (((53 : Nat) : Int) + guess) * 2 ^ (denominator.log2 : Int) := by
          rw [← zpow_add₀ (by norm_num)]
          congr 1
          omega
      _ ≤ 2 ^ (((53 : Nat) : Int) + guess) * denominator :=
          mul_le_mul_of_nonneg_left lowBottom (unit_pos _).le

theorem exponentOf_eq_max (positive : 0 < numerator) (proper : 0 < denominator) :
    ∃ exact : Int, exponentOf numerator denominator = max exact leastExponent ∧
      (2 : ℚ) ^ 52 * 2 ^ exact ≤ numerator / denominator ∧
      (numerator / denominator : ℚ) < 2 ^ 53 * 2 ^ exact := by
  obtain ⟨low, high⟩ := between_lengths positive proper
  simp only [exponentOf]
  generalize (numerator.log2 : Int) - (denominator.log2 : Int) - 52 = guess at *
  obtain ⟨scaledPos, ratio⟩ := scaleDown_ratio numerator proper guess
  generalize (scaleDown numerator denominator guess).1 = top at *
  generalize (scaleDown numerator denominator guess).2 = bottom at *
  have fills : top < 2 ^ 52 * bottom ↔ (numerator / denominator : ℚ) < 2 ^ 52 * 2 ^ guess := by
    have nonzero : (0 : ℚ) < bottom := by exact_mod_cast scaledPos
    rw [← div_lt_iff₀ (unit_pos guess), ← ratio, div_lt_iff₀ nonzero]
    exact_mod_cast Iff.rfl
  refine ⟨_, rfl, ?_⟩
  split
  next below =>
    have half : (2 : ℚ) ^ guess = 2 * 2 ^ (guess - 1) := by
      rw [← zpow_one_add₀ (by norm_num)]
      congr 1
      ring
    have less := fills.mp below
    rw [half] at less low
    constructor
    · linarith
    · linarith
  next notBelow => exact ⟨not_lt.mp (mt fills.mpr notBelow), high⟩

/-- A fraction fills the exponent it is given, unless it lies below what the least one holds. -/
theorem exponentOf_fits (positive : 0 < numerator) (proper : 0 < denominator) :
    let exponent := exponentOf numerator denominator
    leastExponent ≤ exponent ∧ (numerator / denominator : ℚ) < 2 ^ 53 * 2 ^ exponent ∧
      (leastExponent < exponent → (2 : ℚ) ^ 52 * 2 ^ exponent ≤ numerator / denominator) := by
  obtain ⟨exact, same, low, high⟩ := exponentOf_eq_max positive proper
  intro exponent
  rw [show exponent = _ from same]
  refine ⟨le_max_right _ _, ?_, ?_⟩
  · have unit : (2 : ℚ) ^ exact ≤ 2 ^ max exact leastExponent :=
      zpow_le_zpow_right₀ (by norm_num) (le_max_left _ _)
    linarith
  · intro above
    rw [max_eq_left (by omega)]
    exact low

/-! ## Rounding of fractions -/

/-- A significand that has come to 53 digits is written with the next exponent. -/
theorem isNearest_of_grid {rounded : Nat} (half : IsHalfEven (magnitude / 2 ^ exponent) rounded)
    (least : leastExponent ≤ exponent) (fits : magnitude < 2 ^ 53 * 2 ^ exponent)
    (filled : leastExponent < exponent → 2 ^ 52 * 2 ^ exponent ≤ magnitude) :
    IsNearest magnitude (if rounded = 2 ^ 53 then 2 ^ 52 else rounded)
      (if rounded = 2 ^ 53 then exponent + 1 else exponent) := by
  have positive := unit_pos exponent
  have near : |magnitude / 2 ^ exponent - rounded| ≤ 1 / 2 := by linarith [half.1]
  obtain ⟨below, above⟩ := abs_le.mp near
  have most : rounded ≤ 2 ^ 53 := by
    have ratio : magnitude / 2 ^ exponent < 2 ^ 53 := (div_lt_iff₀ positive).mpr fits
    have bound : (rounded : ℚ) < 2 ^ 53 + 1 := by linarith
    exact_mod_cast Nat.lt_add_one_iff.mp (by exact_mod_cast bound)
  have enough (above : leastExponent < exponent) : 2 ^ 52 ≤ rounded := by
    have ratio : 2 ^ 52 ≤ magnitude / 2 ^ exponent := (le_div_iff₀ positive).mpr (filled above)
    have bound : (2 ^ 52 : ℚ) < rounded + 1 := by linarith
    exact Nat.lt_add_one_iff.mp (by exact_mod_cast bound)
  have onGrid {other : Nat} {power : Int} (normal : IsNormal other power) :=
    nearest_on_grid half filled normal
  split
  next full =>
    have same : weight (2 ^ 52) (exponent + 1) = rounded * 2 ^ exponent := by
      rw [weight, full, zpow_add_one₀ (by norm_num)]
      push_cast
      ring
    refine ⟨⟨by norm_num, by omega, fun _ => le_rfl⟩, ?_, fun _ _ _ _ _ => by norm_num⟩
    intro other power normal
    rw [same]
    exact (onGrid normal).1
  next notFull =>
    refine ⟨⟨by omega, least, enough⟩, fun other power normal => (onGrid normal).1, ?_⟩
    exact fun other power normal apart equal => (onGrid normal).2 equal apart

theorem weight_ge_least {other : Nat} {power : Int} (least : leastExponent ≤ power)
    (nonzero : other ≠ 0) : (2 : ℚ) ^ leastExponent ≤ weight other power := by
  have one : (1 : ℚ) ≤ other := by exact_mod_cast Nat.one_le_iff_ne_zero.mpr nonzero
  have unit : (2 : ℚ) ^ leastExponent ≤ 2 ^ power := zpow_le_zpow_right₀ (by norm_num) least
  have positive := unit_pos power
  calc (2 : ℚ) ^ leastExponent ≤ 1 * 2 ^ power := by rw [one_mul]; exact unit
    _ ≤ other * 2 ^ power := mul_le_mul_of_nonneg_right one positive.le

/-- What is not above half of the least number is rounded to zero. -/
theorem isNearest_underflow (nonneg : 0 ≤ magnitude) (low : 2 * magnitude ≤ 2 ^ leastExponent) :
    IsNearest magnitude 0 leastExponent := by
  refine ⟨⟨by norm_num, le_rfl, fun above => absurd above (lt_irrefl _)⟩, ?_, fun _ _ _ _ _ => rfl⟩
  intro other power normal
  have zero : weight 0 leastExponent = 0 := by rw [weight, Nat.cast_zero, zero_mul]
  rw [zero, sub_zero, abs_of_nonneg nonneg]
  by_cases none : other = 0
  · rw [none, weight, Nat.cast_zero, zero_mul, sub_zero]
    exact le_abs_self magnitude
  · have reaches := weight_ge_least normal.least none
    rw [abs_sub_comm]
    have side := le_abs_self (weight other power - magnitude)
    linarith

theorem rounds_nearest (negative : Bool) (numerator : Nat) (proper : 0 < denominator) :
    Rounds negative (numerator / denominator) (nearest negative numerator denominator) := by
  rw [nearest]
  split
  next zero =>
    rw [zero, Nat.cast_zero, zero_div]
    exact ⟨rfl, isNearest_underflow le_rfl (by simpa using (unit_pos leastExponent).le), by decide⟩
  next nonzero =>
    obtain ⟨least, fits, filled⟩ := exponentOf_fits (Nat.pos_of_ne_zero nonzero) proper
    generalize exponentOf numerator denominator = exponent at *
    obtain ⟨scaledPos, ratio⟩ := scaleDown_ratio numerator proper exponent
    have half := isHalfEven_roundHalfEven (scaleDown numerator denominator exponent).1 scaledPos
    rw [ratio] at half
    have rounded := isNearest_of_grid half least fits filled
    simp only [Nat.pow_eq]
    generalize roundHalfEven _ _ = whole at *
    have carried : (if whole = 2 ^ 53 then (2 ^ 52, exponent + 1) else (whole, exponent)) =
        (if whole = 2 ^ 53 then 2 ^ 52 else whole,
          if whole = 2 ^ 53 then exponent + 1 else exponent) := by
      split <;> rfl
    rw [carried]
    generalize (if whole = 2 ^ 53 then 2 ^ 52 else whole) = significand at *
    generalize (if whole = 2 ^ 53 then exponent + 1 else exponent) = power at *
    dsimp only
    split
    next beyond => exact ⟨rfl, _, _, rounded, beyond⟩
    next fine => exact ⟨rfl, rounded, not_lt.mp fine⟩

theorem exists_isNearest (numerator : Nat) (proper : 0 < denominator) :
    ∃ significand exponent, IsNearest (numerator / denominator) significand exponent := by
  have rounds := rounds_nearest false numerator proper
  cases number : nearest false numerator denominator with
  | finite sign significand exponent =>
    rw [number] at rounds
    exact ⟨significand, exponent, rounds.2.1⟩
  | infinite sign =>
    rw [number] at rounds
    obtain ⟨_, significand, exponent, near, _⟩ := rounds
    exact ⟨significand, exponent, near⟩
  | notANumber =>
    rw [number] at rounds
    exact rounds.elim

/-! ## The ends of the format -/

def halfUnit : ℚ := 2 ^ (greatestExponent - 1)

def overflow : ℚ := (2 ^ 54 - 1) * halfUnit

theorem halfUnit_pos : 0 < halfUnit := unit_pos _

theorem isNormal_greatest : IsNormal (2 ^ 53 - 1) greatestExponent :=
  ⟨by norm_num, by decide, fun _ => by norm_num⟩

theorem isNormal_beyond : IsNormal (2 ^ 52) (greatestExponent + 1) :=
  ⟨by norm_num, by decide, fun _ => le_rfl⟩

theorem weight_greatest : weight (2 ^ 53 - 1) greatestExponent = overflow - halfUnit := by
  have unit : (2 : ℚ) ^ greatestExponent = 2 * halfUnit := by
    rw [halfUnit, ← zpow_one_add₀ (by norm_num)]
    congr 1
  rw [weight, unit, overflow]
  generalize halfUnit = half
  push_cast
  ring

theorem weight_beyond : weight (2 ^ 52) (greatestExponent + 1) = overflow + halfUnit := by
  have unit : (2 : ℚ) ^ (greatestExponent + 1) = 4 * halfUnit := by
    have four : (4 : ℚ) = 2 ^ (2 : Int) := by norm_num
    rw [halfUnit, four, ← zpow_add₀ (by norm_num)]
    congr 1
  rw [weight, unit, overflow]
  generalize halfUnit = half
  push_cast
  ring

theorem weight_le_greatest (below : significand < 2 ^ 53) (within : exponent ≤ greatestExponent) :
    weight significand exponent ≤ weight (2 ^ 53 - 1) greatestExponent := by
  have most : (significand : ℚ) ≤ (2 ^ 53 - 1 : Nat) := by exact_mod_cast Nat.le_sub_one_of_lt below
  have unit : (2 : ℚ) ^ exponent ≤ 2 ^ greatestExponent := zpow_le_zpow_right₀ (by norm_num) within
  exact mul_le_mul most unit (unit_pos exponent).le (by positivity)

theorem weight_beyond_le (enough : 2 ^ 52 ≤ significand) (beyond : greatestExponent < exponent) :
    weight (2 ^ 52) (greatestExponent + 1) ≤ weight significand exponent := by
  have least : ((2 ^ 52 : Nat) : ℚ) ≤ significand := by exact_mod_cast enough
  have unit : (2 : ℚ) ^ (greatestExponent + 1) ≤ 2 ^ exponent :=
    zpow_le_zpow_right₀ (by norm_num) beyond
  exact mul_le_mul least unit (unit_pos _).le (by positivity)

/-- Only the greatest number has its weight, and its significand is odd. -/
theorem odd_of_weight_greatest (below : significand < 2 ^ 53) (within : exponent ≤ greatestExponent)
    (same : weight significand exponent = weight (2 ^ 53 - 1) greatestExponent) :
    significand = 2 ^ 53 - 1 := by
  by_contra other
  have fewer : (significand : ℚ) < (2 ^ 53 - 1 : Nat) := by
    have less : significand < 2 ^ 53 - 1 := by omega
    exact_mod_cast less
  have unit : (2 : ℚ) ^ exponent ≤ 2 ^ greatestExponent := zpow_le_zpow_right₀ (by norm_num) within
  have smaller : weight significand exponent < weight (2 ^ 53 - 1) greatestExponent :=
    calc (significand : ℚ) * 2 ^ exponent ≤ significand * 2 ^ greatestExponent :=
          mul_le_mul_of_nonneg_left unit (Nat.cast_nonneg _)
      _ < ((2 ^ 53 - 1 : Nat) : ℚ) * 2 ^ greatestExponent :=
          mul_lt_mul_of_pos_right fewer (unit_pos _)
  exact smaller.ne same

/-- A fraction below the overflow is rounded to a number of the format, and no other is. -/
theorem IsNearest.within_iff (near : IsNearest magnitude significand exponent) :
    exponent ≤ greatestExponent ↔ magnitude < overflow := by
  have half := halfUnit_pos
  have last := near.nearest _ _ isNormal_greatest
  have next := near.nearest _ _ isNormal_beyond
  rw [weight_greatest] at last
  rw [weight_beyond] at next
  constructor
  · intro within
    by_contra reaches
    have above : overflow ≤ magnitude := not_lt.mp reaches
    have lower := weight_le_greatest near.normal.below within
    rw [weight_greatest] at lower
    have left : |magnitude - weight significand exponent| =
        magnitude - weight significand exponent := abs_of_nonneg (by linarith)
    rw [left] at next
    -- only the tie of the two neighbours is left, and the lower one is odd
    have tie : magnitude = overflow := by
      by_cases behind : magnitude ≤ overflow + halfUnit
      · rw [abs_of_nonpos (by linarith)] at next
        linarith
      · rw [abs_of_nonneg (by linarith)] at next
        linarith
    have greatest : weight significand exponent = weight (2 ^ 53 - 1) greatestExponent := by
      rw [tie, abs_of_nonpos (by linarith)] at next
      rw [weight_greatest]
      linarith
    have odd := odd_of_weight_greatest near.normal.below within greatest
    have even : significand % 2 = 0 := by
      apply near.even _ _ isNormal_beyond
      · rw [greatest, weight_greatest, weight_beyond]
        linarith
      · rw [left, weight_beyond, greatest, weight_greatest, tie, abs_of_nonpos (by linarith)]
        ring
    omega
  · intro below
    by_contra outside
    have beyond : greatestExponent < exponent := not_le.mp outside
    have upper := weight_beyond_le (near.normal.filled (lt_trans (by decide) beyond)) beyond
    rw [weight_beyond] at upper
    rw [abs_of_nonpos (by linarith)] at last
    by_cases above : overflow - halfUnit ≤ magnitude
    · rw [abs_of_nonneg (by linarith)] at last
      linarith
    · rw [abs_of_nonpos (by linarith)] at last
      linarith

theorem Rounds.isFinite_iff {negative : Bool} {number : Binary64}
    (rounds : Rounds negative magnitude number) : number.isFinite = true ↔ magnitude < overflow := by
  cases number with
  | finite sign significand exponent =>
    obtain ⟨-, near, within⟩ := rounds
    exact iff_of_true rfl (near.within_iff.mp within)
  | infinite sign =>
    obtain ⟨-, significand, exponent, near, beyond⟩ := rounds
    exact iff_of_false Bool.false_ne_true (mt near.within_iff.mpr (not_le.mpr beyond))
  | notANumber => exact rounds.elim

end Formwright.Binary64
