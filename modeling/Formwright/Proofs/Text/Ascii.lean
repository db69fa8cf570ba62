import Formwright.Text.Classes

/-!
ASCII characters, which are few enough to look at each, and ASCII letters in their two cases.
-/

namespace Formwright.Text

theorem forall_ascii {motive : Char → Prop} (table : ∀ code < 128, motive (Char.ofNat code))
    {c : Char} (ascii : c.toNat < 128) : motive c := by
  have looked := table c.toNat ascii
  rwa [Char.ofNat_toNat] at looked

theorem toNat_of_isDigit {c : Char} (digit : c.isDigit = true) : 48 ≤ c.toNat ∧ c.toNat ≤ 57 := by
  simp only [Char.isDigit, Bool.and_eq_true, decide_eq_true_eq, UInt32.le_iff_toNat_le] at digit
  exact digit

theorem not_isLower_of_isUpper {c : Char} (upper : c.isUpper = true) : c.isLower = false := by
  delta Char.isUpper at upper
  delta Char.isLower
  simp only [Bool.and_eq_false_iff, decide_eq_true_eq, decide_eq_false_iff_not,
    UInt32.le_iff_toNat_le, ge_iff_le] at upper ⊢
  have last : 'Z'.val.toNat = 90 := rfl
  have first : 'a'.val.toNat = 97 := rfl
  omega

theorem isDecimalDigit_ascii {c : Char} (ascii : c.toNat < 128) : isDecimalDigit c = c.isDigit :=
  forall_ascii (motive := fun c => isDecimalDigit c = c.isDigit) (by decide +kernel) ascii

theorem isDecimalDigit_of_isDigit {c : Char} (digit : c.isDigit = true) :
    isDecimalDigit c = true := by
  have most := (toNat_of_isDigit digit).2
  rw [isDecimalDigit_ascii (by omega), digit]

/-! ## Case -/

theorem isUpper_iff {c : Char} : c.isUpper = true ↔ 65 ≤ c.toNat ∧ c.toNat ≤ 90 := by
  delta Char.isUpper
  simp only [decide_eq_true_eq, ge_iff_le, UInt32.le_iff_toNat_le]
  exact Iff.rfl

theorem toLower_of_not_isUpper {c : Char} (other : c.isUpper = false) : c.toLower = c :=
  dif_neg (of_decide_eq_false other)

theorem toNat_toLower {c : Char} (upper : c.isUpper = true) : c.toLower.toNat = c.toNat + 32 := by
  have most := (isUpper_iff.mp upper).2
  delta Char.toLower
  rw [dif_pos (of_decide_eq_true upper)]
  show (c.val + ('a'.val - 'A'.val)).toNat = c.toNat + 32
  rw [UInt32.toNat_add]
  exact Nat.mod_eq_of_lt (by change c.toNat + 32 < 2 ^ 32; omega)

theorem toLower_of_isDigit {c : Char} (digit : c.isDigit = true) : c.toLower = c := by
  have most := (toNat_of_isDigit digit).2
  apply toLower_of_not_isUpper
  rw [← Bool.not_eq_true, isUpper_iff]
  omega

theorem isUpper_toLower (c : Char) : c.toLower.isUpper = false := by
  cases upper : c.isUpper with
  | false => rw [toLower_of_not_isUpper upper, upper]
  | true =>
    have least := (isUpper_iff.mp upper).1
    rw [← Bool.not_eq_true, isUpper_iff, toNat_toLower upper]
    omega

def SameLetter (c d : Char) : Prop :=
  c = d ∨ (c.isUpper = true ∧ d = c.toLower) ∨ (d.isUpper = true ∧ c = d.toLower)

theorem toLower_eq_iff {c d : Char} : c.toLower = d.toLower ↔ SameLetter c d := by
  constructor
  · intro same
    cases first : c.isUpper <;> cases second : d.isUpper
    · rw [toLower_of_not_isUpper first, toLower_of_not_isUpper second] at same
      exact .inl same
    · rw [toLower_of_not_isUpper first] at same
      exact .inr (.inr ⟨second, same⟩)
    · rw [toLower_of_not_isUpper second] at same
      exact .inr (.inl ⟨first, same.symm⟩)
    · have codes := congrArg Char.toNat same
      rw [toNat_toLower first, toNat_toLower second] at codes
      exact .inl (Char.toNat_inj.mp (Nat.add_right_cancel codes))
  · rintro (rfl | ⟨upper, rfl⟩ | ⟨upper, rfl⟩)
    · rfl
    · exact (toLower_of_not_isUpper (isUpper_toLower c)).symm
    · exact toLower_of_not_isUpper (isUpper_toLower d)

end Formwright.Text
