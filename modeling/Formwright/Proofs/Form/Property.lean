import Formwright.Form.Property

/-!
Values that are read off a text.
-/

namespace Formwright

theorem isFinite_of_ofText {raw : String} {n : Binary64}
    (isNumber : PropertyValue.ofText raw = .number n) : n.isFinite = true := by
  have kept {raw : String} (read : PropertyValue.finiteOrText raw = .number n) :
      n.isFinite = true := by
    rw [PropertyValue.finiteOrText] at read
    split at read
    next =>
      split at read
      next finite =>
        cases read
        exact finite
      next => cases read
    next => cases read
  rw [PropertyValue.ofText] at isNumber
  split at isNumber
  next => cases isNumber
  next =>
    split at isNumber
    next => cases isNumber
    next =>
      split at isNumber
      next =>
        split at isNumber
        next => cases isNumber
        next => exact kept isNumber
      next =>
        split at isNumber
        next => exact kept isNumber
        next => cases isNumber

end Formwright
