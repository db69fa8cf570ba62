import Formwright.Text.Substitution

/-!
The replacement of every occurrence of a text, read from the front: an occurrence at the start is
replaced, and a character with which none begins is kept.
-/

namespace Formwright.Text

theorem getLast?_cons_or (c : Char) (before : List Char) (previous : Option Char) :
    (c :: before).getLast?.or previous = before.getLast?.or (some c) := by
  rw [List.getLast?_cons]
  cases before.getLast? <;> rfl

/-- The rest of a match is passed over. -/
theorem replaceMatches_skip {find : Matcher} {replacement : List Char} (skip : Nat)
    (previous : Option Char) (text : List Char) :
    replaceMatches find replacement skip previous text =
      replaceMatches find replacement 0 ((text.take skip).getLast?.or previous)
        (text.drop skip) := by
  induction skip generalizing previous text with
  | zero => rfl
  | succ skip ih =>
    cases text with
    | nil => rfl
    | cons c rest =>
      rw [replaceMatches, ih, List.take_succ_cons, getLast?_cons_or, List.drop_succ_cons]

/-- A pattern that does not look back finds the same behind every character. -/
theorem replaceMatches_behind {find : Matcher} {replacement : List Char}
    (forward : ∀ first second text, find first text = find second text) (skip : Nat)
    (first second : Option Char) (text : List Char) :
    replaceMatches find replacement skip first text =
      replaceMatches find replacement skip second text := by
  cases text with
  | nil => rw [replaceMatches, replaceMatches]
  | cons c rest =>
    cases skip with
    | zero => rw [replaceMatches, replaceMatches, forward first second]
    | succ skip => rw [replaceMatches, replaceMatches]

theorem replaceAll_append {old : List Char} (filled : old ≠ []) (new rest : List Char) :
    replaceAll old new (old ++ rest) = new ++ replaceAll old new rest := by
  cases old with
  | nil => exact absurd rfl filled
  | cons c later =>
    have starts : (c :: later).isPrefixOf (c :: (later ++ rest)) = true :=
      List.isPrefixOf_iff_prefix.mpr (List.prefix_append (c :: later) rest)
    rw [List.cons_append, replaceAll, replaceMatches, if_pos starts, List.length_cons]
    dsimp only
    rw [replaceMatches_skip, List.drop_left]
    exact congrArg _ (replaceMatches_behind (fun _ _ _ => rfl) 0 _ none rest)

theorem replaceAll_cons {old : List Char} {c : Char} {rest : List Char} (new : List Char)
    (apart : ¬old <+: c :: rest) :
    replaceAll old new (c :: rest) = c :: replaceAll old new rest := by
  have starts : ¬old.isPrefixOf (c :: rest) = true := mt List.isPrefixOf_iff_prefix.mp apart
  rw [replaceAll, replaceMatches, if_neg starts]
  exact congrArg _ (replaceMatches_behind (fun _ _ _ => rfl) 0 _ none rest)

/-- Single characters are replaced one by one. -/
theorem replaceAll_singleton (old : Char) (new text : List Char) :
    replaceAll [old] new text = text.flatMap fun c => if c = old then new else [c] := by
  induction text with
  | nil => rfl
  | cons c rest ih =>
    rw [List.flatMap_cons, ← ih]
    by_cases same : c = old
    · rw [if_pos same, same]
      exact replaceAll_append (List.cons_ne_nil old []) new rest
    · have apart : ¬[old] <+: c :: rest := fun starts =>
        same (List.cons_prefix_cons.mp starts).1.symm
      rw [if_neg same, replaceAll_cons new apart, List.singleton_append]

end Formwright.Text
