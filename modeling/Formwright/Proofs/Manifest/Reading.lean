import Formwright.Manifest.Reading

/-!
Manifests that are accepted: those of the right shape that make sense.
-/

namespace Formwright.Manifest

structure Sound (manifest : Manifest) : Prop where
  named : isBlankText manifest.name = false
  markup : manifest.input.markupExtensions ≠ []
  scripts : manifest.input.scriptExtensions ≠ []
  apart : ∀ extension ∈ manifest.input.markupExtensions,
    listsExtension manifest.input.scriptExtensions extension = false
  rules : ∀ entry ∈ manifest.rules,
    isBlankText entry.kind = false ∧ isBlankText entry.component = false

theorem ruleProblem_eq_none {entry : RuleEntry} {number : Nat} :
    ruleProblem entry number = none ↔
      isBlankText entry.kind = false ∧ isBlankText entry.component = false := by
  rw [ruleProblem]
  cases isBlankText entry.kind <;> cases isBlankText entry.component <;> simp

theorem rulesProblem_eq_none {number : Nat} {entries : List RuleEntry} :
    rulesProblem number entries = none ↔ ∀ entry ∈ entries,
      isBlankText entry.kind = false ∧ isBlankText entry.component = false := by
  induction entries generalizing number with
  | nil => simp [rulesProblem]
  | cons entry later ih =>
    rw [rulesProblem, Option.or_eq_none_iff, ruleProblem_eq_none, ih, List.forall_mem_cons]

theorem problem?_eq_none {manifest : Manifest} : problem? manifest = none ↔ Sound manifest := by
  unfold problem?
  dsimp only
  constructor
  · intro sound
    split at sound
    next => cases sound
    next named =>
      split at sound
      next => cases sound
      next markup =>
        split at sound
        next => cases sound
        next scripts =>
          split at sound
          next => cases sound
          next apart =>
            rw [List.isEmpty_iff] at markup scripts
            refine ⟨Bool.eq_false_iff.mpr named, markup, scripts, ?_,
              rulesProblem_eq_none.mp sound⟩
            intro extension mem
            exact Bool.eq_false_iff.mpr (List.find?_eq_none.mp apart extension mem)
  · intro sound
    have apart : manifest.input.markupExtensions.find?
        (listsExtension manifest.input.scriptExtensions) = none := by
      rw [List.find?_eq_none]
      intro extension mem
      rw [sound.apart extension mem]
      exact Bool.false_ne_true
    rw [sound.named, List.isEmpty_eq_false_iff.mpr sound.markup,
      List.isEmpty_eq_false_iff.mpr sound.scripts, apart]
    exact rulesProblem_eq_none.mpr sound.rules

theorem read_eq_ok {document : String} {manifest : Manifest} :
    read document = .ok manifest ↔
      ∃ entries, Toml.read document = some entries ∧ ofDocument entries = .ok manifest ∧
        Sound manifest := by
  unfold read
  constructor
  · intro taken
    split at taken
    next => cases taken
    next entries parsed =>
      split at taken
      next => cases taken
      next found shaped =>
        split at taken
        next => cases taken
        next sound =>
          cases taken
          exact ⟨entries, parsed, shaped, problem?_eq_none.mp sound⟩
  · rintro ⟨entries, parsed, shaped, sound⟩
    rw [parsed]
    dsimp only
    rw [shaped]
    dsimp only
    rw [problem?_eq_none.mpr sound]

end Formwright.Manifest
