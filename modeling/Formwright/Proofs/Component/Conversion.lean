import Formwright.Component.Conversion
import Formwright.Proofs.Component.Rendering

/-!
What the forms of a batch give. Each form gives its unit or its error without regard to the others,
and one look through its elements tells which of the two.
-/

namespace Formwright.Component

open Mapping

variable (table : Table) (options : Options) (handlers : Entries String)

/-! ## Batches -/

theorem Outcome.append_assoc (first second third : Outcome) :
    (first.append second).append third = first.append (second.append third) := by
  simp only [Outcome.append, List.append_assoc]

theorem foldl_append (start : Outcome) (forms : List Form) :
    forms.foldl (fun outcome form => outcome.append (convertForm table options handlers form))
        start =
      start.append (convertBatch table options ⟨forms, handlers, []⟩) := by
  rw [convertBatch]
  show _ = start.append (forms.foldl _ (skippedOutcome []))
  induction forms generalizing start with
  | nil => simp [Outcome.append, skippedOutcome]
  | cons form later ih =>
    rw [List.foldl_cons, List.foldl_cons, ih, ih ((skippedOutcome []).append _),
      Outcome.append_assoc]
    simp [Outcome.append, skippedOutcome]

/-- The inputs that were skipped only put their warnings before those of the forms. -/
theorem convertBatch_skipped (forms : List Form) (skipped : List Skipped) :
    convertBatch table options ⟨forms, handlers, skipped⟩ =
      (skippedOutcome skipped).append (convertBatch table options ⟨forms, handlers, []⟩) :=
  foldl_append table options handlers (skippedOutcome skipped) forms

theorem convertBatch_split (first second : List Form) (skipped : List Skipped) :
    convertBatch table options ⟨first ++ second, handlers, skipped⟩ =
      ((skippedOutcome skipped).append (convertBatch table options ⟨first, handlers, []⟩)).append
        (convertBatch table options ⟨second, handlers, []⟩) := by
  rw [← convertBatch_skipped, ← foldl_append, convertBatch, List.foldl_append]
  rfl

theorem convertBatch_single (form : Form) :
    convertBatch table options ⟨[form], handlers, []⟩ =
      convertForm table options handlers form := by
  show (skippedOutcome []).append (convertForm table options handlers form) = _
  simp [Outcome.append, skippedOutcome]

/-- A form gives a unit, if it can be rendered, and if not, the cause as an error under its id. -/
theorem convertForm_cases (form : Form) :
    failure (renderForm ⟨table, handlers, form.id⟩ form) = none ∧
        (∃ unit, (convertForm table options handlers form).units = [unit] ∧
          (convertForm table options handlers form).errors = []) ∨
      ∃ cause, failure (renderForm ⟨table, handlers, form.id⟩ form) = some cause ∧
        (convertForm table options handlers form).units = [] ∧
        (convertForm table options handlers form).errors = [⟨form.id, cause⟩] := by
  unfold convertForm failure
  generalize (renderForm ⟨table, handlers, form.id⟩ form).run.run {} = ended
  obtain ⟨result, trace⟩ := ended
  cases result with
  | ok rendered => exact .inl ⟨rfl, _, rfl, rfl⟩
  | error cause => exact .inr ⟨cause, rfl, rfl, rfl⟩

theorem frames_renderRoot (setting : Setting) (form : Form) (nested : List String) :
    Frames (renderRoot setting form nested) := by
  rw [renderRoot]
  split
  next => exact frames_bind (frames_useComponent _) fun _ => frames_pure _
  next => exact frames_pure _

theorem frames_renderForm (setting : Setting) (form : Form) : Frames (renderForm setting form) := by
  -- the equation of the definition would have to evaluate the name
  delta renderForm
  split
  next => exact frames_throw _
  next name _ =>
    apply frames_bind (frames_renderTrees setting 1 form.elements)
    intro nested
    exact frames_bind (frames_renderRoot setting form nested) fun _ => frames_pure _

theorem length_of_convertBatch (forms : List Form) (skipped : List Skipped) :
    (convertBatch table options ⟨forms, handlers, skipped⟩).units.length +
      (convertBatch table options ⟨forms, handlers, skipped⟩).errors.length = forms.length := by
  induction forms generalizing skipped with
  | nil => rfl
  | cons form later ih =>
    have split := convertBatch_split table options handlers [form] later skipped
    rw [List.singleton_append, convertBatch_single] at split
    have ih := ih []
    rw [split]
    simp only [Outcome.append, skippedOutcome, List.nil_append, List.length_append,
      List.length_cons]
    obtain ⟨_, unit, units, errors⟩ | ⟨cause, _, units, errors⟩ :=
      convertForm_cases table options handlers form
    next =>
      rw [units, errors, List.length_singleton, List.length_nil]
      omega
    next =>
      rw [units, errors, List.length_singleton, List.length_nil]
      omega

/-- Every form adds what it gives when it is the only one. -/
theorem convertBatch_flatMap (forms : List Form) (skipped : List Skipped) :
    (convertBatch table options ⟨forms, handlers, skipped⟩).units =
        forms.flatMap (fun form => (convertBatch table options ⟨[form], handlers, []⟩).units) ∧
      (convertBatch table options ⟨forms, handlers, skipped⟩).errors =
        forms.flatMap fun form => (convertBatch table options ⟨[form], handlers, []⟩).errors := by
  induction forms generalizing skipped with
  | nil => exact ⟨rfl, rfl⟩
  | cons form later ih =>
    obtain ⟨units, errors⟩ := ih []
    have split := convertBatch_split table options handlers [form] later skipped
    rw [List.singleton_append] at split
    rw [split, List.flatMap_cons, List.flatMap_cons, ← units, ← errors]
    simp only [Outcome.append, skippedOutcome, List.nil_append, and_self]

/-- Forms are converted on their own. A batch gives what its parts give when each is converted
alone, in order, a form gives one unit if it can be rendered and otherwise the cause as one error
under its id and nothing else, and nothing that was rendered before changes what a form gives. -/
theorem forms_are_independent (first second : List Form) (skipped : List Skipped) :
    let alone (forms : List Form) := convertBatch table options ⟨forms, handlers, []⟩
    let whole := convertBatch table options ⟨first ++ second, handlers, skipped⟩
    (whole.units = (alone first).units ++ (alone second).units ∧
      whole.errors = (alone first).errors ++ (alone second).errors ∧
      whole.warnings =
        skipped.map (fun input => .skipped input.file input.message) ++
          ((alone first).warnings ++ (alone second).warnings)) ∧
    whole.units.length + whole.errors.length = (first ++ second).length ∧
    (whole.units = (first ++ second).flatMap (fun form => (alone [form]).units) ∧
      whole.errors = (first ++ second).flatMap fun form => (alone [form]).errors) ∧
    (∀ form, match failure (renderForm ⟨table, handlers, form.id⟩ form) with
      | none => ∃ unit, (alone [form]).units = [unit] ∧ (alone [form]).errors = []
      | some cause => (alone [form]).units = [] ∧ (alone [form]).errors = [⟨form.id, cause⟩]) ∧
    (whole.success = true ↔ whole.errors = []) ∧
    ∀ form trace,
      (renderForm ⟨table, handlers, form.id⟩ form).run.run trace =
        (((renderForm ⟨table, handlers, form.id⟩ form).run.run {}).1,
          trace.append ((renderForm ⟨table, handlers, form.id⟩ form).run.run {}).2) := by
  intro alone whole
  have split : whole = ((skippedOutcome skipped).append (alone first)).append (alone second) :=
    convertBatch_split table options handlers first second skipped
  refine ⟨?_, length_of_convertBatch table options handlers _ skipped,
    convertBatch_flatMap table options handlers _ skipped, ?_, ?_, ?_⟩
  next =>
    rw [split]
    refine ⟨rfl, rfl, ?_⟩
    exact List.append_assoc ..
  next =>
    intro form
    have single : alone [form] = convertForm table options handlers form :=
      convertBatch_single table options handlers form
    have cases := convertForm_cases table options handlers form
    generalize failure (renderForm ⟨table, handlers, form.id⟩ form) = verdict at cases ⊢
    cases verdict with
    | none =>
      obtain ⟨_, given⟩ | ⟨_, met, _⟩ := cases
      next =>
        rw [single]
        exact given
      next => cases met
    | some cause =>
      obtain ⟨rendered, _⟩ | ⟨_, met, given⟩ := cases
      next => cases rendered
      next =>
        cases met
        rw [single]
        exact given
  next => exact List.isEmpty_iff
  next => exact fun form => frames_renderForm ⟨table, handlers, form.id⟩ form

/-! ## Verdicts -/

def obstacle (form : Form) : Option RenderError :=
  match unitName form with
  | none => some (.unusableName (nameSource form))
  | some _ => (visitedTrees table 1 form.elements).findSome? fault

theorem failure_renderRoot (setting : Setting) (form : Form) (nested : List String) :
    failure (renderRoot setting form nested) = none := by
  rw [renderRoot]
  split
  next => exact failure_after rfl (frames_pure _)
  next => rfl

theorem failure_renderForm (setting : Setting) (form : Form) :
    failure (renderForm setting form) = obstacle setting.table form := by
  delta renderForm obstacle
  cases unitName form with
  | none => rfl
  | some name =>
    have reached : 1 ≤ elementDepthLimit + 1 := by decide
    rw [← failure_renderTrees setting reached form.elements]
    have framed (nested : List String) :
        Frames (renderRoot setting form nested >>= fun tree => pure (name, tree)) :=
      frames_bind (frames_renderRoot setting form nested) fun _ => frames_pure _
    have silent (nested : List String) :
        failure (renderRoot setting form nested >>= fun tree => pure (name, tree)) = none := by
      rw [failure_map, failure_renderRoot]
    rw [failure_bind framed silent, Option.or_none]

theorem errors_of_convertForm (form : Form) :
    (convertForm table options handlers form).errors =
      ((obstacle table form).map fun cause => ⟨form.id, cause⟩).toList := by
  rw [← failure_renderForm ⟨table, handlers, form.id⟩ form]
  unfold convertForm failure
  generalize (renderForm ⟨table, handlers, form.id⟩ form).run.run {} = ended
  obtain ⟨result, trace⟩ := ended
  cases result <;> rfl

theorem exists_unit {form : Form} (clear : obstacle table form = none) :
    ∃ unit, (convertForm table options handlers form).units = [unit] := by
  obtain ⟨_, unit, units, _⟩ | ⟨cause, _, _, failed⟩ := convertForm_cases table options handlers form
  next => exact ⟨unit, units⟩
  next =>
    rw [errors_of_convertForm, clear] at failed
    cases failed

theorem obstacle_eq_none (form : Form) :
    obstacle table form = none ↔
      (unitName form).isSome = true ∧
        ∀ place ∈ visitedTrees table 1 form.elements,
          place.2.kind.isSome = true ∧ place.1 ≤ elementDepthLimit := by
  rw [← findSome?_fault_eq_none]
  delta obstacle
  cases unitName form <;> simp

theorem convertForm_pruned (form : Form) :
    convertForm table options handlers { form with elements := pruneTrees table 1 form.elements } =
      convertForm table options handlers form := by
  have same : renderForm ⟨table, handlers, form.id⟩
      { form with elements := pruneTrees table 1 form.elements } =
        renderForm ⟨table, handlers, form.id⟩ form := by
    have trees := renderTrees_pruneTrees ⟨table, handlers, form.id⟩ 1 form.elements
    have source : nameSource { form with elements := pruneTrees table 1 form.elements } =
        nameSource form := by
      simp only [nameSource]
    have name : unitName { form with elements := pruneTrees table 1 form.elements } =
        unitName form := by
      delta unitName
      rw [source]
    have root (nested : List String) :
        renderRoot ⟨table, handlers, form.id⟩
            { form with elements := pruneTrees table 1 form.elements } nested =
          renderRoot ⟨table, handlers, form.id⟩ form nested := by
      simp only [renderRoot]
    delta renderForm
    simp only [trees, source, name, root]
  unfold convertForm
  rw [same]

/-- A form gives a unit exactly when its name can be used and every element that is looked at has a
kind and lies within 256 levels. If not, the error is the first obstacle: the name, or else the first
element that lies at level 257, with a kind or without, or that has none. What lies deeper or below an
element without a rule has no part in the outcome. -/
theorem form_verdict (form : Form) :
    let outcome := convertForm table options handlers form
    let visited := visitedTrees table 1 form.elements
    ((∃ unit, outcome.units = [unit]) ↔
      (unitName form).isSome = true ∧
        ∀ place ∈ visited, place.2.kind.isSome = true ∧ place.1 ≤ 256) ∧
    (outcome.errors =
      match unitName form with
      | none => [⟨form.id, .unusableName (nameSource form)⟩]
      | some _ => ((visited.findSome? fault).map fun cause => ⟨form.id, cause⟩).toList) ∧
    (∀ depth element, fault (depth, element) =
      if depth = 257 then some (.tooDeep element.id 256)
      else if element.kind.isNone then some (.missingKind element.id) else none) ∧
    (outcome.errors = [] ∨ outcome.units = [] ∧ ∃ error, outcome.errors = [error]) ∧
    convertForm table options handlers { form with elements := pruneTrees table 1 form.elements } =
      outcome := by
  intro outcome visited
  have errors := errors_of_convertForm table options handlers form
  have cases := convertForm_cases table options handlers form
  refine ⟨?_, ?_, fun _ _ => rfl, ?_, convertForm_pruned table options handlers form⟩
  next =>
    refine Iff.trans ?_ (obstacle_eq_none table form)
    obtain ⟨_, unit, units, none⟩ | ⟨cause, _, units, failed⟩ := cases
    next =>
      rw [errors] at none
      have clear : obstacle table form = Option.none := by simpa using none
      exact iff_of_true ⟨unit, units⟩ clear
    next =>
      have obstructed : obstacle table form ≠ none := by
        intro clear
        rw [errors, clear] at failed
        cases failed
      have noUnit : ¬∃ unit, outcome.units = [unit] := by
        rintro ⟨unit, given⟩
        rw [units] at given
        cases given
      exact iff_of_false noUnit obstructed
  next =>
    rw [show outcome.errors = _ from errors]
    delta obstacle
    cases unitName form <;> rfl
  next =>
    obtain ⟨_, _, _, none⟩ | ⟨cause, _, units, failed⟩ := cases
    next => exact .inl none
    next => exact .inr ⟨units, _, failed⟩

/-! ## Units -/

theorem unit_of_convertForm {form : Form} {unit : CodeUnit}
    (given : (convertForm table options handlers form).units = [unit]) :
    ∃ rendered trace,
      (renderForm ⟨table, handlers, form.id⟩ form).run.run {} = (.ok rendered, trace) ∧
      unit = unitOf options handlers trace.components rendered := by
  unfold convertForm at given
  generalize (renderForm ⟨table, handlers, form.id⟩ form).run.run {} = ended at given ⊢
  obtain ⟨result, trace⟩ := ended
  cases result with
  | error cause => cases given
  | ok rendered =>
    cases given
    exact ⟨rendered, trace, rfl, rfl⟩

theorem name_of_renderForm {setting : Setting} {form : Form} {rendered : String × String}
    {trace later : Trace} (ended : (renderForm setting form).run.run trace = (.ok rendered, later)) :
    unitName form = some rendered.1 := by
  delta renderForm at ended
  split at ended
  next => cases ended
  next name named =>
    obtain ⟨nested, _, _, ended⟩ := ok_of_bind ended
    obtain ⟨tree, _, _, ended⟩ := ok_of_bind ended
    cases ended
    exact named

theorem units_of_obstacle {form : Form} {cause : RenderError}
    (met : obstacle table form = some cause) :
    (convertForm table options handlers form).units = [] := by
  obtain ⟨_, unit, _, errors⟩ | ⟨cause, _, units, _⟩ := convertForm_cases table options handlers form
  next =>
    rw [errors_of_convertForm, met] at errors
    cases errors
  next => exact units

/-- The units have the names of the forms that meet no obstacle, and their paths follow. -/
theorem names_of_convertBatch (forms : List Form) (skipped : List Skipped) :
    let units := (convertBatch table options ⟨forms, handlers, skipped⟩).units
    units.map (·.name) =
        (forms.filter fun form => (obstacle table form).isNone).filterMap unitName ∧
      ∀ unit ∈ units, unit.path = unitPath options unit.name := by
  intro units
  rw [show units = _ from (convertBatch_flatMap table options handlers forms skipped).1]
  induction forms with
  | nil => exact ⟨rfl, by rintro _ ⟨⟩⟩
  | cons form later ih =>
    obtain ⟨names, paths⟩ := ih
    rw [List.flatMap_cons, convertBatch_single, List.map_append, names]
    cases met : obstacle table form with
    | some cause =>
      rw [units_of_obstacle table options handlers met, List.filter_cons_of_neg (by simp [met])]
      exact ⟨rfl, paths⟩
    | none =>
      obtain ⟨unit, given⟩ := exists_unit table options handlers met
      obtain ⟨rendered, trace, ended, rfl⟩ := unit_of_convertForm table options handlers given
      rw [given, List.filter_cons_of_pos (by simp [met]),
        List.filterMap_cons_some (name_of_renderForm ended)]
      refine ⟨rfl, ?_⟩
      intro unit mem
      obtain here | behind := List.mem_append.mp mem
      · rw [List.mem_singleton.mp here]
        rfl
      · exact paths unit behind

end Formwright.Component
