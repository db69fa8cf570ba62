import Formwright.Proofs.Component.Traces

/-!
Warnings of a batch: one for each input that was skipped, and then, form after form, one for each
loss among the elements that are looked at before rendering ends or fails.
-/

namespace Formwright.Component

open Mapping

variable (table : Table) (options : Options) (handlers : Entries String)

def formLosses (form : Form) : List Warning :=
  if (unitName form).isSome then
    (reached (visitedTrees table 1 form.elements)).flatMap
      (elementLosses ⟨table, handlers, form.id⟩)
  else []

/-! ## Lines -/

def eventLine (rule : Rule) (element : String) (event : String × String) : Option String :=
  match Entries.find? rule.events event.1, Entries.find? handlers event.2 with
  | none, _ =>
    some ("event '" ++ event.1 ++ "' on element '" ++ element ++ "' has no " ++ rule.component ++
      " equivalent, dropped")
  | some _, none =>
    some ("handler '" ++ event.2 ++ "' bound to '" ++ event.1 ++ "' on element '" ++ element ++
      "' was not found in any script")
  | some _, some _ => none

def elementLines (form : String) (element : Element) : List String :=
  match element.kind with
  | none => []
  | some kind =>
    match table.find? kind with
    | none =>
      ["no mapping rule for kind '" ++ kind.name ++ "' (element '" ++ element.id ++ "' in form '" ++
        form ++ "')"]
    | some rule => (element.events.getD []).filterMap (eventLine handlers rule element.id)

theorem message_eventLoss (rule : Rule) (element : String) (event : String × String) :
    (eventLoss handlers rule element event).map Warning.message =
      eventLine handlers rule element event := by
  unfold eventLoss eventLine
  cases Entries.find? rule.events event.1 with
  | none => rw [Option.map_some, Warning.message_noTarget]
  | some target =>
    cases Entries.find? handlers event.2 with
    | none => rw [Option.map_some, Warning.message_noHandler]
    | some body => rfl

theorem message_elementLosses (form : String) (element : Element) :
    (elementLosses ⟨table, handlers, form⟩ element).map Warning.message =
      elementLines table handlers form element := by
  unfold elementLosses elementLines
  cases element.kind with
  | none => rfl
  | some kind =>
    dsimp only
    cases table.find? kind with
    | none => simp only [List.map_singleton, Warning.message_noRule]
    | some rule => simp only [List.map_filterMap, message_eventLoss]

/-! ## Batches -/

theorem warnings_of_convertForm (form : Form) :
    (convertForm table options handlers form).warnings = formLosses table handlers form := by
  have told : (convertForm table options handlers form).warnings =
      (logged (renderForm ⟨table, handlers, form.id⟩ form)).warnings := by
    unfold convertForm logged
    generalize (renderForm ⟨table, handlers, form.id⟩ form).run.run {} = ended
    obtain ⟨result, trace⟩ := ended
    cases result <;> rfl
  rw [told, logged_renderForm, formLosses]
  split
  next =>
    -- the container brings no warning, whether it is reached or not
    split <;> exact List.append_nil _
  next => rfl

theorem warnings_of_convertBatch (forms : List Form) (skipped : List Skipped) :
    (convertBatch table options ⟨forms, handlers, skipped⟩).warnings =
      skipped.map (fun input => .skipped input.file input.message) ++
        forms.flatMap (formLosses table handlers) := by
  induction forms generalizing skipped with
  | nil => exact (List.append_nil _).symm
  | cons form later ih =>
    have split := convertBatch_split table options handlers [form] later skipped
    rw [List.singleton_append, convertBatch_single] at split
    rw [split, List.flatMap_cons, ← List.append_assoc, ← warnings_of_convertForm table options]
    simp only [Outcome.append, skippedOutcome, ih [], List.map_nil, List.nil_append]

theorem flatMap_formLosses (forms : List Form) :
    forms.flatMap (formLosses table handlers) =
      (forms.filter fun form => (unitName form).isSome).flatMap fun form =>
        (reached (visitedTrees table 1 form.elements)).flatMap
          (elementLosses ⟨table, handlers, form.id⟩) := by
  induction forms with
  | nil => rw [List.filter_nil, List.flatMap_nil, List.flatMap_nil]
  | cons form later ih =>
    rw [List.flatMap_cons, List.filter_cons, ih, formLosses]
    split
    next => rw [List.flatMap_cons]
    next => rw [List.nil_append]

/-! ## No warning -/

def IsBound (rule : Rule) (event : String × String) : Prop :=
  (Entries.find? rule.events event.1).isSome = true ∧
    (Entries.find? handlers event.2).isSome = true

theorem eventLoss_eq_none (rule : Rule) (element : String) (event : String × String) :
    eventLoss handlers rule element event = none ↔ IsBound handlers rule event := by
  unfold eventLoss IsBound
  cases Entries.find? rule.events event.1 with
  | none => simp
  | some target => cases Entries.find? handlers event.2 <;> simp

theorem kind_of_reached {visited : List (Nat × Element)} {element : Element}
    (mem : element ∈ reached visited) : element.kind.isSome = true := by
  obtain ⟨place, before, rfl⟩ := List.mem_map.mp mem
  have sound := List.mem_takeWhile_imp before
  exact ((fault_eq_none place).mp (Option.isNone_iff_eq_none.mp sound)).1

theorem elementLosses_eq_nil (form : String) {element : Element}
    (present : element.kind.isSome = true) :
    elementLosses ⟨table, handlers, form⟩ element = [] ↔
      ∃ rule, element.kind.bind table.find? = some rule ∧
        ∀ event ∈ element.events.getD [], IsBound handlers rule event := by
  obtain ⟨kind, given⟩ := Option.isSome_iff_exists.mp present
  rw [elementLosses, given, Option.bind_some]
  simp only
  cases table.find? kind with
  | none => simp
  | some rule =>
    show (element.events.getD []).filterMap (eventLoss handlers rule element.id) = [] ↔ _
    rw [List.filterMap_eq_nil_iff]
    simp only [eventLoss_eq_none, Option.some.injEq, exists_eq_left']

/-- The warnings of a batch are exactly these lines: one for each skipped input, in order, and then
those of the forms, in order. A form with a usable name has one for each element without a rule and
one for each event that its rule does not know or whose handler is not in the batch, element by
element and event by event, up to the first element that makes the form fail. No warning is left when
nothing was skipped and everything that is looked at is translated. -/
theorem warnings_tell_every_loss (batch : Batch) :
    let outcome := convertBatch table options batch
    let named := batch.forms.filter fun form => (unitName form).isSome
    let looked (form : Form) := reached (visitedTrees table 1 form.elements)
    outcome.warnings.map Warning.message =
        batch.skipped.map (fun input => "skipped " ++ input.file ++ ": " ++ input.message) ++
          named.flatMap (fun form =>
            (looked form).flatMap (elementLines table batch.handlers form.id)) ∧
      (outcome.warnings = [] ↔
        batch.skipped = [] ∧ ∀ form ∈ named, ∀ element ∈ looked form,
          ∃ rule, element.kind.bind table.find? = some rule ∧
            ∀ event ∈ element.events.getD [], IsBound batch.handlers rule event) := by
  intro outcome named looked
  have told : outcome.warnings =
      batch.skipped.map (fun input => .skipped input.file input.message) ++
        named.flatMap fun form =>
          (looked form).flatMap (elementLosses ⟨table, batch.handlers, form.id⟩) := by
    rw [← flatMap_formLosses]
    exact warnings_of_convertBatch table options batch.handlers batch.forms batch.skipped
  constructor
  next =>
    have lines : ∀ form : Form, ((looked form).flatMap
        (elementLosses ⟨table, batch.handlers, form.id⟩)).map Warning.message =
          (looked form).flatMap (elementLines table batch.handlers form.id) := by
      intro form
      simp only [List.map_flatMap, message_elementLosses]
    rw [told, List.map_append, List.map_map, List.map_flatMap]
    simp only [lines]
    rfl
  next =>
    rw [told, List.append_eq_nil_iff, List.map_eq_nil_iff, List.flatMap_eq_nil_iff]
    apply and_congr_right
    intro _
    apply forall₂_congr
    intro form _
    rw [List.flatMap_eq_nil_iff]
    apply forall₂_congr
    intro element mem
    exact elementLosses_eq_nil table batch.handlers form.id (kind_of_reached mem)

end Formwright.Component
