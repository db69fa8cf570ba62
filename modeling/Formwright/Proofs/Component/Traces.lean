import Formwright.Proofs.Component.Conversion
import Mathlib.Data.List.Basic
import Mathlib.Data.List.TakeWhile

/-!
What rendering leaves behind, whether it fails or not. Up to the first faulty element, every element
that is looked at leaves the component of its rule and its warnings, in the order of the document.
-/

namespace Formwright.Component

open Mapping

/-! ## Actions -/

def logged {value : Type} (action : Rendering value) : Trace := (action.run.run {}).2

theorem logged_bind {first second : Type} {action : Rendering first}
    {next : first → Rendering second} (framesNext : ∀ value, Frames (next value))
    {later : Trace} (same : ∀ value, logged (next value) = later) :
    logged (action >>= next) =
      (logged action).append (if (failure action).isNone then later else {}) := by
  rw [logged, logged, failure, run_bind]
  generalize action.run.run {} = ended
  obtain ⟨result, trace⟩ := ended
  cases result with
  | error cause => exact trace.append_empty.symm
  | ok value =>
    show ((next value).run.run trace).2 = trace.append later
    rw [framesNext value trace, ← same value]
    rfl

theorem logged_after {second : Type} {action : Rendering Unit} {next : Unit → Rendering second}
    (silent : failure action = none) (frames : Frames (next ())) :
    logged (action >>= next) = (logged action).append (logged (next ())) := by
  rw [logged_bind (fun _ => frames) (fun _ => rfl), silent]
  rfl

theorem logged_map {first second : Type} (action : Rendering first) (result : first → second) :
    logged (action >>= fun value => pure (result value)) = logged action := by
  have empty : ∀ value, logged (pure (result value) : Rendering second) = {} := fun _ => rfl
  rw [logged_bind (fun value => frames_pure (result value)) empty, ite_self, Trace.append_empty]

/-! ## Elements -/

def componentOf (table : Table) (element : Element) : Option String :=
  (element.kind.bind table.find?).map Rule.component

def eventLoss (handlers : Entries String) (rule : Rule) (element : String)
    (event : String × String) : Option Warning :=
  match Entries.find? rule.events event.1, Entries.find? handlers event.2 with
  | none, _ => some (.noTarget event.1 element rule.component)
  | some _, none => some (.noHandler event.2 event.1 element)
  | some _, some _ => none

def elementLosses (setting : Setting) (element : Element) : List Warning :=
  match element.kind with
  | none => []
  | some kind =>
    match setting.table.find? kind with
    | none => [.noRule kind element.id setting.form]
    | some rule =>
      (element.events.getD []).filterMap (eventLoss setting.handlers rule element.id)

theorem eventWarnings_eq (handlers : Entries String) (rule : Rule) (element : String)
    (event : String × String) :
    eventWarnings handlers rule element event =
      (eventLoss handlers rule element event).toList := by
  unfold eventWarnings eventLoss Entries.contains
  cases Entries.find? rule.events event.1 with
  | none => rfl
  | some target => cases Entries.find? handlers event.2 <;> rfl

theorem flatMap_eventWarnings (handlers : Entries String) (rule : Rule) (element : String)
    (events : List (String × String)) :
    events.flatMap (eventWarnings handlers rule element) =
      events.filterMap (eventLoss handlers rule element) := by
  rw [List.filterMap_eq_flatMap_toList]
  exact List.flatMap_congr fun event _ => eventWarnings_eq handlers rule element event

/-- The elements before the first faulty one. -/
def reached (visited : List (Nat × Element)) : List Element :=
  (visited.takeWhile fun place => (fault place).isNone).map Prod.snd

theorem reached_cons (place : Nat × Element) (later : List (Nat × Element)) :
    reached (place :: later) =
      if (fault place).isNone then place.2 :: reached later else [] := by
  rw [reached, List.takeWhile_cons]
  split
  next => rfl
  next => rfl

theorem reached_append (first second : List (Nat × Element)) :
    reached (first ++ second) =
      reached first ++ if (first.findSome? fault).isNone then reached second else [] := by
  induction first with
  | nil => rfl
  | cons place later ih =>
    rw [List.cons_append, reached_cons, reached_cons, List.findSome?_cons]
    cases fault place with
    | some cause => rfl
    | none =>
      rw [ih]
      rfl

/-- Nothing is left out if no element is faulty. -/
theorem reached_of_sound {visited : List (Nat × Element)}
    (sound : visited.findSome? fault = none) : reached visited = visited.map Prod.snd := by
  rw [reached, List.takeWhile_eq_self_iff.mpr]
  intro place mem
  rw [List.findSome?_eq_none_iff.mp sound place mem]
  rfl

def traceOf (setting : Setting) (elements : List Element) : Trace :=
  ⟨elements.filterMap (componentOf setting.table), elements.flatMap (elementLosses setting)⟩

theorem traceOf_append (setting : Setting) (first second : List Element) :
    traceOf setting (first ++ second) =
      (traceOf setting first).append (traceOf setting second) := by
  simp only [traceOf, Trace.append, List.filterMap_append, List.flatMap_append]

theorem traceOf_reached_append (setting : Setting) (first second : List (Nat × Element)) :
    traceOf setting (reached (first ++ second)) =
      (traceOf setting (reached first)).append
        (if (first.findSome? fault).isNone then traceOf setting (reached second) else {}) := by
  rw [reached_append, traceOf_append]
  split <;> rfl

mutual

theorem logged_renderTree (setting : Setting) {depth : Nat}
    (within : depth ≤ elementDepthLimit + 1) : (element : Element) →
    logged (renderTree setting depth element) =
      traceOf setting (reached (visitedTree setting.table depth element))
  | ⟨id, kind, properties, events, children⟩ => by
    rw [renderTree_eq, visitedTree_eq, reached_cons]
    by_cases deep : elementDepthLimit < depth
    next =>
      have last : depth = elementDepthLimit + 1 := Nat.le_antisymm within deep
      rw [if_pos deep, fault, if_pos last]
      rfl
    next =>
      have shallow : depth ≠ elementDepthLimit + 1 := by omega
      rw [if_neg deep, fault, if_neg shallow]
      cases kind with
      | none => rfl
      | some kind =>
        simp only [Option.isNone_some, Bool.false_eq_true, if_false, Option.isNone_none, if_true]
        cases mapped : setting.table.find? kind with
        | none =>
          have entered : isEntered setting.table (some kind) = false := by
            rw [isEntered, mapped]
            rfl
          rw [entered, logged_map]
          simp only [traceOf, reached, componentOf, elementLosses, mapped, Bool.false_eq_true,
            if_false, List.takeWhile_nil, List.map_nil, List.filterMap_cons, List.filterMap_nil,
            List.flatMap_cons, List.flatMap_nil, Option.bind_some, Option.map_none, List.append_nil]
          rfl
        | some rule =>
          have entered : isEntered setting.table (some kind) = true := by
            rw [isEntered, mapped]
            rfl
          have below : depth + 1 ≤ elementDepthLimit + 1 := by omega
          have framed : Frames (renderTrees setting (depth + 1) children >>= fun nested =>
              pure (renderTag rule.component (elementProperties setting.handlers rule
                ⟨id, some kind, properties, events, children⟩) nested)) :=
            frames_bind (frames_renderTrees setting (depth + 1) children) fun _ => frames_pure _
          simp only [entered, if_true]
          rw [logged_after rfl (frames_bind (frames_useComponent _) fun _ => framed),
            logged_after rfl framed, logged_map, logged_renderTrees setting below children]
          simp only [traceOf, componentOf, elementLosses, mapped, List.filterMap_cons,
            List.flatMap_cons, Option.bind_some, Option.map_some, flatMap_eventWarnings]
          rfl

theorem logged_renderTrees (setting : Setting) {depth : Nat}
    (within : depth ≤ elementDepthLimit + 1) : (elements : List Element) →
    logged (renderTrees setting depth elements) =
      traceOf setting (reached (visitedTrees setting.table depth elements))
  | [] => by
    rw [renderTrees, visitedTrees]
    rfl
  | element :: later => by
    rw [renderTrees_cons, visitedTrees, traceOf_reached_append,
      ← failure_renderTree setting within element, ← logged_renderTree setting within element,
      ← logged_renderTrees setting within later]
    have framed := frames_renderTrees setting depth later
    exact logged_bind (fun _ => frames_bind framed fun _ => frames_pure _) fun _ =>
      logged_map _ _

end

/-! ## Forms -/

def rootComponents (table : Table) : List String :=
  ((table.find? .form).map Rule.component).toList

theorem logged_renderRoot (setting : Setting) (form : Form) (nested : List String) :
    logged (renderRoot setting form nested) = ⟨rootComponents setting.table, []⟩ := by
  rw [renderRoot, rootComponents]
  cases setting.table.find? .form with
  | none => rfl
  | some rule => exact logged_map _ _

/-- The container comes behind everything in it, and only if nothing in it fails. -/
theorem logged_renderForm (setting : Setting) (form : Form) :
    logged (renderForm setting form) =
      if (unitName form).isSome then
        (traceOf setting (reached (visitedTrees setting.table 1 form.elements))).append
          (if (obstacle setting.table form).isNone then ⟨rootComponents setting.table, []⟩ else {})
      else {} := by
  delta renderForm obstacle
  cases unitName form with
  | none => rfl
  | some name =>
    have within : 1 ≤ elementDepthLimit + 1 := by decide
    have framed (nested : List String) :
        Frames (renderRoot setting form nested >>= fun tree => pure (name, tree)) :=
      frames_bind (frames_renderRoot setting form nested) fun _ => frames_pure _
    have root (nested : List String) :
        logged (renderRoot setting form nested >>= fun tree => pure (name, tree)) =
          ⟨rootComponents setting.table, []⟩ := by
      rw [logged_map, logged_renderRoot]
    rw [Option.isSome_some, if_pos rfl, logged_bind framed root, logged_renderTrees setting within,
      failure_renderTrees setting within]

end Formwright.Component
