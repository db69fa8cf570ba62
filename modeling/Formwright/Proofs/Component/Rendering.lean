import Formwright.Component.Rendering
import Formwright.Proofs.Effects

/-!
What rendering answers for a tree. It depends on the tree alone, not on what was rendered before,
and the first faulty element that is reached decides it.
-/

namespace Formwright.Component

open Mapping

theorem renderTree_eq (setting : Setting) (depth : Nat) (element : Element) :
    renderTree setting depth element =
      if elementDepthLimit < depth then throw (.tooDeep element.id elementDepthLimit)
      else
        match element.kind with
        | none => throw (.missingKind element.id)
        | some kind =>
          match setting.table.find? kind with
          | none => do
            warn [.noRule kind element.id setting.form]
            return unsupportedNote kind element.id
          | some rule => do
            warn ((element.events.getD []).flatMap (eventWarnings setting.handlers rule element.id))
            useComponent rule.component
            let nested ← renderTrees setting (depth + 1) element.children
            return renderTag rule.component (elementProperties setting.handlers rule element)
              nested := by
  obtain ⟨id, kind, properties, events, children⟩ := element
  unfold renderTree
  by_cases deep : elementDepthLimit < depth
  next =>
    rw [if_pos deep]
    exact (if_pos deep).symm
  next =>
    rw [if_neg deep]
    exact (if_neg deep).symm

theorem renderTrees_cons (setting : Setting) (depth : Nat) (element : Element)
    (later : List Element) :
    renderTrees setting depth (element :: later) = do
      let fragment ← renderTree setting depth element
      return fragment :: (← renderTrees setting depth later) := by
  rw [renderTrees]

/-! ## The trace -/

def Trace.append (first second : Trace) : Trace :=
  ⟨first.components ++ second.components, first.warnings ++ second.warnings⟩

theorem Trace.append_empty (trace : Trace) : trace.append {} = trace := by
  simp [Trace.append]

theorem Trace.append_assoc (first second third : Trace) :
    (first.append second).append third = first.append (second.append third) := by
  simp [Trace.append]

/-- What an action answers does not depend on the trace it finds, and it only adds to that trace. -/
def Frames {value : Type} (action : Rendering value) : Prop :=
  ∀ trace, action.run.run trace = ((action.run.run {}).1, trace.append (action.run.run {}).2)

theorem frames_pure {value : Type} (result : value) : Frames (pure result : Rendering value) := by
  intro trace
  show (Except.ok result, trace) = (Except.ok result, trace.append {})
  rw [trace.append_empty]

theorem frames_throw {value : Type} (cause : RenderError) :
    Frames (throw cause : Rendering value) := by
  intro trace
  show (Except.error cause, trace) = (Except.error cause, trace.append {})
  rw [trace.append_empty]

theorem frames_warn (warnings : List Warning) : Frames (warn warnings) := by
  intro trace
  show (Except.ok (), _) = (Except.ok (), trace.append ⟨[], [] ++ warnings⟩)
  simp only [Trace.append, List.append_nil, List.nil_append]

theorem frames_useComponent (component : String) : Frames (useComponent component) := by
  intro trace
  show (Except.ok (), _) = (Except.ok (), trace.append ⟨[] ++ [component], []⟩)
  simp only [Trace.append, List.append_nil, List.nil_append]

theorem frames_bind {first second : Type} {action : Rendering first}
    {next : first → Rendering second} (frames : Frames action)
    (framesNext : ∀ value, Frames (next value)) : Frames (action >>= next) := by
  intro trace
  rw [run_bind, run_bind, frames trace]
  generalize action.run.run {} = ended
  obtain ⟨result, later⟩ := ended
  cases result with
  | error cause => rfl
  | ok value =>
    show (next value).run.run (trace.append later) =
      (((next value).run.run later).1, trace.append ((next value).run.run later).2)
    rw [framesNext value (trace.append later), framesNext value later, Trace.append_assoc]

mutual

theorem frames_renderTree (setting : Setting) (depth : Nat) :
    (element : Element) → Frames (renderTree setting depth element)
  | ⟨id, kind, properties, events, children⟩ => by
    rw [renderTree_eq]
    split
    next => exact frames_throw _
    next =>
      split
      next => exact frames_throw _
      next kind _ =>
        split
        next => exact frames_bind (frames_warn _) fun _ => frames_pure _
        next rule _ =>
          apply frames_bind (frames_warn _)
          intro _
          apply frames_bind (frames_useComponent _)
          intro _
          apply frames_bind (frames_renderTrees setting (depth + 1) children)
          exact fun _ => frames_pure _

theorem frames_renderTrees (setting : Setting) (depth : Nat) :
    (elements : List Element) → Frames (renderTrees setting depth elements)
  | [] => by
    rw [renderTrees]
    exact frames_pure _
  | element :: later => by
    rw [renderTrees_cons]
    apply frames_bind (frames_renderTree setting depth element)
    intro fragment
    apply frames_bind (frames_renderTrees setting depth later)
    exact fun _ => frames_pure _

end

/-! ## Failures -/

def failure {value : Type} (action : Rendering value) : Option RenderError :=
  match (action.run.run {}).1 with
  | .ok _ => none
  | .error cause => some cause

theorem failure_bind {first second : Type} {action : Rendering first}
    {next : first → Rendering second} (framesNext : ∀ value, Frames (next value))
    {later : Option RenderError} (same : ∀ value, failure (next value) = later) :
    failure (action >>= next) = (failure action).or later := by
  rw [failure, failure, run_bind]
  generalize action.run.run {} = ended
  obtain ⟨result, trace⟩ := ended
  cases result with
  | error cause => rfl
  | ok value =>
    show (match ((next value).run.run trace).1 with
      | .ok _ => none
      | .error cause => some cause) = _
    rw [framesNext value trace]
    exact same value

theorem failure_after {second : Type} {action : Rendering Unit} {next : Unit → Rendering second}
    (silent : failure action = none) (frames : Frames (next ())) :
    failure (action >>= next) = failure (next ()) := by
  rw [failure_bind (fun _ => frames) (fun _ => rfl), silent]
  exact Option.none_or

theorem failure_map {first second : Type} (action : Rendering first) (result : first → second) :
    failure (action >>= fun value => pure (result value)) = failure action := by
  have silent : ∀ value, failure (pure (result value) : Rendering second) = none := fun _ => rfl
  rw [failure_bind (fun value => frames_pure (result value)) silent]
  exact Option.or_none

def isEntered (table : Table) : Option Kind → Bool
  | none => true
  | some kind => (table.find? kind).isSome

mutual

/-- An element and the elements below it that are looked at, each with its depth, in the order of
the document. -/
def visitedTree (table : Table) (depth : Nat) : Element → List (Nat × Element)
  | ⟨id, kind, properties, events, children⟩ =>
    (depth, ⟨id, kind, properties, events, children⟩) ::
      if isEntered table kind then visitedTrees table (depth + 1) children else []

def visitedTrees (table : Table) (depth : Nat) : List Element → List (Nat × Element)
  | [] => []
  | element :: later => visitedTree table depth element ++ visitedTrees table depth later

end

def fault (visited : Nat × Element) : Option RenderError :=
  if visited.1 = elementDepthLimit + 1 then some (.tooDeep visited.2.id elementDepthLimit)
  else if visited.2.kind.isNone then some (.missingKind visited.2.id)
  else none

theorem visitedTree_eq (table : Table) (depth : Nat) (element : Element) :
    visitedTree table depth element =
      (depth, element) ::
        if isEntered table element.kind then visitedTrees table (depth + 1) element.children
        else [] := by
  obtain ⟨id, kind, properties, events, children⟩ := element
  rw [visitedTree]

mutual

/-- Who goes beyond the limit passes the level behind it. -/
theorem limit_passed (table : Table) {depth : Nat} (reached : depth ≤ elementDepthLimit + 1) :
    (element : Element) → ∀ place ∈ visitedTree table depth element,
      elementDepthLimit < place.1 →
        ∃ first ∈ visitedTree table depth element, first.1 = elementDepthLimit + 1
  | ⟨id, kind, properties, events, children⟩ => by
    intro place mem deep
    rw [visitedTree_eq] at mem ⊢
    by_cases last : depth = elementDepthLimit + 1
    next => exact ⟨_, List.mem_cons_self, last⟩
    next =>
      have below : depth + 1 ≤ elementDepthLimit + 1 := by omega
      cases List.mem_cons.mp mem with
      | inl same =>
        rw [same] at deep
        have here : elementDepthLimit < depth := deep
        omega
      | inr mem =>
        split at mem
        next entered =>
          rw [if_pos entered]
          obtain ⟨first, mem, depth⟩ := limit_passed_trees table below children place mem deep
          exact ⟨first, List.mem_cons_of_mem _ mem, depth⟩
        next => cases mem

theorem limit_passed_trees (table : Table) {depth : Nat}
    (reached : depth ≤ elementDepthLimit + 1) : (elements : List Element) →
    ∀ place ∈ visitedTrees table depth elements, elementDepthLimit < place.1 →
      ∃ first ∈ visitedTrees table depth elements, first.1 = elementDepthLimit + 1
  | [] => by
    intro place mem
    rw [visitedTrees] at mem
    cases mem
  | element :: later => by
    intro place mem deep
    rw [visitedTrees] at mem ⊢
    cases List.mem_append.mp mem with
    | inl mem =>
      obtain ⟨first, mem, depth⟩ := limit_passed table reached element place mem deep
      exact ⟨first, List.mem_append_left _ mem, depth⟩
    | inr mem =>
      obtain ⟨first, mem, depth⟩ := limit_passed_trees table reached later place mem deep
      exact ⟨first, List.mem_append_right _ mem, depth⟩

end

mutual

/-- Elements at greater depths need no answer of their own: one above them has failed before. -/
theorem failure_renderTree (setting : Setting) {depth : Nat}
    (reached : depth ≤ elementDepthLimit + 1) : (element : Element) →
    failure (renderTree setting depth element) =
      (visitedTree setting.table depth element).findSome? fault
  | ⟨id, kind, properties, events, children⟩ => by
    rw [renderTree_eq, visitedTree_eq, List.findSome?_cons]
    by_cases deep : elementDepthLimit < depth
    next =>
      -- The code refuses every depth behind the limit; only the first of them is ever reached.
      have last : depth = elementDepthLimit + 1 := Nat.le_antisymm reached deep
      rw [if_pos deep, fault, if_pos last]
      rfl
    next =>
      have within : depth ≠ elementDepthLimit + 1 := by omega
      rw [if_neg deep, fault, if_neg within]
      cases kind with
      | none => rfl
      | some kind =>
        simp only [Option.isNone_some, Bool.false_eq_true, if_false]
        cases mapped : setting.table.find? kind with
        | none =>
          simp only [isEntered, mapped, Option.isSome_none, Bool.false_eq_true, if_false]
          rfl
        | some rule =>
          simp only [isEntered, mapped, Option.isSome_some, if_true]
          have below : depth + 1 ≤ elementDepthLimit + 1 := by omega
          rw [← failure_renderTrees setting below children]
          have nested := frames_renderTrees setting (depth + 1) children
          have framed : Frames (renderTrees setting (depth + 1) children >>= fun nested =>
              pure (renderTag rule.component (elementProperties setting.handlers rule
                ⟨id, some kind, properties, events, children⟩) nested)) :=
            frames_bind nested fun _ => frames_pure _
          rw [failure_after rfl (frames_bind (frames_useComponent _) fun _ => framed),
            failure_after rfl framed, failure_map]

theorem failure_renderTrees (setting : Setting) {depth : Nat}
    (reached : depth ≤ elementDepthLimit + 1) : (elements : List Element) →
    failure (renderTrees setting depth elements) =
      (visitedTrees setting.table depth elements).findSome? fault
  | [] => by
    rw [renderTrees, visitedTrees]
    rfl
  | element :: later => by
    rw [renderTrees_cons, visitedTrees, List.findSome?_append,
      ← failure_renderTree setting reached element, ← failure_renderTrees setting reached later]
    have framed := frames_renderTrees setting depth later
    exact failure_bind (fun _ => frames_bind framed fun _ => frames_pure _) fun _ =>
      failure_map _ _

end

theorem fault_eq_none (place : Nat × Element) :
    fault place = none ↔ place.2.kind.isSome = true ∧ place.1 ≠ elementDepthLimit + 1 := by
  rw [fault]
  split
  next deep => simp [deep]
  next shallow =>
    split
    next missing =>
      have none : place.2.kind = none := Option.isNone_iff_eq_none.mp missing
      simp [none]
    next present =>
      have some : place.2.kind.isSome = true := by
        rw [Option.isSome_iff_ne_none]
        simpa using present
      exact iff_of_true rfl ⟨some, shallow⟩

/-- Nothing fails when every element that is looked at has a kind and lies within the limit. -/
theorem findSome?_fault_eq_none (table : Table) (elements : List Element) :
    (visitedTrees table 1 elements).findSome? fault = none ↔
      ∀ place ∈ visitedTrees table 1 elements,
        place.2.kind.isSome = true ∧ place.1 ≤ elementDepthLimit := by
  rw [List.findSome?_eq_none_iff]
  constructor
  next =>
    intro calm place mem
    refine ⟨((fault_eq_none place).mp (calm place mem)).1, ?_⟩
    apply Nat.le_of_not_lt
    intro deep
    obtain ⟨first, reached, last⟩ :=
      limit_passed_trees table (by decide) elements place mem deep
    exact ((fault_eq_none first).mp (calm first reached)).2 last
  next =>
    intro sound place mem
    obtain ⟨present, within⟩ := sound place mem
    exact (fault_eq_none place).mpr ⟨present, by omega⟩

/-! ## What is never looked at -/

mutual

/-- An element without what is below the limit or below an element without a rule. -/
def pruneTree (table : Table) (depth : Nat) : Element → Element
  | ⟨id, kind, properties, events, children⟩ =>
    ⟨id, kind, properties, events,
      if depth ≤ elementDepthLimit ∧ isEntered table kind then
        pruneTrees table (depth + 1) children
      else []⟩

def pruneTrees (table : Table) (depth : Nat) : List Element → List Element
  | [] => []
  | element :: later => pruneTree table depth element :: pruneTrees table depth later

end

mutual

theorem renderTree_pruneTree (setting : Setting) (depth : Nat) : (element : Element) →
    renderTree setting depth (pruneTree setting.table depth element) =
      renderTree setting depth element
  | ⟨id, kind, properties, events, children⟩ => by
    rw [renderTree_eq, renderTree_eq, pruneTree]
    by_cases deep : elementDepthLimit < depth
    next => rw [if_pos deep, if_pos deep]
    next =>
      rw [if_neg deep, if_neg deep]
      cases kind with
      | none => rfl
      | some kind =>
        cases mapped : setting.table.find? kind with
        | none => simp only [mapped]
        | some rule =>
          have entered : depth ≤ elementDepthLimit ∧ isEntered setting.table (some kind) = true :=
            ⟨Nat.le_of_not_lt deep, by rw [isEntered, mapped]; rfl⟩
          simp only [mapped, if_pos entered]
          rw [renderTrees_pruneTrees setting (depth + 1) children]
          rfl

theorem renderTrees_pruneTrees (setting : Setting) (depth : Nat) : (elements : List Element) →
    renderTrees setting depth (pruneTrees setting.table depth elements) =
      renderTrees setting depth elements
  | [] => by rw [pruneTrees]
  | element :: later => by
    rw [pruneTrees, renderTrees_cons, renderTrees_cons, renderTree_pruneTree setting depth element,
      renderTrees_pruneTrees setting depth later]

end

end Formwright.Component
