import Formwright.Proofs.Component.Traces
import Formwright.Proofs.Entries
import Mathlib.Data.List.Nodup
import Mathlib.Data.List.Pairwise

/-!
Events of an element. Each is bound to the property that the rule names for it, in order, so that of
the events of one property only the last keeps its callback. The others are lost without a warning.
-/

namespace Formwright.Component

open Mapping

section

variable (handlers : Entries String) (rule : Rule)

def targetOf (event : String × String) : Option String := Entries.find? rule.events event.1

def lastBound (target : String) (events : List (String × String)) : Option (String × String) :=
  events.reverse.find? fun event => targetOf rule event == some target

def callbackOf (event : String × String) : Value := .callback (callbackFor handlers event.2)

theorem find?_bindEvent (properties : Entries Value) (event : String × String) (target : String) :
    Entries.find? (bindEvent handlers rule properties event) target =
      if targetOf rule event = some target then some (callbackOf handlers event)
      else Entries.find? properties target := by
  unfold bindEvent targetOf callbackOf
  cases Entries.find? rule.events event.1 with
  | none => rfl
  | some bound =>
    simp only [Entries.find?_insert, Option.some.injEq]
    exact if_congr eq_comm rfl rfl

theorem lastBound_append (target : String) (events : List (String × String))
    (last : String × String) :
    lastBound rule target (events ++ [last]) =
      if targetOf rule last = some target then some last else lastBound rule target events := by
  unfold lastBound
  rw [List.reverse_append, List.reverse_singleton, List.singleton_append, List.find?_cons]
  by_cases bound : targetOf rule last = some target
  · rw [if_pos bound, beq_iff_eq.mpr bound]
  · rw [if_neg bound, beq_eq_false_iff_ne.mpr bound]

/-- What was there before is found where no event is bound. -/
theorem find?_foldl_bindEvent (events : List (String × String)) (properties : Entries Value)
    (target : String) :
    Entries.find? (events.foldl (bindEvent handlers rule) properties) target =
      ((lastBound rule target events).map (callbackOf handlers)).or
        (Entries.find? properties target) := by
  induction events using List.reverseRecOn with
  | nil => rfl
  | append_singleton events last ih =>
    rw [List.foldl_append, List.foldl_cons, List.foldl_nil, find?_bindEvent, lastBound_append, ih]
    split <;> rfl

theorem exists_lastBound {events : List (String × String)} {event : String × String}
    {target : String} (mem : event ∈ events) (bound : targetOf rule event = some target) :
    ∃ last ∈ events, targetOf rule last = some target ∧
      lastBound rule target events = some last := by
  cases found : lastBound rule target events with
  | none =>
    have other := List.find?_eq_none.mp found event (List.mem_reverse.mpr mem)
    exact absurd (beq_iff_eq.mpr bound) other
  | some last =>
    have listed := List.mem_reverse.mp (List.mem_of_find?_eq_some found)
    unfold lastBound at found
    have same := List.find?_some found
    exact ⟨last, listed, beq_iff_eq.mp same, rfl⟩

/-- The properties of an element hold, where events are bound, the callback of the last of them. -/
theorem find?_elementProperties {element : Element} {event : String × String} {target : String}
    (mem : event ∈ element.events.getD []) (bound : targetOf rule event = some target) :
    ∃ last ∈ element.events.getD [], targetOf rule last = some target ∧
      lastBound rule target (element.events.getD []) = some last ∧
      Entries.find? (elementProperties handlers rule element) target =
        some (callbackOf handlers last) := by
  obtain ⟨last, listed, same, found⟩ := exists_lastBound rule mem bound
  refine ⟨last, listed, same, found, ?_⟩
  unfold elementProperties
  rw [find?_foldl_bindEvent, found]
  rfl

/-- An event that shares its property with no other one keeps its callback. -/
theorem keeps_callback {element : Element} {event : String × String} {target : String}
    (apart : ((element.events.getD []).filterMap (targetOf rule)).Nodup)
    (mem : event ∈ element.events.getD []) (bound : targetOf rule event = some target) :
    Entries.find? (elementProperties handlers rule element) target =
      some (callbackOf handlers event) := by
  obtain ⟨last, listed, same, _, found⟩ := find?_elementProperties handlers rule mem bound
  have single : last = event := by
    by_contra other
    rw [List.Nodup, List.pairwise_filterMap] at apart
    have : Std.Symm fun first second : String × String =>
        ∀ left, targetOf rule first = some left → ∀ right, targetOf rule second = some right →
          left ≠ right :=
      ⟨fun _ _ differ left bound right same => (differ right same left bound).symm⟩
    exact apart.forall listed mem other target same target bound rfl
  rw [found, single]

end

/-! ## Rendering -/

variable {setting : Setting} {depth : Nat} {element : Element} {kind : Kind} {rule : Rule}

/-- The losses among the events of an element come before those of what is below it. -/
theorem warnings_of_renderTree (within : depth ≤ elementDepthLimit)
    (known : element.kind = some kind) (mapped : setting.table.find? kind = some rule)
    (trace : Trace) :
    ∃ further, ((renderTree setting depth element).run.run trace).2.warnings =
      trace.warnings ++
        ((element.events.getD []).filterMap (eventLoss setting.handlers rule element.id) ++
          further) := by
  have sound : fault (depth, element) = none := by
    rw [fault_eq_none, known]
    exact ⟨rfl, by omega⟩
  have losses : elementLosses setting element =
      (element.events.getD []).filterMap (eventLoss setting.handlers rule element.id) := by
    unfold elementLosses
    simp only [known, mapped]
  rw [frames_renderTree setting depth element trace]
  show ∃ further, trace.warnings ++ (logged (renderTree setting depth element)).warnings = _
  rw [logged_renderTree setting (by omega) element, visitedTree_eq, reached_cons, sound]
  exact ⟨_, by rw [traceOf, ← losses]; rfl⟩

/-- The tag of an element carries its properties. -/
theorem tag_of_renderTree (within : depth ≤ elementDepthLimit)
    (known : element.kind = some kind) (mapped : setting.table.find? kind = some rule)
    {trace later : Trace} {code : String}
    (rendered : (renderTree setting depth element).run.run trace = (.ok code, later)) :
    ∃ nested, code =
      renderTag rule.component (elementProperties setting.handlers rule element) nested := by
  rw [renderTree_eq, if_neg (by omega), known] at rendered
  simp only [mapped] at rendered
  obtain ⟨_, _, _, warned⟩ := ok_of_bind rendered
  obtain ⟨_, _, _, used⟩ := ok_of_bind warned
  obtain ⟨nested, _, _, tagged⟩ := ok_of_bind used
  cases tagged
  exact ⟨nested, rfl⟩

/-- An element that is rendered by a rule warns of every event that the rule does not know and of
every handler that is missing, and of no other one. Each property that the rule names for one of the
events holds the callback of the last of these: the function in place, or the name of the function
where the handler is missing. So an event keeps its own callback when no other one of the element is
bound to the same property. -/
theorem last_event_of_target_is_bound (setting : Setting) (depth : Nat) (element : Element)
    (trace : Trace) (within : depth ≤ elementDepthLimit) (known : element.kind = some kind)
    (mapped : setting.table.find? kind = some rule) :
    let events := element.events.getD []
    let properties := elementProperties setting.handlers rule element
    let ended := (renderTree setting depth element).run.run trace
    let told := ended.2.warnings.map Warning.message
    (∃ further, ended.2.warnings = trace.warnings ++
      (events.filterMap (eventLoss setting.handlers rule element.id) ++ further)) ∧
    (∀ code, ended.1 = .ok code → ∃ nested, code = renderTag rule.component properties nested) ∧
    (∀ event ∈ events, targetOf rule event = none →
      .noTarget event.1 element.id rule.component ∈ ended.2.warnings ∧
      "event '" ++ event.1 ++ "' on element '" ++ element.id ++ "' has no " ++ rule.component ++
        " equivalent, dropped" ∈ told) ∧
    (∀ event ∈ events, ∀ target, targetOf rule event = some target →
      (Entries.find? setting.handlers event.2 = none →
        .noHandler event.2 event.1 element.id ∈ ended.2.warnings ∧
        "handler '" ++ event.2 ++ "' bound to '" ++ event.1 ++ "' on element '" ++ element.id ++
          "' was not found in any script" ∈ told) ∧
      ∃ last ∈ events, targetOf rule last = some target ∧
        lastBound rule target events = some last ∧
        Entries.find? properties target =
          some (.callback (callbackFor setting.handlers last.2))) ∧
    ((events.filterMap (targetOf rule)).Nodup →
      ∀ event ∈ events, ∀ target, targetOf rule event = some target →
        Entries.find? properties target =
          some (.callback (callbackFor setting.handlers event.2))) := by
  intro events properties ended told
  obtain ⟨further, added⟩ := warnings_of_renderTree within known mapped trace
  have warned {event : String × String} {warning : Warning} (mem : event ∈ events)
      (lost : eventLoss setting.handlers rule element.id event = some warning) :
      warning ∈ ended.2.warnings ∧ warning.message ∈ told := by
    have listed : warning ∈ ended.2.warnings := by
      rw [added]
      apply List.mem_append_right
      exact List.mem_append_left _ (List.mem_filterMap.mpr ⟨event, mem, lost⟩)
    exact ⟨listed, List.mem_map_of_mem listed⟩
  refine ⟨⟨further, added⟩, ?_, ?_, ?_, ?_⟩
  next =>
    intro code rendered
    exact tag_of_renderTree within known mapped (Prod.ext rendered rfl)
  next =>
    intro event mem foreign
    apply warned mem
    unfold targetOf at foreign
    rw [eventLoss, foreign]
  next =>
    intro event mem target bound
    refine ⟨?_, find?_elementProperties setting.handlers rule mem bound⟩
    intro missing
    apply warned mem
    unfold targetOf at bound
    rw [eventLoss, bound, missing]
  next =>
    intro apart event mem target bound
    exact keeps_callback setting.handlers rule apart mem bound

def clickRule (doubleTarget : String) : Rule where
  kind := .button
  component := "button"
  properties := []
  defaults := []
  events := [("onclick", "onClick"), ("ondblclick", doubleTarget)]

def clickSetting (doubleTarget : String) : Setting :=
  ⟨⟨[clickRule doubleTarget]⟩, [("one", "first();"), ("two", "second();")], "main"⟩

def clickButton (events : List (String × String)) : Element :=
  ⟨"go", some .button, [], some events, []⟩

theorem differentTargets_keep_callbacks :
    let setting := clickSetting "onDoubleClick"
    let button := clickButton [("onclick", "one"), ("ondrag", "two"), ("ondblclick", "three")]
    let properties := elementProperties setting.handlers (clickRule "onDoubleClick") button
    let warnings := ((renderTree setting 1 button).run.run {}).2.warnings
    let told := warnings.map Warning.message
    .noTarget "ondrag" "go" "button" ∈ warnings ∧
      .noHandler "three" "ondblclick" "go" ∈ warnings ∧
      "event 'ondrag' on element 'go' has no button equivalent, dropped" ∈ told ∧
      "handler 'three' bound to 'ondblclick' on element 'go' was not found in any script" ∈ told ∧
      Entries.find? properties "onClick" = some (.callback "(e) => \x7b first(); \x7d") ∧
      Entries.find? properties "onDoubleClick" = some (.callback "handleThree") := by
  intro setting button properties warnings told
  have mapped : setting.table.find? .button = some (clickRule "onDoubleClick") := rfl
  obtain ⟨_, _, dropped, bound, own⟩ :=
    last_event_of_target_is_bound setting 1 button {} (by decide) rfl mapped
  have apart : ((button.events.getD []).filterMap (targetOf (clickRule "onDoubleClick"))).Nodup := by
    decide +kernel
  have click := own apart ("onclick", "one") (by decide +kernel) "onClick" (by decide +kernel)
  have double :=
    own apart ("ondblclick", "three") (by decide +kernel) "onDoubleClick" (by decide +kernel)
  have first : callbackFor setting.handlers "one" = "(e) => \x7b first(); \x7d" := by
    decide +kernel
  have third : callbackFor setting.handlers "three" = "handleThree" := by
    decide +kernel
  rw [first] at click
  rw [third] at double
  obtain ⟨drag, dragTold⟩ := dropped ("ondrag", "two") (by decide +kernel) (by decide +kernel)
  obtain ⟨missing, missingTold⟩ :=
    (bound ("ondblclick", "three") (by decide +kernel) "onDoubleClick" (by decide +kernel)).1
      (by decide +kernel)
  exact ⟨drag, missing, dragTold, missingTold, click, double⟩

/-- Two events of one property. The first is lost, and nothing is said about it. -/
theorem doubled_target_loses_event :
    let rule := clickRule "onClick"
    let setting := clickSetting "onClick"
    let button := clickButton [("onclick", "one"), ("ondblclick", "two")]
    let ended := (renderTree setting 1 button).run.run {}
    targetOf rule ("onclick", "one") = some "onClick" ∧
      callbackFor setting.handlers "one" = "(e) => \x7b first(); \x7d" ∧
      Entries.find? (elementProperties setting.handlers rule button) "onClick" =
        some (.callback "(e) => \x7b second(); \x7d") ∧
      ended.1.toOption = some "<button onClick=\x7b(e) => \x7b second(); \x7d\x7d />" ∧
      ended.2.warnings = [] := by
  intro rule setting button ended
  have last : lastBound rule "onClick" (button.events.getD []) = some ("ondblclick", "two") := by
    decide +kernel
  have second : callbackFor setting.handlers "two" = "(e) => \x7b second(); \x7d" := by
    decide +kernel
  have found : Entries.find? (elementProperties setting.handlers rule button) "onClick" =
      some (.callback (callbackFor setting.handlers "two")) := by
    rw [elementProperties, find?_foldl_bindEvent, last]
    rfl
  rw [second] at found
  refine ⟨by decide +kernel, by decide +kernel, found, ?_, ?_⟩
  · decide +kernel
  · decide +kernel

/-! ## Standard rules -/

/-- A rule that names each property once binds different events to different ones. -/
theorem nodup_targets {rule : Rule} (distinct : (rule.events.map Prod.snd).Nodup)
    {events : List (String × String)} (unique : (Entries.keys events).Nodup) :
    (events.filterMap (targetOf rule)).Nodup := by
  have listed {event : String × String} {target : String} (bound : targetOf rule event = some target) :
      (event.1, target) ∈ rule.events := by
    obtain ⟨before, after, split, _⟩ := List.lookup_eq_some_iff.mp bound
    rw [split]
    exact List.mem_append_right before List.mem_cons_self
  rw [Entries.keys, List.Nodup, List.pairwise_map] at unique
  rw [List.Nodup, List.pairwise_filterMap]
  apply unique.imp
  intro first second other left firstBound right secondBound same
  have pair := List.inj_on_of_nodup_map distinct (listed firstBound) (listed secondBound) same
  exact other (Prod.mk.inj pair).1

/-- Under the standard rules no event of an element is lost to another one. -/
theorem standard_events_keep_callbacks (handlers : Entries String) {element : Element} {kind : Kind}
    {rule : Rule} (mapped : Table.standard.find? kind = some rule)
    (unique : (Entries.keys (element.events.getD [])).Nodup) :
    ∀ event ∈ element.events.getD [], ∀ target, targetOf rule event = some target →
      Entries.find? (elementProperties handlers rule element) target =
        some (.callback (callbackFor handlers event.2)) := by
  have distinct : ∀ rule ∈ standardRules, (rule.events.map Prod.snd).Nodup := by
    decide +kernel
  have apart := nodup_targets (distinct rule (List.mem_of_find?_eq_some mapped)) unique
  intro event mem target bound
  exact keeps_callback handlers rule apart mem bound

end Formwright.Component
