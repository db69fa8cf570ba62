import Formwright.Component.Callback
import Formwright.Form.Reading
import Formwright.Mapping.Application

/-!
Rendering the elements of a form as fragments. What was used and what was lost on the way is kept
also when rendering fails.
-/

namespace Formwright.Component

open Mapping

inductive RenderError
  | missingKind (element : String)
  | unusableName (source : String)
  | tooDeep (element : String) (limit : Nat)
deriving DecidableEq, Repr

def RenderError.message : RenderError → String
  | missingKind element => s!"element '{element}' has no component type"
  | unusableName source => s!"cannot derive a component name from '{source}'"
  | tooDeep element limit => s!"element '{element}' is nested deeper than {limit} levels"

inductive Warning
  | skipped (file message : String)
  | noRule (kind : Kind) (element form : String)
  | noTarget (event element component : String)
  | noHandler (handler event element : String)
deriving DecidableEq, Repr

def Warning.message : Warning → String
  | skipped file message => s!"skipped {file}: {message}"
  | noRule kind element form =>
    s!"no mapping rule for kind '{kind.name}' (element '{element}' in form '{form}')"
  | noTarget event element component =>
    s!"event '{event}' on element '{element}' has no {component} equivalent, dropped"
  | noHandler handler event element =>
    s!"handler '{handler}' bound to '{event}' on element '{element}' was not found in any script"

namespace Warning

@[simp]
theorem message_skipped (file message : String) :
    (skipped file message).message = "skipped " ++ file ++ ": " ++ message := rfl

@[simp]
theorem message_noRule (kind : Kind) (element form : String) :
    (noRule kind element form).message =
      "no mapping rule for kind '" ++ kind.name ++ "' (element '" ++ element ++ "' in form '" ++
        form ++ "')" := rfl

@[simp]
theorem message_noTarget (event element component : String) :
    (noTarget event element component).message =
      "event '" ++ event ++ "' on element '" ++ element ++ "' has no " ++ component ++
        " equivalent, dropped" := rfl

@[simp]
theorem message_noHandler (handler event element : String) :
    (noHandler handler event element).message =
      "handler '" ++ handler ++ "' bound to '" ++ event ++ "' on element '" ++ element ++
        "' was not found in any script" := rfl

end Warning

structure Trace where
  components : List String := []
  warnings : List Warning := []
deriving Repr

/-- A failure keeps the trace up to it. -/
abbrev Rendering := ExceptT RenderError (StateM Trace)

def warn (warnings : List Warning) : Rendering Unit :=
  modify fun trace => { trace with warnings := trace.warnings ++ warnings }

def useComponent (component : String) : Rendering Unit :=
  modify fun trace => { trace with components := trace.components ++ [component] }

structure Setting where
  table : Table
  handlers : Entries String
  form : String

/-- The id is offered to the rule before the declared properties. -/
def declaredProperties (element : Element) : List (String × PropertyValue) :=
  if element.id.isEmpty || Entries.contains element.properties "id" then element.properties
  else ("id", .text element.id) :: element.properties

def callbackFor (handlers : Entries String) (handler : String) : String :=
  match Entries.find? handlers handler with
  | some body => inlineFunction body
  | none => handlerName handler

def bindEvent (handlers : Entries String) (rule : Rule) (properties : Entries Value)
    (event : String × String) : Entries Value :=
  match Entries.find? rule.events event.1 with
  | some target => Entries.insert properties target (.callback (callbackFor handlers event.2))
  | none => properties

def eventWarnings (handlers : Entries String) (rule : Rule) (element : String)
    (event : String × String) : List Warning :=
  match Entries.find? rule.events event.1 with
  | none => [.noTarget event.1 element rule.component]
  | some _ =>
    if Entries.contains handlers event.2 then [] else [.noHandler event.2 event.1 element]

def elementProperties (handlers : Entries String) (rule : Rule) (element : Element) :
    Entries Value :=
  (element.events.getD []).foldl (bindEvent handlers rule)
    (rule.apply (declaredProperties element))

mutual

/-- `depth` counts from one. Below an element without a rule nothing is looked at. -/
def renderTree (setting : Setting) (depth : Nat) : Element → Rendering String
  | ⟨id, kind, properties, events, children⟩ => do
    let element : Element := ⟨id, kind, properties, events, children⟩
    if elementDepthLimit < depth then throw (.tooDeep id elementDepthLimit)
    match kind with
    | none => throw (.missingKind id)
    | some kind =>
      match setting.table.find? kind with
      | none =>
        warn [.noRule kind id setting.form]
        return unsupportedNote kind id
      | some rule =>
        warn ((events.getD []).flatMap (eventWarnings setting.handlers rule id))
        useComponent rule.component
        let nested ← renderTrees setting (depth + 1) children
        return renderTag rule.component (elementProperties setting.handlers rule element) nested

def renderTrees (setting : Setting) (depth : Nat) : List Element → Rendering (List String)
  | [] => return []
  | element :: later => do
    let fragment ← renderTree setting depth element
    return fragment :: (← renderTrees setting depth later)

end

def renderRoot (setting : Setting) (form : Form) (nested : List String) : Rendering String :=
  match setting.table.find? .form with
  | some rule => do
    useComponent rule.component
    return renderTag rule.component (rule.apply form.properties) nested
  | none => return renderTag "div" [] nested

end Formwright.Component
