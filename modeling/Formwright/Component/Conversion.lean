import Formwright.Component.Rendering
import Formwright.Form.Batch
import Formwright.Json.Pretty
import Formwright.Mapping.Standard

/-!
Conversion of a batch: one source file for every form that can be rendered, one error for every
other form, and warnings. An outcome is also told as a JSON document.
-/

namespace Formwright.Component

open Mapping

structure Options where
  format : Format := .tsx
  /-- The directory that every path of a unit begins with. -/
  directory : String := "src/components"
deriving Repr

structure CodeUnit where
  name : String
  path : String
  code : String
  imports : List String
  dependencies : List String
deriving DecidableEq, Repr, Inhabited

structure FormError where
  form : String
  cause : RenderError
deriving DecidableEq, Repr

structure Outcome where
  units : List CodeUnit
  errors : List FormError
  warnings : List Warning
deriving Repr

def Outcome.success (outcome : Outcome) : Bool := outcome.errors.isEmpty

/-- Components that the platform itself provides begin with a small ASCII letter. -/
def isIntrinsic (component : String) : Bool := component.toList.head?.any Char.isLower

def distinctAfter (seen : List String) : List String → List String
  | [] => []
  | text :: later =>
    if seen.contains text then distinctAfter seen later
    else text :: distinctAfter (text :: seen) later

def distinct (texts : List String) : List String := distinctAfter [] texts

def packageName (component : String) : String :=
  String.ofList (Text.lowercase component.toList)

def importsOf (components : List String) : List String :=
  distinct ("React" :: components.filter (!isIntrinsic ·))

def dependenciesOf (components : List String) : List String :=
  distinct ((components.filter (!isIntrinsic ·)).map packageName)

def importLine (component : String) : String :=
  "import " ++ component ++ " from '" ++ packageName component ++ "';\n"

def componentHead (format : Format) (name : String) : String :=
  match format with
  | .tsx =>
    "interface " ++ name ++ "Props \x7b\x7d\n\nconst " ++ name ++ ": React.FC<" ++ name ++
      "Props> = () => \x7b\n"
  | .jsx => "const " ++ name ++ " = () => \x7b\n"

def handlerBlock (format : Format) (handler : String × String) : String :=
  let lines := (namedFunction handler.1 handler.2 format).map fun line =>
    (if line.isEmpty then "" else "  " ++ line) ++ "\n"
  String.join lines ++ "\n"

/-- Every handler of the batch is declared, used or not. -/
def unitCode (format : Format) (handlers : Entries String) (imports : List String)
    (name tree : String) : String :=
  "import React from 'react';\n" ++
    String.join ((imports.filter (· != "React")).map importLine) ++ "\n" ++
    componentHead format name ++
    String.join (handlers.map (handlerBlock format)) ++
    "  return (\n" ++ shiftFragment tree [' ', ' ', ' ', ' '] ++ "\n  );\n" ++
    "\x7d;\n\n" ++ "export default " ++ name ++ ";\n"

def trimSlashes (directory : String) : String :=
  String.ofList ((directory.toList.reverse.dropWhile (· == '/')).reverse)

def unitPath (options : Options) (name : String) : String :=
  trimSlashes options.directory ++ "/" ++ name ++ "." ++ options.format.suffix

def renderForm (setting : Setting) (form : Form) : Rendering (String × String) := do
  match unitName form with
  | none => throw (.unusableName (nameSource form))
  | some name =>
    let nested ← renderTrees setting 1 form.elements
    return (name, ← renderRoot setting form nested)

def unitOf (options : Options) (handlers : Entries String) (components : List String)
    (rendered : String × String) : CodeUnit where
  name := rendered.1
  path := unitPath options rendered.1
  code := unitCode options.format handlers (importsOf components) rendered.1 rendered.2
  imports := importsOf components
  dependencies := dependenciesOf components

def convertForm (table : Table) (options : Options) (handlers : Entries String) (form : Form) :
    Outcome :=
  let (result, trace) := (renderForm ⟨table, handlers, form.id⟩ form).run.run {}
  match result with
  | .ok rendered => ⟨[unitOf options handlers trace.components rendered], [], trace.warnings⟩
  | .error cause => ⟨[], [⟨form.id, cause⟩], trace.warnings⟩

def Outcome.append (first second : Outcome) : Outcome :=
  ⟨first.units ++ second.units, first.errors ++ second.errors, first.warnings ++ second.warnings⟩

def skippedOutcome (skipped : List Skipped) : Outcome :=
  ⟨[], [], skipped.map fun input => .skipped input.file input.message⟩

def convertBatch (table : Table) (options : Options) (batch : Batch) : Outcome :=
  batch.forms.foldl
    (fun outcome form => outcome.append (convertForm table options batch.handlers form))
    (skippedOutcome batch.skipped)

def convertTexts (table : Table) (options : Options) (documents scripts : Entries String) :
    Outcome :=
  convertBatch table options (Batch.ofSources documents scripts)

/-! ## Documents -/

def textList (texts : List String) : Json := .list (texts.map Json.text)

def CodeUnit.summary (unit : CodeUnit) : Json :=
  .record [("name", .text unit.name), ("path", .text unit.path), ("code", .text unit.code),
    ("imports", textList unit.imports), ("dependencies", textList unit.dependencies)]

def FormError.summary (error : FormError) : Json :=
  .record [("componentId", .text error.form), ("message", .text error.cause.message)]

def optionalField (name : String) (items : List Json) : List (String × Json) :=
  if items.isEmpty then [] else [(name, .list items)]

def Outcome.summary (outcome : Outcome) : Json :=
  .record ([("success", .flag outcome.success),
    ("units", .list (outcome.units.map CodeUnit.summary))] ++
    optionalField "errors" (outcome.errors.map FormError.summary) ++
    optionalField "warnings" (outcome.warnings.map fun warning => Json.text warning.message))

end Formwright.Component
