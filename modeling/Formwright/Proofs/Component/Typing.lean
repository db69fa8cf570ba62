import Formwright.Proofs.Component.Bindings
import Mathlib.Data.List.Forall2

/-!
The two formats. Whatever the format, the code of a unit is the same list of parts. Some of them are
type annotations, and the format without types leaves these out; nothing else of an outcome but the
endings of the paths depends on the format.
-/

namespace Formwright.Component

open Mapping

/-! ## Parts -/

inductive CodePart
  | plain (text : String)
  /-- Only there if the format has types. -/
  | typing (text : String)

def CodePart.written : Format → CodePart → String
  | _, .plain text => text
  | .tsx, .typing text => text
  | .jsx, .typing _ => ""

@[simp]
theorem written_plain (format : Format) (text : String) :
    (CodePart.plain text).written format = text := by
  cases format <;> rfl

def CodePart.typing? : CodePart → Option String
  | .plain _ => none
  | .typing text => some text

def writtenParts (format : Format) (parts : List CodePart) : String :=
  String.join (parts.map (CodePart.written format))

theorem writtenParts_append (format : Format) (first second : List CodePart) :
    writtenParts format (first ++ second) =
      writtenParts format first ++ writtenParts format second := by
  rw [writtenParts, List.map_append, String.join_append]
  rfl

theorem writtenParts_cons (format : Format) (part : CodePart) (parts : List CodePart) :
    writtenParts format (part :: parts) = part.written format ++ writtenParts format parts := by
  rw [writtenParts, List.map_cons, String.join_cons]
  rfl

theorem writtenParts_nil (format : Format) : writtenParts format [] = "" := rfl

/-! ## Heads -/

def headParts (name : String) : List CodePart :=
  [.typing ("interface " ++ name ++ "Props \x7b\x7d\n\n"), .plain ("const " ++ name),
    .typing (": React.FC<" ++ name ++ "Props>"), .plain " = () => \x7b\n"]

theorem componentHead_eq (format : Format) (name : String) :
    componentHead format name = writtenParts format (headParts name) := by
  cases format with
  | tsx =>
    have opened : "Props \x7b\x7d\n\nconst " = "Props \x7b\x7d\n\n" ++ "const " := by decide
    have closed : "Props> = () => \x7b\n" = "Props>" ++ " = () => \x7b\n" := by decide
    simp only [componentHead, opened, closed, headParts, writtenParts_cons, writtenParts_nil,
      CodePart.written, String.append_assoc, String.append_empty]
  | jsx =>
    simp only [componentHead, headParts, writtenParts_cons, writtenParts_nil, CodePart.written,
      String.append_assoc, String.append_empty, String.empty_append]

/-! ## Handlers -/

def blockLine (line : String) : String := (if line.isEmpty then "" else "  " ++ line) ++ "\n"

def functionRest (body : String) : String :=
  match bodyLines body with
  | [] => ") => \x7b\x7d;\n\n"
  | lines =>
    ") => \x7b\n" ++ String.join ((indentedLines lines).map (blockLine ∘ String.ofList)) ++
      "  \x7d;\n\n"

def handlerParts (handler : String × String) : List CodePart :=
  [.plain ("  const " ++ handlerName handler.1 ++ " = (e"), .typing ": React.SyntheticEvent",
    .plain (functionRest handler.2)]

theorem parameter_eq (format : Format) :
    parameter format = "e" ++ (CodePart.typing ": React.SyntheticEvent").written format := by
  cases format <;> decide

theorem blockLine_const (rest : String) :
    blockLine ("const " ++ rest) = "  const " ++ rest ++ "\n" := by
  have filled : ("const " ++ rest).isEmpty = false := by simp
  have indented : "  const " = "  " ++ "const " := by decide
  rw [blockLine, filled, indented]
  simp only [String.append_assoc]
  rfl

/-- The block of a handler has one annotation, that of its parameter. -/
theorem handlerBlock_eq (format : Format) (handler : String × String) :
    handlerBlock format handler = writtenParts format (handlerParts handler) := by
  have lines : handlerBlock format handler =
      String.join ((namedFunction handler.1 handler.2 format).map blockLine) ++ "\n" := rfl
  have opened : " = (e" = " = (" ++ "e" := by decide
  rw [lines, namedFunction, handlerParts, functionRest, parameter_eq, opened]
  cases bodyLines handler.2 with
  | nil =>
    have closed : ") => \x7b\x7d;\n\n" = ") => \x7b" ++ ("\x7d;" ++ ("\n" ++ "\n")) := by decide
    simp only [closed, List.map_cons, List.map_nil, String.append_assoc, blockLine_const,
      String.join_cons, String.join_nil, String.append_empty, writtenParts_cons, writtenParts_nil,
      written_plain]
  | cons line later =>
    have begun : ") => \x7b\n" = ") => \x7b" ++ "\n" := by decide
    have closed : "  \x7d;\n\n" = blockLine "\x7d;" ++ "\n" := by decide
    simp only [begun, closed, List.map_cons, List.map_append, List.map_map, List.map_nil,
      String.append_assoc, blockLine_const, String.join_cons, String.join_append, String.join_nil,
      String.append_empty, writtenParts_cons, writtenParts_nil, written_plain]

theorem writtenParts_flatMap (format : Format) (handlers : Entries String) :
    writtenParts format (handlers.flatMap handlerParts) =
      String.join (handlers.map (handlerBlock format)) := by
  induction handlers with
  | nil => rfl
  | cons handler later ih =>
    rw [List.flatMap_cons, writtenParts_append, ih, List.map_cons, String.join_cons,
      handlerBlock_eq]

/-! ## Units -/

def unitParts (handlers : Entries String) (imports : List String) (name tail : String) :
    List CodePart :=
  .plain (String.join (imports.map importLine) ++ "\n") :: headParts name ++
    handlers.flatMap handlerParts ++ [.plain tail]

/-- All that an untyped unit lacks, in the order in which it stands in a typed one. -/
theorem typings_unitParts (handlers : Entries String) (imports : List String)
    (name tail : String) :
    (unitParts handlers imports name tail).filterMap CodePart.typing? =
      ["interface " ++ name ++ "Props \x7b\x7d\n\n", ": React.FC<" ++ name ++ "Props>"] ++
        handlers.map fun _ => ": React.SyntheticEvent" := by
  have inHandlers : (handlers.flatMap handlerParts).filterMap CodePart.typing? =
      handlers.map fun _ => ": React.SyntheticEvent" := by
    induction handlers with
    | nil => rfl
    | cons handler later ih =>
      rw [List.flatMap_cons, List.filterMap_append, ih]
      rfl
  rw [unitParts, List.filterMap_append, List.filterMap_append, inHandlers]
  exact List.append_nil _

theorem code_of_parts (options : Options) (handlers : Entries String) (components : List String)
    (rendered : String × String) :
    ∃ tail, ∀ format, (unitOf { options with format } handlers components rendered).code =
      writtenParts format (unitParts handlers (importsOf components) rendered.1 tail) := by
  refine ⟨"  return (\n" ++ (shiftFragment rendered.2 [' ', ' ', ' ', ' '] ++ ("\n  );\n" ++
    ("\x7d;\n\n" ++ ("export default " ++ (rendered.1 ++ ";\n"))))), fun format => ?_⟩
  obtain ⟨others, first, fresh⟩ := importsOf_react components
  have code := code_of_unitOf { options with format } handlers rendered first fresh
  rw [first, code, unitParts, writtenParts_append, writtenParts_append, writtenParts_flatMap,
    writtenParts_cons, ← componentHead_eq, writtenParts_cons, writtenParts_nil, String.append_empty,
    written_plain, written_plain]
  simp only [String.append_assoc]

structure DiffersInTypes (directory : String) (handlers : Entries String)
    (typed untyped : CodeUnit) : Prop where
  name : untyped.name = typed.name
  imports : untyped.imports = typed.imports
  dependencies : untyped.dependencies = typed.dependencies
  path : ∃ stem, stem = trimSlashes directory ++ "/" ++ typed.name ∧
    typed.path = stem ++ ".tsx" ∧ untyped.path = stem ++ ".jsx"
  code : ∃ tail, typed.code =
      writtenParts .tsx (unitParts handlers typed.imports typed.name tail) ∧
    untyped.code = writtenParts .jsx (unitParts handlers typed.imports typed.name tail)

theorem differsInTypes_unitOf (directory : String) (handlers : Entries String)
    (components : List String) (rendered : String × String) :
    DiffersInTypes directory handlers (unitOf ⟨.tsx, directory⟩ handlers components rendered)
      (unitOf ⟨.jsx, directory⟩ handlers components rendered) := by
  obtain ⟨tail, code⟩ := code_of_parts ⟨.tsx, directory⟩ handlers components rendered
  refine ⟨rfl, rfl, rfl, ⟨_, rfl, ?_, ?_⟩, ⟨tail, code .tsx, code .jsx⟩⟩
  · exact String.append_assoc
  · exact String.append_assoc

structure SameButTypes (directory : String) (handlers : Entries String)
    (typed untyped : Outcome) : Prop where
  errors : untyped.errors = typed.errors
  warnings : untyped.warnings = typed.warnings
  units : List.Forall₂ (DiffersInTypes directory handlers) typed.units untyped.units

theorem sameButTypes_convertForm (table : Table) (directory : String) (handlers : Entries String)
    (form : Form) :
    SameButTypes directory handlers (convertForm table ⟨.tsx, directory⟩ handlers form)
      (convertForm table ⟨.jsx, directory⟩ handlers form) := by
  unfold convertForm
  generalize (renderForm ⟨table, handlers, form.id⟩ form).run.run {} = ended
  obtain ⟨result, trace⟩ := ended
  cases result with
  | error cause => exact ⟨rfl, rfl, .nil⟩
  | ok rendered => exact ⟨rfl, rfl, .cons (differsInTypes_unitOf ..) .nil⟩

theorem SameButTypes.append {directory : String} {handlers : Entries String}
    {typed untyped typed' untyped' : Outcome} (before : SameButTypes directory handlers typed untyped)
    (after : SameButTypes directory handlers typed' untyped') :
    SameButTypes directory handlers (typed.append typed') (untyped.append untyped') where
  errors := congrArg₂ (· ++ ·) before.errors after.errors
  warnings := congrArg₂ (· ++ ·) before.warnings after.warnings
  units := List.rel_append before.units after.units

theorem sameButTypes_foldl (table : Table) (directory : String) (handlers : Entries String)
    (forms : List Form) {typed untyped : Outcome}
    (start : SameButTypes directory handlers typed untyped) :
    SameButTypes directory handlers
      (forms.foldl (fun outcome form =>
        outcome.append (convertForm table ⟨.tsx, directory⟩ handlers form)) typed)
      (forms.foldl (fun outcome form =>
        outcome.append (convertForm table ⟨.jsx, directory⟩ handlers form)) untyped) := by
  induction forms generalizing typed untyped with
  | nil => exact start
  | cons form later ih =>
    exact ih (start.append (sameButTypes_convertForm table directory handlers form))

/-- The format decides on types and on the endings of paths, and on nothing else. With types and
without, a batch gives the same errors and warnings, and units of the same names, imports and
dependencies. The paths of two such units differ in their extension. Their code is the same up to
the annotations: the interface of the component, its type, and the type of the parameter of each
handler. -/
theorem format_changes_types_only (table : Table) (directory : String) (batch : Batch) :
    let typed := convertBatch table ⟨.tsx, directory⟩ batch
    let untyped := convertBatch table ⟨.jsx, directory⟩ batch
    (untyped.success = typed.success ∧ untyped.errors = typed.errors ∧
      untyped.warnings = typed.warnings) ∧
    untyped.units.length = typed.units.length ∧
    List.Forall₂ (DiffersInTypes directory batch.handlers) typed.units untyped.units ∧
    ∀ imports name tail,
      (unitParts batch.handlers imports name tail).filterMap CodePart.typing? =
        ["interface " ++ name ++ "Props \x7b\x7d\n\n", ": React.FC<" ++ name ++ "Props>"] ++
          batch.handlers.map fun _ => ": React.SyntheticEvent" := by
  intro typed untyped
  have skipped : SameButTypes directory batch.handlers (skippedOutcome batch.skipped)
      (skippedOutcome batch.skipped) := ⟨rfl, rfl, .nil⟩
  have same : SameButTypes directory batch.handlers typed untyped :=
    sameButTypes_foldl table directory batch.handlers batch.forms skipped
  refine ⟨⟨?_, same.errors, same.warnings⟩, same.units.length_eq.symm, same.units, ?_⟩
  · exact congrArg List.isEmpty same.errors
  · exact typings_unitParts batch.handlers

end Formwright.Component
