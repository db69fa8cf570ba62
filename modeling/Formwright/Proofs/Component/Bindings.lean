import Formwright.Proofs.Component.Imports
import Formwright.Proofs.Component.Spelling

/-!
The names that the code of a unit binds: its imports, the component that it defines and, in the
component, one constant for each handler of the batch. Nothing keeps two of them apart.
-/

namespace Formwright.Component

open Mapping Text

variable {table : Table} {options : Options} {batch : Batch} {unit : CodeUnit}

/-- Every unit of a batch is what one of its forms gives. -/
theorem form_of_unit (mem : unit ∈ (convertBatch table options batch).units) :
    ∃ form ∈ batch.forms, (convertForm table options batch.handlers form).units = [unit] := by
  have units := (convertBatch_flatMap table options batch.handlers batch.forms batch.skipped).1
  rw [show (convertBatch table options batch).units = _ from units] at mem
  obtain ⟨form, listed, given⟩ := List.mem_flatMap.mp mem
  refine ⟨form, listed, ?_⟩
  rw [convertBatch_single] at given
  obtain ⟨_, other, units, _⟩ | ⟨cause, _, units, _⟩ :=
    convertForm_cases table options batch.handlers form
  · rw [units] at given ⊢
    rw [List.mem_singleton.mp given]
  · rw [units] at given
    cases given

theorem exists_unit_of_single {form : Form} (handlers : Entries String)
    (clear : obstacle table form = none) :
    ∃ unit, (convertBatch table options ⟨[form], handlers, []⟩).units = [unit] := by
  rw [convertBatch_single]
  exact exists_unit table options handlers clear

theorem importsOf_react (components : List String) :
    ∃ others, importsOf components = "React" :: others ∧ "React" ∉ others := by
  refine ⟨_, by rw [importsOf, distinct_eq, List.eraseDups_cons], ?_⟩
  rw [List.mem_eraseDups, List.mem_filter]
  rintro ⟨_, other⟩
  cases other

/-- A unit as far as its names go: it imports, defines a component and opens with the constants of
the handlers. -/
theorem code_of_unit {form : Form}
    (given : (convertForm table options batch.handlers form).units = [unit]) :
    ∃ tree, unit.code =
      String.join (unit.imports.map importLine) ++ "\n" ++
        componentHead options.format unit.name ++
        String.join (batch.handlers.map (handlerBlock options.format)) ++
        "  return (\n" ++ tree := by
  obtain ⟨rendered, trace, _, rfl⟩ := unit_of_convertForm table options batch.handlers given
  obtain ⟨others, first, fresh⟩ := importsOf_react trace.components
  have code := code_of_unitOf options batch.handlers rendered first fresh
  rw [← first] at code
  rw [code]
  exact ⟨_, by simp only [String.append_assoc]; rfl⟩

/-! ## Handlers -/

theorem namedFunction_start (format : Format) (handler : String × String) :
    ∃ tail later, namedFunction handler.1 handler.2 format =
      ("const " ++ handlerName handler.1 ++ " = (" ++ parameter format ++ ") => \x7b" ++ tail) ::
        later := by
  unfold namedFunction
  split
  next => exact ⟨"\x7d;", [], rfl⟩
  next =>
    refine ⟨"", (indentedLines (bodyLines handler.2)).map String.ofList ++ ["\x7d;"], ?_⟩
    rw [String.append_empty]
    rfl

/-- The block of a handler declares the constant that is named after it. -/
theorem handlerBlock_start (format : Format) (handler : String × String) :
    ∃ rest, handlerBlock format handler =
      "  const " ++ handlerName handler.1 ++ " = (" ++ parameter format ++ ") => \x7b" ++ rest := by
  obtain ⟨tail, later, lines⟩ := namedFunction_start format handler
  have filled : ("const " ++ handlerName handler.1 ++ " = (" ++ parameter format ++ ") => \x7b" ++
      tail).isEmpty = false := by
    simp
  rw [handlerBlock, lines]
  simp only [List.map_cons, filled, Bool.false_eq_true, if_false, String.join_cons]
  have indented : "  const " = "  " ++ "const " := by decide
  rw [indented]
  exact ⟨_, by simp only [String.append_assoc]; rfl⟩

theorem handlerName_eq_iff (first second : String) :
    handlerName first = handlerName second ↔ spelling first = spelling second := by
  unfold handlerName
  rw [String.append_right_inj, ← String.toList_inj, toList_pascalCase, toList_pascalCase]

/-- Two functions that agree on which members of a list differ give lists without repetitions
together. -/
theorem nodup_map_congr {α β γ : Type} {members : List α} {f : α → β} {g : α → γ}
    (agree : ∀ first ∈ members, ∀ second ∈ members, f first = f second ↔ g first = g second) :
    (members.map f).Nodup ↔ (members.map g).Nodup := by
  unfold List.Nodup
  rw [List.pairwise_map, List.pairwise_map]
  apply List.Pairwise.iff_of_mem
  intro first second firstMem secondMem
  exact not_congr (agree first firstMem second secondMem)

/-- A unit declares one constant for each handler of the batch, one behind the other. Two of them
have one name exactly when the names of the handlers are spelled alike. For ASCII names, this is when
they have the same letters and digits, whatever their case, and the same letters begin words. -/
theorem constants_clash_as_names_read (mem : unit ∈ (convertBatch table options batch).units) :
    let handlers := batch.handlers
    let constant (handler : String × String) := handlerName handler.1
    (∃ tree, unit.code =
      String.join (unit.imports.map importLine) ++ "\n" ++
        componentHead options.format unit.name ++
        String.join (handlers.map (handlerBlock options.format)) ++ "  return (\n" ++ tree) ∧
    (∀ handler ∈ handlers, ∃ rest, handlerBlock options.format handler =
      "  const " ++ constant handler ++ " = (" ++ parameter options.format ++ ") => \x7b" ++ rest) ∧
    (∀ first ∈ handlers, ∀ second ∈ handlers,
      constant first = constant second ↔ spelling first.1 = spelling second.1) ∧
    ((∀ handler ∈ handlers, IsAscii handler.1) →
      (∀ first ∈ handlers, ∀ second ∈ handlers,
        constant first = constant second ↔ reading first.1 = reading second.1) ∧
      ((handlers.map constant).Nodup ↔ (handlers.map fun handler => reading handler.1).Nodup)) := by
  intro handlers constant
  obtain ⟨form, _, given⟩ := form_of_unit mem
  refine ⟨code_of_unit given, ?_, ?_, ?_⟩
  next => exact fun handler _ => handlerBlock_start options.format handler
  next => exact fun first _ second _ => handlerName_eq_iff first.1 second.1
  next =>
    intro ascii
    have reads : ∀ first ∈ handlers, ∀ second ∈ handlers,
        constant first = constant second ↔ reading first.1 = reading second.1 := by
      intro first firstMem second secondMem
      rw [← pascalCase_eq_iff (ascii first firstMem) (ascii second secondMem)]
      exact String.append_right_inj "handle"
    exact ⟨reads, nodup_map_congr reads⟩

def twoHandlers (first second : String) : Batch where
  forms := [⟨"main", "", [], []⟩]
  handlers := [(first, "a();"), (second, "b();")]
  skipped := []

theorem differentReadings_stay_apart :
    let batch := twoHandlers "go_up" "goDown"
    ∃ unit, (convertBatch .standard {} batch).units = [unit] ∧
      (batch.handlers.map (handlerName ·.1)).Nodup := by
  intro batch
  obtain ⟨unit, given⟩ : ∃ unit, (convertBatch .standard {} batch).units = [unit] :=
    exists_unit_of_single batch.handlers (by decide +kernel)
  have mem : unit ∈ (convertBatch .standard {} batch).units := given ▸ List.mem_singleton_self unit
  obtain ⟨_, _, _, ascii⟩ := constants_clash_as_names_read mem
  exact ⟨unit, given, (ascii (by decide +kernel)).2.mpr (by decide +kernel)⟩

/-- Two names of handlers of which a unit makes the same constant. -/
theorem namesakes_share_constant :
    let batch := twoHandlers "go_up" "goUp"
    "go_up" ≠ "goUp" ∧ handlerName "go_up" = handlerName "goUp" ∧
      ∃ unit before behind, (convertBatch .standard ⟨.jsx, "ui"⟩ batch).units = [unit] ∧
        unit.code = before ++
          ("  const handleGoUp = (e) => \x7b\n    a();\n  \x7d;\n\n" ++
            "  const handleGoUp = (e) => \x7b\n    b();\n  \x7d;\n\n") ++
          "  return (\n" ++ behind := by
  intro batch
  have blocks : String.join (batch.handlers.map (handlerBlock .jsx)) =
      "  const handleGoUp = (e) => \x7b\n    a();\n  \x7d;\n\n" ++
        "  const handleGoUp = (e) => \x7b\n    b();\n  \x7d;\n\n" := by
    decide +kernel
  obtain ⟨unit, given⟩ : ∃ unit, (convertBatch .standard ⟨.jsx, "ui"⟩ batch).units = [unit] :=
    exists_unit_of_single batch.handlers (by decide +kernel)
  have mem : unit ∈ (convertBatch .standard ⟨.jsx, "ui"⟩ batch).units :=
    given ▸ List.mem_singleton_self unit
  obtain ⟨form, _, made⟩ := form_of_unit mem
  obtain ⟨tree, code⟩ := code_of_unit made
  rw [blocks] at code
  refine ⟨by decide, ?_, unit, _, tree, given, code⟩
  exact (handlerName_eq_iff _ _).mpr (by decide +kernel)

/-! ## Imports -/

theorem isIntrinsic_pascalCase (text : String) : isIntrinsic (pascalCase text) = false := by
  rw [isIntrinsic, pascalCase, String.toList_ofList]
  cases found : words (separateCases text.toList) with
  | nil => rfl
  | cons word others =>
    have filled : (!word.isEmpty) = true := by
      have mem : word ∈ words (separateCases text.toList) := found ▸ List.mem_cons_self
      exact (List.mem_filter.mp mem).2
    cases word with
    | nil => cases filled
    | cons c rest =>
      obtain ⟨first, later, start⟩ := List.exists_cons_of_ne_nil (capital_ne_nil c)
      have capitalLetter : first.isLower = false :=
        isLower_of_mem_capital (start ▸ List.mem_cons_self)
      rw [List.flatMap_cons, capitalise, start]
      exact capitalLetter

theorem mem_importsOf {name : String} {components : List String}
    (outside : isIntrinsic name = false) :
    name ∈ importsOf components ↔ name = "React" ∨ name ∈ components := by
  unfold importsOf
  rw [distinct_eq, List.mem_eraseDups, List.mem_cons, List.mem_filter, outside]
  simp

theorem component_of_find {kind : Kind} {rule : Rule} (found : table.find? kind = some rule) :
    rule.component ∈ table.rules.map Rule.component :=
  List.mem_map_of_mem (List.mem_of_find?_eq_some found)

theorem components_of_table (elements : List Element) :
    ∀ component ∈ (visitedTrees table 1 elements).filterMap (componentOf table ·.2) ++
      rootComponents table, component ∈ table.rules.map Rule.component := by
  intro component mem
  rcases List.mem_append.mp mem with used | container
  next =>
    obtain ⟨place, _, given⟩ := List.mem_filterMap.mp used
    obtain ⟨rule, bound, rfl⟩ := Option.map_eq_some_iff.mp given
    obtain ⟨kind, _, found⟩ := Option.bind_eq_some_iff.mp bound
    exact component_of_find found
  next =>
    obtain ⟨rule, found, rfl⟩ := Option.map_eq_some_iff.mp (Option.mem_toList.mp container)
    exact component_of_find found

/-- A unit is named after its form and binds, beside that name, those that it imports, no two of
which are the same. Its own name is among them exactly when it is the one of React, of a component
in use or of the container. That takes a form that is named like a component of the table. -/
theorem names_clash_with_used_components
    (mem : unit ∈ (convertBatch table options batch).units) :
    let used (form : Form) :=
      (visitedTrees table 1 form.elements).filterMap (componentOf table ·.2)
    ∃ form ∈ batch.forms, unitName form = some unit.name ∧
      ((unit.name :: unit.imports).Nodup ↔
        unit.name ≠ "React" ∧ unit.name ∉ used form ++ rootComponents table) ∧
      (unit.name ∉ "React" :: table.rules.map Rule.component →
        (unit.name :: unit.imports).Nodup) ∧
      ∃ tree, unit.code =
        String.join (unit.imports.map importLine) ++ "\n" ++
          componentHead options.format unit.name ++
          String.join (batch.handlers.map (handlerBlock options.format)) ++
          "  return (\n" ++ tree := by
  intro used
  obtain ⟨form, listed, given⟩ := form_of_unit mem
  obtain ⟨tree, code⟩ := code_of_unit given
  obtain ⟨rendered, trace, ended, rfl⟩ := unit_of_convertForm table options batch.handlers given
  have named : unitName form = some rendered.1 := name_of_renderForm ended
  obtain ⟨derived, _⟩ := unitName_eq_some.mp named
  have outside : isIntrinsic rendered.1 = false := derived ▸ isIntrinsic_pascalCase _
  have once : (importsOf trace.components).Nodup := by
    rw [importsOf, distinct_eq]
    exact Entries.nodup_eraseDups _
  have components : trace.components = used form ++ rootComponents table :=
    components_of_renderForm ended
  have apart : (rendered.1 :: importsOf trace.components).Nodup ↔
      rendered.1 ≠ "React" ∧ rendered.1 ∉ used form ++ rootComponents table := by
    rw [List.nodup_cons, mem_importsOf outside, not_or, components]
    exact and_iff_left (components ▸ once)
  refine ⟨form, listed, named, apart, ?_, tree, code⟩
  intro foreign
  rw [List.mem_cons, not_or] at foreign
  exact apart.mpr (foreign.imp_right fun other used =>
    other (components_of_table form.elements _ used))

def formNamed (id : String) (elements : List Element) : Batch where
  forms := [⟨id, "", [], elements⟩]
  handlers := []
  skipped := []

theorem orders_form_binds_once :
    let batch := formNamed "orders" [⟨"list", some .grid, [], none, []⟩]
    ∃ unit, (convertBatch .standard {} batch).units = [unit] ∧
      unit.name = "Orders" ∧ (unit.name :: unit.imports).Nodup := by
  intro batch
  have bound : (convertBatch .standard {} batch).units.map (·.name) = ["Orders"] := by
    decide +kernel
  obtain ⟨unit, given, name⟩ := List.map_eq_singleton_iff.mp bound
  have mem : unit ∈ (convertBatch .standard {} batch).units :=
    given ▸ List.mem_singleton_self unit
  obtain ⟨_, _, _, _, apart, _⟩ := names_clash_with_used_components mem
  have foreign : unit.name ∉ "React" :: Table.standard.rules.map Rule.component := by
    rw [name]
    decide +kernel
  exact ⟨unit, given, name, apart foreign⟩

/-- The component of one form takes the name of React, the one of another the name of the component
for its only element. Nothing is reported. -/
theorem react_form_redeclares_import :
    let convert (batch : Batch) := convertBatch .standard ⟨.jsx, "ui"⟩ batch
    let react := convert (formNamed "react" [])
    let tabs := convert (formNamed "tabs" [⟨"pages", some .tab, [], none, []⟩])
    (∃ unit tree, react.units = [unit] ∧ unit.name = "React" ∧ unit.imports = ["React"] ∧
      unit.code = "import React from 'react';\n" ++ "\n" ++ "const React = () => \x7b\n" ++
        "  return (\n" ++ tree) ∧
    (tabs.units.map fun unit => (unit.name, unit.imports)) = [("Tabs", ["React", "Tabs"])] ∧
    (react.errors = [] ∧ react.warnings = []) ∧ tabs.errors = [] ∧ tabs.warnings = [] := by
  intro convert react tabs
  refine ⟨?_, by decide +kernel, by decide +kernel⟩
  have bound : (react.units.map fun unit => (unit.name, unit.imports)) = [("React", ["React"])] := by
    decide +kernel
  obtain ⟨unit, given, names⟩ := List.map_eq_singleton_iff.mp bound
  obtain ⟨name, imports⟩ := Prod.mk.inj names
  have mem : unit ∈ react.units := given ▸ List.mem_singleton_self unit
  obtain ⟨form, _, made⟩ := form_of_unit mem
  obtain ⟨tree, code⟩ := code_of_unit made
  have line : String.join (["React"].map importLine) = "import React from 'react';\n" := by
    rw [List.map_singleton, String.join_cons, importLine_react]
    rfl
  rw [name, imports, line] at code
  exact ⟨unit, tree, given, name, imports, code⟩

end Formwright.Component
