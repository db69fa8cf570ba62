import Formwright.Proofs.Component.Traces
import Formwright.Proofs.Entries

/-!
Imports of a unit: those of the components that its tree uses, each once, where it is used first.
-/

namespace Formwright.Component

open Mapping

open Entries (nodup_eraseDups)

variable (table : Table) (options : Options) (handlers : Entries String)

/-! ## First occurrences -/

theorem distinctAfter_eq (seen texts : List String) :
    distinctAfter seen texts = (texts.filter fun text => !seen.contains text).eraseDups := by
  induction texts generalizing seen with
  | nil => rfl
  | cons text later ih =>
    rw [distinctAfter, List.filter_cons]
    by_cases known : seen.contains text = true
    · rw [if_pos known, known]
      exact ih seen
    · have fresh : seen.contains text = false := eq_false_of_ne_true known
      have others : ∀ other, (!(text :: seen).contains other) =
          ((!other == text) && !seen.contains other) := by
        intro other
        rw [List.contains_cons, Bool.not_or]
      rw [if_neg known, fresh, ih (text :: seen)]
      simp only [Bool.not_false, if_true, List.eraseDups_cons, List.filter_filter, others]

theorem distinct_eq (texts : List String) : distinct texts = texts.eraseDups := by
  rw [distinct, distinctAfter_eq]
  simp

/-! ## Trees -/

inductive Shape
  | tag (component : String) (properties : Entries Value) (nested : List Shape)
  | note (kind : Kind) (id : String)

mutual

def Shape.text : Shape → String
  | .tag component properties nested => renderTag component properties (shapeTexts nested)
  | .note kind id => unsupportedNote kind id

def shapeTexts : List Shape → List String
  | [] => []
  | shape :: later => shape.text :: shapeTexts later

end

mutual

def Shape.tags : Shape → List String
  | .tag component _ nested => component :: shapeTags nested
  | .note _ _ => []

def shapeTags : List Shape → List String
  | [] => []
  | shape :: later => shape.tags ++ shapeTags later

end

mutual

/-- A tag is written for each element with a rule that is looked at, and for nothing else. -/
theorem shape_of_renderTree {setting : Setting} {depth : Nat} {trace later : Trace}
    {code : String} : (element : Element) →
    (renderTree setting depth element).run.run trace = (.ok code, later) →
    ∃ shape : Shape, shape.text = code ∧
      shape.tags = (visitedTree setting.table depth element).filterMap
        (componentOf setting.table ·.2)
  | ⟨id, kind, properties, events, children⟩ => by
    intro rendered
    rw [renderTree_eq] at rendered
    rw [visitedTree_eq]
    split at rendered
    next => cases rendered
    next =>
      cases kind with
      | none => cases rendered
      | some kind =>
        cases mapped : setting.table.find? kind with
        | none =>
          simp only [mapped] at rendered
          obtain ⟨_, _, _, noted⟩ := ok_of_bind rendered
          cases noted
          refine ⟨.note kind id, by rw [Shape.text], ?_⟩
          simp only [Shape.tags, isEntered, mapped, Option.isSome_none, Bool.false_eq_true,
            if_false, componentOf, List.filterMap_cons, List.filterMap_nil, Option.bind_some,
            Option.map_none]
        | some rule =>
          simp only [mapped] at rendered
          obtain ⟨_, _, _, warned⟩ := ok_of_bind rendered
          obtain ⟨_, _, _, used⟩ := ok_of_bind warned
          obtain ⟨nested, _, inner, tagged⟩ := ok_of_bind used
          cases tagged
          obtain ⟨shapes, rfl, tags⟩ := shapes_of_renderTrees children inner
          refine ⟨.tag rule.component _ shapes, by rw [Shape.text], ?_⟩
          simp only [Shape.tags, isEntered, mapped, Option.isSome_some, if_true, componentOf,
            List.filterMap_cons, Option.bind_some, Option.map_some, tags]

theorem shapes_of_renderTrees {setting : Setting} {depth : Nat} {trace later : Trace}
    {codes : List String} : (elements : List Element) →
    (renderTrees setting depth elements).run.run trace = (.ok codes, later) →
    ∃ shapes : List Shape, shapeTexts shapes = codes ∧
      shapeTags shapes = (visitedTrees setting.table depth elements).filterMap
        (componentOf setting.table ·.2)
  | [] => by
    intro rendered
    rw [renderTrees] at rendered
    cases rendered
    refine ⟨[], by rw [shapeTexts], ?_⟩
    rw [shapeTags, visitedTrees, List.filterMap_nil]
  | element :: others => by
    intro rendered
    rw [renderTrees_cons] at rendered
    obtain ⟨code, _, first, rest⟩ := ok_of_bind rendered
    obtain ⟨codes, _, behind, whole⟩ := ok_of_bind rest
    cases whole
    obtain ⟨shape, rfl, tags⟩ := shape_of_renderTree element first
    obtain ⟨shapes, rfl, more⟩ := shapes_of_renderTrees others behind
    refine ⟨shape :: shapes, by rw [shapeTexts], ?_⟩
    rw [shapeTags, visitedTrees, List.filterMap_append, tags, more]

end

def rootComponent : String := ((table.find? .form).map Rule.component).getD "div"

theorem isIntrinsic_div : isIntrinsic "div" = true := by decide

/-- The container that stands for a form without a rule needs no import. -/
theorem filter_rootComponents :
    (rootComponents table).filter (!isIntrinsic ·) =
      [rootComponent table].filter (!isIntrinsic ·) := by
  rw [rootComponents, rootComponent]
  cases table.find? .form with
  | none =>
    rw [Option.map_none, Option.getD_none, List.filter_cons, isIntrinsic_div]
    rfl
  | some rule => rfl

theorem shape_of_renderForm {setting : Setting} {form : Form} {trace later : Trace}
    {rendered : String × String}
    (ended : (renderForm setting form).run.run trace = (.ok rendered, later)) :
    ∃ properties nested,
      rendered.2 = (Shape.tag (rootComponent setting.table) properties nested).text ∧
      shapeTags nested = (visitedTrees setting.table 1 form.elements).filterMap
        (componentOf setting.table ·.2) := by
  delta renderForm at ended
  split at ended
  next => cases ended
  next name _ =>
    obtain ⟨codes, _, inner, framed⟩ := ok_of_bind ended
    obtain ⟨tree, _, root, whole⟩ := ok_of_bind framed
    cases whole
    obtain ⟨shapes, rfl, tags⟩ := shapes_of_renderTrees form.elements inner
    rw [renderRoot] at root
    rw [rootComponent]
    cases mapped : setting.table.find? .form with
    | none =>
      rw [mapped] at root
      cases root
      exact ⟨_, shapes, by rw [Shape.text]; rfl, tags⟩
    | some rule =>
      rw [mapped] at root
      obtain ⟨_, _, _, tagged⟩ := ok_of_bind root
      cases tagged
      exact ⟨_, shapes, by rw [Shape.text]; rfl, tags⟩

/-! ## Units -/

theorem components_of_renderForm {setting : Setting} {form : Form} {trace : Trace}
    {rendered : String × String}
    (ended : (renderForm setting form).run.run {} = (.ok rendered, trace)) :
    trace.components =
      (visitedTrees setting.table 1 form.elements).filterMap (componentOf setting.table ·.2) ++
        rootComponents setting.table := by
  have clear : obstacle setting.table form = none := by
    rw [← failure_renderForm setting form, failure, ended]
  obtain ⟨named, sound⟩ := (obstacle_eq_none setting.table form).mp clear
  have whole := reached_of_sound ((findSome?_fault_eq_none _ _).mpr sound)
  have left : trace = logged (renderForm setting form) := by
    rw [logged, ended]
  rw [left, logged_renderForm, if_pos named, clear, whole, traceOf, List.filterMap_map]
  rfl

theorem importLine_react : importLine "React" = "import React from 'react';\n" := by
  decide +kernel

/-- The line that is always there is the one of the first import. -/
theorem importLines_react (others : List String) (fresh : "React" ∉ others) :
    "import React from 'react';\n" ++
        String.join ((("React" :: others).filter (· != "React")).map importLine) =
      String.join (("React" :: others).map importLine) := by
  have rest : ("React" :: others).filter (· != "React") = others := by
    rw [List.filter_cons]
    simp only [bne_self_eq_false, Bool.false_eq_true, if_false]
    apply List.filter_eq_self.mpr
    intro other mem
    exact bne_iff_ne.mpr fun same => fresh (same ▸ mem)
  rw [rest, List.map_cons, String.join_cons, importLine_react]

theorem code_of_unitOf (rendered : String × String) {components others : List String}
    (first : importsOf components = "React" :: others) (fresh : "React" ∉ others) :
    (unitOf options handlers components rendered).code =
      String.join (("React" :: others).map importLine) ++ "\n" ++
        componentHead options.format rendered.1 ++
        String.join (handlers.map (handlerBlock options.format)) ++
        "  return (\n" ++ shiftFragment rendered.2 [' ', ' ', ' ', ' '] ++ "\n  );\n" ++
        "\x7d;\n\n" ++ "export default " ++ rendered.1 ++ ";\n" := by
  rw [← importLines_react others fresh, ← first]
  delta unitOf unitCode
  rfl

/-- A unit imports, after React, the components of its tags that the platform does not provide, each
once and in the order in which they come first, the container last, and depends on their packages.
Its code begins with one line for each import and holds the tree of these tags, which has one for
each element with a rule that does not lie below an element without one. -/
theorem imports_cover_components (form : Form) {unit : CodeUnit}
    (given : (convertForm table options handlers form).units = [unit]) :
    let used := (visitedTrees table 1 form.elements).filterMap (componentOf table ·.2)
    let startsLower (name : String) := name.toList.head?.any Char.isLower
    let imported := (used ++ [rootComponent table]).filter (!startsLower ·)
    let lowered (name : String) := String.ofList (Text.lowercase name.toList)
    unit.imports = ("React" :: imported).eraseDups ∧
    unit.dependencies = (imported.map lowered).eraseDups ∧
    (unit.imports.Nodup ∧ unit.dependencies.Nodup) ∧
    ∃ others properties nested,
      let tree := Shape.tag (rootComponent table) properties nested
      unit.imports = "React" :: others ∧
      shapeTags nested = used ∧
      (∀ tag ∈ tree.tags, startsLower tag = false → tag ∈ unit.imports) ∧
      (∀ name ∈ unit.imports, name = "React" ∨ name ∈ tree.tags) ∧
      unit.code =
        "import React from 'react';\n" ++
          String.join (others.map fun name =>
            "import " ++ name ++ " from '" ++ lowered name ++ "';\n") ++ "\n" ++
          componentHead options.format unit.name ++
          String.join (handlers.map (handlerBlock options.format)) ++
          "  return (\n" ++ shiftFragment tree.text [' ', ' ', ' ', ' '] ++ "\n  );\n" ++
          "\x7d;\n\n" ++ "export default " ++ unit.name ++ ";\n" := by
  intro used startsLower imported lowered
  obtain ⟨rendered, trace, ended, rfl⟩ := unit_of_convertForm table options handlers given
  obtain ⟨properties, nested, tree, tags⟩ := shape_of_renderForm ended
  have kept : trace.components.filter (!isIntrinsic ·) = imported := by
    rw [components_of_renderForm ended, List.filter_append, filter_rootComponents,
      ← List.filter_append]
    rfl
  have imports : importsOf trace.components = ("React" :: imported).eraseDups := by
    rw [importsOf, distinct_eq, kept]
  have dependencies : dependenciesOf trace.components = (imported.map lowered).eraseDups := by
    rw [dependenciesOf, distinct_eq, kept]
    rfl
  have once : (importsOf trace.components).Nodup ∧ (dependenciesOf trace.components).Nodup := by
    rw [imports, dependencies]
    exact ⟨nodup_eraseDups _, nodup_eraseDups _⟩
  have mem_imports (name : String) :
      name ∈ importsOf trace.components ↔ name = "React" ∨
        (name ∈ used ∨ name = rootComponent table) ∧ startsLower name = false := by
    rw [imports, List.mem_eraseDups, List.mem_cons, List.mem_filter, List.mem_append,
      List.mem_singleton, Bool.not_eq_true']
  have first : importsOf trace.components =
      "React" :: (imported.filter fun name => !name == "React").eraseDups := by
    rw [imports, List.eraseDups_cons]
  have fresh : "React" ∉ (imported.filter fun name => !name == "React").eraseDups := by
    rw [List.mem_eraseDups, List.mem_filter]
    simp
  refine ⟨imports, dependencies, once, _, properties, nested, first, tags, ?_, ?_, ?_⟩
  next =>
    intro tag mem outside
    rw [Shape.tags, tags] at mem
    exact (mem_imports tag).mpr (.inr ⟨(List.mem_cons.mp mem).symm, outside⟩)
  next =>
    intro name mem
    apply ((mem_imports name).mp mem).imp_right
    rintro ⟨here, _⟩
    rw [Shape.tags, tags]
    exact List.mem_cons.mpr here.symm
  next =>
    have code := code_of_unitOf options handlers rendered first fresh
    rw [List.map_cons, String.join_cons, importLine_react, tree] at code
    exact code

def nestedForm : Form :=
  { id := "orders"
    name := "order list"
    properties := []
    elements :=
      [⟨"frame", some .div, [], none,
          [⟨"open", some .grid, [], none, []⟩, ⟨"done", some .grid, [], none, []⟩]⟩,
        ⟨"chart", some (.other "Chart"), [], none, [⟨"parts", some .treeView, [], none, []⟩]⟩,
        ⟨"pages", some .tab, [], none, []⟩] }

theorem imports_of_nestedForm :
    ∃ unit, (convertForm .standard {} [] nestedForm).units = [unit] ∧
      unit.imports = ["React", "DataGrid", "Tabs"] ∧ unit.dependencies = ["datagrid", "tabs"] ∧
      ∃ rest, unit.code =
        "import React from 'react';\nimport DataGrid from 'datagrid';\n" ++
          "import Tabs from 'tabs';\n\n" ++ rest := by
  have clear : obstacle .standard nestedForm = none := by decide +kernel
  obtain ⟨unit, given⟩ := exists_unit .standard {} [] clear
  obtain ⟨imports, dependencies, _, others, _, _, first, _, _, _, code⟩ :=
    imports_cover_components .standard {} [] nestedForm given
  have listed : unit.imports = ["React", "DataGrid", "Tabs"] := imports.trans (by decide +kernel)
  obtain rfl : others = ["DataGrid", "Tabs"] := by
    rw [listed] at first
    exact (List.cons.inj first).2.symm
  have lines : "import React from 'react';\n" ++
      String.join (["DataGrid", "Tabs"].map fun name =>
        "import " ++ name ++ " from '" ++ String.ofList (Text.lowercase name.toList) ++ "';\n") ++
        "\n" =
      "import React from 'react';\nimport DataGrid from 'datagrid';\n" ++
        "import Tabs from 'tabs';\n\n" := by
    decide +kernel
  rw [lines] at code
  simp only [String.append_assoc] at code
  exact ⟨unit, given, listed, dependencies.trans (by decide +kernel), _, by
    rw [code, ← String.append_assoc]⟩

end Formwright.Component
