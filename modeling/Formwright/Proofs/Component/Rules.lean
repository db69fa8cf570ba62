import Formwright.Proofs.Component.Conversion
import Formwright.Proofs.Form.Elements
import Mathlib.Data.List.Basic

/-!
Rules that nothing asks for. A batch is converted by the rules that the table has for its kinds, and
by nothing else that stands in the table.
-/

namespace Formwright

open Mapping

/-! ## Tables -/

namespace Mapping.Table

/-- A rule of another kind, or of a kind that has a rule before, is never found. -/
theorem find?_extending_insert {first second : List Rule} {rule : Rule} {kind : Kind}
    (idle : (∃ earlier ∈ first, earlier.kind = rule.kind) ∨ kind ≠ rule.kind) :
    (extending (first ++ rule :: second)).find? kind =
      (extending (first ++ second)).find? kind := by
  have split (rules : List Rule) : (extending (first ++ rules)).find? kind =
      (first.find? (·.kind == kind)).or ((rules ++ standardRules).find? (·.kind == kind)) := by
    rw [find?, extending, List.append_assoc, List.find?_append]
  rw [split, split, List.cons_append]
  by_cases same : rule.kind = kind
  · obtain ⟨earlier, mem, ofKind⟩ | other := idle
    · have found : (first.find? (·.kind == kind)).isSome = true := by
        rw [List.find?_isSome]
        exact ⟨earlier, mem, beq_iff_eq.mpr (ofKind.trans same)⟩
      obtain ⟨shadow, found⟩ := Option.isSome_iff_exists.mp found
      rw [found, Option.some_or, Option.some_or]
    · exact absurd same.symm other
  · rw [List.find?_cons_of_neg (p := fun entry : Rule => entry.kind == kind) fun found =>
      same (eq_of_beq found)]

end Mapping.Table

namespace Component

def ruleOf (table : Table) (element : Element) : Option Rule := element.kind.bind table.find?

variable {table other : Table} (handlers : Entries String)

/-! ## Rendering -/

mutual

/-- A tree is rendered by the rules of its elements. -/
theorem renderTree_congr (form : String) (depth : Nat) : (element : Element) →
    (∀ inner ∈ element.subtree, ruleOf table inner = ruleOf other inner) →
      renderTree ⟨table, handlers, form⟩ depth element =
        renderTree ⟨other, handlers, form⟩ depth element
  | ⟨id, kind, properties, events, children⟩, agree => by
    rw [renderTree_eq, renderTree_eq]
    have below : renderTrees ⟨table, handlers, form⟩ (depth + 1) children =
        renderTrees ⟨other, handlers, form⟩ (depth + 1) children :=
      renderTrees_congr form (depth + 1) children fun inner mem =>
        agree inner (by rw [Element.subtree_eq]; exact List.mem_cons_of_mem _ mem)
    have here : ruleOf table ⟨id, kind, properties, events, children⟩ =
        ruleOf other ⟨id, kind, properties, events, children⟩ :=
      agree _ (by rw [Element.subtree_eq]; exact List.mem_cons_self)
    cases kind with
    | none => rfl
    | some kind =>
      have here : table.find? kind = other.find? kind := here
      dsimp only
      rw [here, below]

theorem renderTrees_congr (form : String) (depth : Nat) : (elements : List Element) →
    (∀ inner ∈ Element.subtrees elements, ruleOf table inner = ruleOf other inner) →
      renderTrees ⟨table, handlers, form⟩ depth elements =
        renderTrees ⟨other, handlers, form⟩ depth elements
  | [], _ => by rw [renderTrees, renderTrees]
  | element :: later, agree => by
    rw [renderTrees_cons, renderTrees_cons,
      renderTree_congr form depth element fun inner mem => agree inner (List.mem_append_left _ mem),
      renderTrees_congr form depth later fun inner mem => agree inner (List.mem_append_right _ mem)]

end

theorem convertForm_congr (options : Options) {form : Form}
    (root : table.find? .form = other.find? .form)
    (agree : ∀ inner ∈ Element.subtrees form.elements, ruleOf table inner = ruleOf other inner) :
    convertForm table options handlers form = convertForm other options handlers form := by
  have rootAlike (nested : List String) : renderRoot ⟨table, handlers, form.id⟩ form nested =
      renderRoot ⟨other, handlers, form.id⟩ form nested := by
    rw [renderRoot, renderRoot]
    dsimp only
    rw [root]
  have alike : renderForm ⟨table, handlers, form.id⟩ form =
      renderForm ⟨other, handlers, form.id⟩ form := by
    delta renderForm
    simp only [renderTrees_congr handlers form.id 1 form.elements agree, rootAlike]
  unfold convertForm
  rw [alike]

theorem convertBatch_congr (options : Options) {batch : Batch}
    (root : table.find? .form = other.find? .form)
    (agree : ∀ form ∈ batch.forms, ∀ inner ∈ Element.subtrees form.elements,
      ruleOf table inner = ruleOf other inner) :
    convertBatch table options batch = convertBatch other options batch := by
  rw [convertBatch, convertBatch]
  apply List.foldl_ext
  intro outcome form mem
  rw [convertForm_congr batch.handlers options root (agree form mem)]

/-- A rule changes nothing, wherever it stands among the rules of a project, if a rule of its kind
stands before it. Nor does it if its kind is neither that of forms nor that of an element of a form
of the batch. -/
theorem idle_rule_changes_nothing (first second : List Rule) (rule : Rule) (options : Options)
    (batch : Batch) (idle : (∃ earlier ∈ first, earlier.kind = rule.kind) ∨
      rule.kind ≠ .form ∧ ∀ form ∈ batch.forms, ∀ element ∈ Element.subtrees form.elements,
        element.kind ≠ some rule.kind) :
    convertBatch (.extending (first ++ rule :: second)) options batch =
      convertBatch (.extending (first ++ second)) options batch := by
  apply convertBatch_congr
  · exact Table.find?_extending_insert (idle.imp_right fun unused => unused.1.symm)
  · intro form inBatch element inForm
    rw [ruleOf, ruleOf]
    cases ofKind : element.kind with
    | none => rfl
    | some kind =>
      refine Table.find?_extending_insert (idle.imp_right fun unused same => ?_)
      exact unused.2 form inBatch element inForm (by rw [ofKind, same])

/-- A rule for grids, a second rule for buttons, and a form with a button in a container. -/
theorem rule_for_grids_is_idle :
    let grids : Rule := ⟨.grid, "Sheet", [], [], []⟩
    let buttons : Rule := ⟨.button, "Press", [], [], []⟩
    let form : Form := ⟨"orders", "", [], [⟨"box", some .container, [], none,
      [⟨"save", some .button, [], some [("onclick", "save")], []⟩]⟩]⟩
    (grids.kind ≠ .form ∧
      ∀ element ∈ Element.subtrees form.elements, element.kind ≠ some grids.kind) ∧
    convertBatch (.extending [grids]) {} ⟨[form], [], []⟩ =
      convertBatch (.extending []) {} ⟨[form], [], []⟩ ∧
    convertBatch (.extending [buttons, { buttons with component := "Push" }]) {} ⟨[form], [], []⟩ =
      convertBatch (.extending [buttons]) {} ⟨[form], [], []⟩ := by
  intro grids buttons form
  have unused : ∀ element ∈ Element.subtrees form.elements, element.kind ≠ some grids.kind := by
    decide
  refine ⟨⟨by decide, unused⟩, ?_, ?_⟩
  · exact idle_rule_changes_nothing [] [] grids {} ⟨[form], [], []⟩
      (.inr ⟨by decide, List.forall_mem_singleton.mpr unused⟩)
  · exact idle_rule_changes_nothing [buttons] [] { buttons with component := "Push" } {}
      ⟨[form], [], []⟩ (.inl ⟨buttons, List.mem_cons_self, rfl⟩)

end Component
end Formwright
