import Formwright.Proofs.Form.Elements

/-!
Which elements of a document are forms. The tag of a form has two meanings: with no form around it,
it is a form of the document, and inside of a form it is a widget.
-/

namespace Formwright

open Markup (Node Attribute)
open Declarations (groupingTags)

theorem readForms_eq_ok {document : String} {forms : List Form} :
    readForms document = .ok forms ↔
      Markup.nestsDeeperThan markupDepthLimit document.toList = false ∧
        ∃ root, Node.read document.toList = .ok root ∧ outermostForms root = forms := by
  rw [readForms]
  split
  next deeper =>
    rw [deeper]
    simp
  next within =>
    rw [Bool.eq_false_iff.mpr within]
    cases Node.read document.toList with
    | error => simp
    | ok root => simp

/-! ## Places -/

structure Occurrence where
  /-- The tags around it, the innermost first. -/
  around : List String
  tag : String
  attributes : List Attribute
  children : List Node

namespace Occurrence

def form (place : Occurrence) : Form := formOf place.attributes place.children

def widget (place : Occurrence) : Element := widgetOf place.tag place.attributes place.children

def within (place : Occurrence) : List String := place.tag :: place.around

def isOutermostForm (place : Occurrence) : Bool :=
  place.tag == rootTag && !place.around.contains rootTag

theorem isOutermostForm_of_around {place : Occurrence} (covered : rootTag ∈ place.around) :
    place.isOutermostForm = false := by
  rw [isOutermostForm, List.contains_iff_mem.mpr covered, Bool.not_true, Bool.and_false]

end Occurrence

mutual

def occurrences (around : List String) : Node → List Occurrence
  | .element tag attributes _ children =>
    ⟨around, tag, attributes, children⟩ :: occurrencesInAll (tag :: around) children
  | _ => []

def occurrencesInAll (around : List String) : List Node → List Occurrence
  | [] => []
  | node :: later => occurrences around node ++ occurrencesInAll around later

end

mutual

theorem around_of_occurrence {place : Occurrence} {around : List String} :
    (node : Node) → place ∈ occurrences around node → around ⊆ place.around
  | .element tag attributes _ children => by
    intro mem
    rw [occurrences] at mem
    cases List.mem_cons.mp mem with
    | inl same =>
      rw [same]
      exact List.Subset.refl around
    | inr below =>
      exact List.Subset.trans (List.subset_cons_self tag around)
        (around_of_occurrenceInAll children below)
  | .text _ | .comment _ | .instruction _ _ => nofun

theorem around_of_occurrenceInAll {place : Occurrence} {around : List String} :
    (nodes : List Node) → place ∈ occurrencesInAll around nodes → around ⊆ place.around
  | [] => nofun
  | node :: later => by
    intro mem
    rw [occurrencesInAll] at mem
    exact (List.mem_append.mp mem).elim (around_of_occurrence node)
      (around_of_occurrenceInAll later)

end

theorem filter_outermost_inside {around : List String} (covered : rootTag ∈ around)
    (nodes : List Node) :
    (occurrencesInAll around nodes).filter Occurrence.isOutermostForm = [] := by
  rw [List.filter_eq_nil_iff]
  intro place mem
  rw [Occurrence.isOutermostForm_of_around (around_of_occurrenceInAll nodes mem covered)]
  exact Bool.false_ne_true

mutual

/-- The forms of a tree are its elements with the tag of forms that have no such tag around them. -/
theorem outermostForms_eq {around : List String} (free : rootTag ∉ around) : (node : Node) →
    outermostForms node =
      ((occurrences around node).filter Occurrence.isOutermostForm).map Occurrence.form
  | .element tag attributes _ children => by
    rw [outermostForms, occurrences]
    split
    next isForm =>
      subst isForm
      have outermost :
          Occurrence.isOutermostForm ⟨around, rootTag, attributes, children⟩ = true := by
        simp [Occurrence.isOutermostForm, free]
      rw [List.filter_cons_of_pos outermost, filter_outermost_inside List.mem_cons_self]
      rfl
    next other =>
      have passed : ¬Occurrence.isOutermostForm ⟨around, tag, attributes, children⟩ = true := by
        simp [Occurrence.isOutermostForm, other]
      rw [List.filter_cons_of_neg passed]
      exact outermostFormsOfAll_eq (not_or.mpr ⟨Ne.symm other, free⟩ ∘ List.mem_cons.mp) children
  | .text _ | .comment _ | .instruction _ _ => rfl

theorem outermostFormsOfAll_eq {around : List String} (free : rootTag ∉ around) :
    (nodes : List Node) → outermostFormsOfAll nodes =
      ((occurrencesInAll around nodes).filter Occurrence.isOutermostForm).map Occurrence.form
  | [] => rfl
  | node :: later => by
    rw [outermostFormsOfAll, occurrencesInAll, List.filter_append, List.map_append,
      outermostForms_eq free node, outermostFormsOfAll_eq free later]

end

/-! ## Widgets -/

mutual

def widgetsIn (around : List String) : Node → List Occurrence
  | .element tag attributes _ children =>
    if tag = "property" ∨ tag = "event" then []
    else if groupingTags.contains tag then widgetsInAll (tag :: around) children
    else ⟨around, tag, attributes, children⟩ :: widgetsInAll (tag :: around) children
  | _ => []

def widgetsInAll (around : List String) : List Node → List Occurrence
  | [] => []
  | node :: later => widgetsIn around node ++ widgetsInAll around later

end

mutual

theorem occurrences_of_widgetsIn {around : List String} :
    (node : Node) → widgetsIn around node ⊆ occurrences around node
  | .element tag attributes _ children => by
    rw [widgetsIn, occurrences]
    split_ifs
    · exact List.nil_subset _
    · exact List.subset_cons_of_subset _ (occurrencesInAll_of_widgetsInAll children)
    · exact List.cons_subset_cons _ (occurrencesInAll_of_widgetsInAll children)
  | .text _ | .comment _ | .instruction _ _ => List.nil_subset _

theorem occurrencesInAll_of_widgetsInAll {around : List String} :
    (nodes : List Node) → widgetsInAll around nodes ⊆ occurrencesInAll around nodes
  | [] => List.nil_subset _
  | node :: later => by
    rw [widgetsInAll, occurrencesInAll]
    exact List.append_subset.mpr
      ⟨List.subset_append_of_subset_left _ (occurrences_of_widgetsIn node),
        List.subset_append_of_subset_right _ (occurrencesInAll_of_widgetsInAll later)⟩

end

mutual

theorem occurrences_within {place : Occurrence} {around : List String} : (node : Node) →
    place ∈ occurrences around node →
      occurrencesInAll place.within place.children ⊆ occurrences around node
  | .element tag attributes _ children => by
    intro mem
    rw [occurrences] at mem ⊢
    refine List.subset_cons_of_subset _ ?_
    cases List.mem_cons.mp mem with
    | inl same =>
      rw [same]
      exact List.Subset.refl _
    | inr below => exact occurrencesInAll_within children below
  | .text _ | .comment _ | .instruction _ _ => nofun

theorem occurrencesInAll_within {place : Occurrence} {around : List String} : (nodes : List Node) →
    place ∈ occurrencesInAll around nodes →
      occurrencesInAll place.within place.children ⊆ occurrencesInAll around nodes
  | [] => nofun
  | node :: later => by
    intro mem
    rw [occurrencesInAll] at mem ⊢
    cases List.mem_append.mp mem with
    | inl first => exact List.subset_append_of_subset_left _ (occurrences_within node first)
    | inr rest => exact List.subset_append_of_subset_right _ (occurrencesInAll_within later rest)

end

theorem Element.subtrees_append (first second : List Element) :
    subtrees (first ++ second) = subtrees first ++ subtrees second := by
  induction first with
  | nil => rfl
  | cons element first ih =>
    rw [List.cons_append, subtrees, subtrees, ih, List.append_assoc]

theorem children_of_widgetOf (tag : String) (attributes : List Attribute) (children : List Node) :
    (widgetOf tag attributes children).children = (ungroupedAll children).filterMap nodeWidget := by
  rw [widgetOf, readChildren_ofAttributes]
  rfl

mutual

/-- The elements that are read are the widgets that are reached, in the same order. -/
theorem subtrees_ungrouped (around : List String) : (node : Node) →
    Element.subtrees ((ungrouped node).filterMap nodeWidget) =
      (widgetsIn around node).map Occurrence.widget
  | .element tag attributes selfClosing children => by
    rw [ungrouped, widgetsIn]
    by_cases declares : tag = "property" ∨ tag = "event"
    · have plain : ¬groupingTags.contains tag = true := by
        rcases declares with rfl | rfl
        all_goals decide
      have unread : nodeWidget (.element tag attributes selfClosing children) = none :=
        if_pos declares
      rw [if_pos declares, if_neg plain, List.filterMap_cons_none unread]
      rfl
    · rw [if_neg declares]
      split
      next => exact subtrees_ungroupedAll (tag :: around) children
      next =>
        have read : nodeWidget (.element tag attributes selfClosing children) =
            some (widgetOf tag attributes children) := if_neg declares
        rw [List.filterMap_cons_some read, List.filterMap_nil, Element.subtrees, Element.subtree_eq,
          children_of_widgetOf, subtrees_ungroupedAll (tag :: around) children, Element.subtrees,
          List.append_nil]
        rfl
  | .text _ | .comment _ | .instruction _ _ => rfl

theorem subtrees_ungroupedAll (around : List String) : (nodes : List Node) →
    Element.subtrees ((ungroupedAll nodes).filterMap nodeWidget) =
      (widgetsInAll around nodes).map Occurrence.widget
  | [] => rfl
  | node :: later => by
    rw [ungroupedAll, widgetsInAll, List.filterMap_append, Element.subtrees_append, List.map_append,
      subtrees_ungrouped around node, subtrees_ungroupedAll around later]

end

/-- The elements of a form at all depths. -/
theorem subtrees_of_form (place : Occurrence) :
    Element.subtrees place.form.elements =
      (widgetsInAll place.within place.children).map Occurrence.widget := by
  rw [← subtrees_ungroupedAll, Occurrence.form, formOf, readChildren_ofAttributes]

theorem kind_of_nested_form {place : Occurrence} (isForm : place.tag = rootTag) :
    place.widget.kind = some .form := by
  rw [Occurrence.widget, isForm]
  rfl

/-- The forms of a document are its outermost ones, one for each of them and in the order in which
they stand there. All widgets that are reached in a form become elements of it, in the order of the
document. Among them are the forms inside of it: each is an element of the kind of forms, and no
form of the document. -/
theorem outermost_forms_are_read {document : String} {forms : List Form}
    (accepted : readForms document = .ok forms) :
    ∃ root, Node.read document.toList = .ok root ∧
      forms = ((occurrences [] root).filter Occurrence.isOutermostForm).map Occurrence.form ∧
      ∀ place ∈ occurrences [] root, place.isOutermostForm = true →
        Element.subtrees place.form.elements =
            (widgetsInAll place.within place.children).map Occurrence.widget ∧
          ∀ inner ∈ widgetsInAll place.within place.children,
            inner ∈ occurrences [] root ∧ inner.isOutermostForm = false ∧
              (inner.tag = rootTag → inner.widget.kind = some .form) := by
  obtain ⟨-, root, read, rfl⟩ := readForms_eq_ok.mp accepted
  refine ⟨root, read, outermostForms_eq List.not_mem_nil root, ?_⟩
  intro place listed outermost
  refine ⟨subtrees_of_form place, fun inner reached => ?_⟩
  have inside := occurrencesInAll_of_widgetsInAll place.children reached
  have isForm : place.tag = rootTag := eq_of_beq (Bool.and_eq_true_iff.mp outermost).1
  have covered : rootTag ∈ inner.around := by
    apply around_of_occurrenceInAll place.children inside
    rw [Occurrence.within, isForm]
    exact List.mem_cons_self
  exact ⟨occurrences_within root listed inside, Occurrence.isOutermostForm_of_around covered,
    kind_of_nested_form⟩

def formInBox : String := "<L><Form id=\"a\"><Div><Form/></Div></Form><Form id=\"b\"/></L>"

theorem nested_form_is_element :
    ∃ forms root, readForms formInBox = .ok forms ∧ Node.read formInBox.toList = .ok root ∧
      forms = ((occurrences [] root).filter Occurrence.isOutermostForm).map Occurrence.form ∧
      forms.map Form.id = ["a", "b"] ∧
      (forms.flatMap fun form => Element.subtrees form.elements).map Element.kind =
        [some .div, some .form] := by
  have told : (readForms formInBox).toOption.map (fun forms => (forms.map Form.id,
      (forms.flatMap fun form => Element.subtrees form.elements).map Element.kind)) =
        some (["a", "b"], [some .div, some .form]) := by
    decide +kernel
  cases accepted : readForms formInBox with
  | error =>
    rw [accepted] at told
    cases told
  | ok forms =>
    rw [accepted] at told
    obtain ⟨ids, kinds⟩ := Prod.mk.inj (Option.some.inj told)
    obtain ⟨root, read, found, -⟩ := outermost_forms_are_read accepted
    exact ⟨forms, root, rfl, read, found, ids, kinds⟩

end Formwright
