import Formwright.Form.Reading
import Formwright.Proofs.Entries
import Mathlib.Data.List.Basic

/-!
What is read of an element: its attributes first, then the elements among its children. Grouping
tags are left out, whatever they contain and however deep they nest.
-/

namespace Formwright

open Markup (Node Attribute)
open Declarations (groupingTags namesEvent namedValue ofAttributes)

mutual

def Element.subtree : Element → List Element
  | ⟨id, kind, properties, events, children⟩ =>
    ⟨id, kind, properties, events, children⟩ :: Element.subtrees children

def Element.subtrees : List Element → List Element
  | [] => []
  | element :: later => element.subtree ++ Element.subtrees later

end

theorem Element.subtree_eq (element : Element) :
    element.subtree = element :: Element.subtrees element.children := by
  obtain ⟨id, kind, properties, events, children⟩ := element
  rw [subtree]

theorem filterMap_cons_toList {α β : Type} (item : α) (later : List α) (part : α → Option β) :
    (item :: later).filterMap part = (part item).toList ++ later.filterMap part := by
  rw [List.filterMap_cons]
  cases part item with
  | none => rfl
  | some => rfl

namespace Declarations

def adding (declared : Declarations) (properties : List (String × PropertyValue))
    (events : List (String × String)) (children : List Element) : Declarations where
  properties := Entries.insertAll declared.properties properties
  events := Entries.insertAll declared.events events
  children := declared.children ++ children

theorem adding_nil (declared : Declarations) : declared.adding [] [] [] = declared := by
  rw [adding, List.append_nil]
  rfl

theorem adding_adding (declared : Declarations)
    (properties properties' : List (String × PropertyValue))
    (events events' : List (String × String)) (children children' : List Element) :
    (declared.adding properties events children).adding properties' events' children' =
      declared.adding (properties ++ properties') (events ++ events') (children ++ children') := by
  rw [adding, adding, adding, Entries.insertAll_append, Entries.insertAll_append, List.append_assoc]

/-! ## Attributes -/

def attributeProperty (reserved : List String) (item : Attribute) :
    Option (String × PropertyValue) :=
  if reserved.contains item.name || namesEvent item.name then none
  else some (item.name, .ofText item.value)

def eventOf (name handler : String) : Option (String × String) :=
  if handler.isEmpty then none else some (name, handler)

def attributeEvent (reserved : List String) (item : Attribute) : Option (String × String) :=
  if !reserved.contains item.name && namesEvent item.name then eventOf item.name item.value
  else none

theorem addEvent_eq (declared : Declarations) (name handler : String) :
    declared.addEvent name handler = declared.adding [] (eventOf name handler).toList [] := by
  rw [addEvent, eventOf]
  split
  · exact (adding_nil declared).symm
  · rw [adding, List.append_nil]
    rfl

theorem addProperty_eq (declared : Declarations) (name value : String) :
    declared.addProperty name value = declared.adding [(name, .ofText value)] [] [] := by
  rw [addProperty, adding, List.append_nil]
  rfl

theorem addAttribute_eq (reserved : List String) (declared : Declarations) (item : Attribute) :
    addAttribute reserved declared item =
      declared.adding (attributeProperty reserved item).toList
        (attributeEvent reserved item).toList [] := by
  rw [addAttribute, attributeProperty, attributeEvent, addEvent_eq, addProperty_eq]
  cases reserved.contains item.name with
  | true => exact (adding_nil declared).symm
  | false =>
    cases namesEvent item.name with
    | true => rfl
    | false => rfl

/-- Attributes are read one after the other, each as what it declares. -/
theorem ofAttributes_eq (reserved : List String) (attributes : List Attribute) :
    ofAttributes reserved attributes =
      adding {} (attributes.filterMap (attributeProperty reserved))
        (attributes.filterMap (attributeEvent reserved)) [] := by
  rw [ofAttributes]
  generalize ({} : Declarations) = declared
  induction attributes generalizing declared with
  | nil => exact (adding_nil declared).symm
  | cons item later ih =>
    rw [List.foldl_cons, ih, addAttribute_eq, adding_adding, filterMap_cons_toList,
      filterMap_cons_toList]
    rfl

/-- What attributes of distinct names declare has distinct names. -/
theorem nodup_filterMap {α : Type} {part : Attribute → Option (String × α)}
    (named : ∀ item pair, part item = some pair → pair.1 = item.name) {attributes : List Attribute}
    (distinct : (attributes.map Attribute.name).Nodup) :
    ((attributes.filterMap part).map Prod.fst).Nodup := by
  refine distinct.sublist ?_
  clear distinct
  induction attributes with
  | nil => exact .slnil
  | cons item later ih =>
    rw [filterMap_cons_toList]
    cases declared : part item with
    | none => exact .cons _ ih
    | some pair =>
      rw [Option.toList_some, List.singleton_append, List.map_cons, named item pair declared]
      exact .cons_cons _ ih

theorem name_of_attributeProperty {reserved : List String} (item : Attribute)
    (pair : String × PropertyValue) (declared : attributeProperty reserved item = some pair) :
    pair.1 = item.name := by
  rw [attributeProperty] at declared
  split at declared
  · cases declared
  · cases declared
    rfl

theorem name_of_attributeEvent {reserved : List String} (item : Attribute)
    (pair : String × String) (declared : attributeEvent reserved item = some pair) :
    pair.1 = item.name := by
  rw [attributeEvent, eventOf] at declared
  split at declared
  · split at declared
    · cases declared
    · cases declared
      rfl
  · cases declared

end Declarations

/-! ## Children -/

open Declarations (attributeProperty attributeEvent eventOf)

mutual

def ungrouped : Node → List Node
  | .element tag attributes selfClosing children =>
    if groupingTags.contains tag then ungroupedAll children
    else [.element tag attributes selfClosing children]
  | _ => []

def ungroupedAll : List Node → List Node
  | [] => []
  | node :: later => ungrouped node ++ ungroupedAll later

end

def widgetOf (tag : String) (attributes : List Attribute) (children : List Node) : Element :=
  elementOf tag attributes
    (readChildren (ofAttributes (declaredKind tag attributes).2 attributes) children)

theorem readChild_widget (declared : Declarations) {tag : String} (noProperty : tag ≠ "property")
    (noEvent : tag ≠ "event") (plain : tag ∉ groupingTags) (attributes : List Attribute)
    (selfClosing : Bool) (children : List Node) :
    readChild declared (.element tag attributes selfClosing children) =
      { declared with children := declared.children ++ [widgetOf tag attributes children] } := by
  unfold readChild
  rw [if_neg noProperty, if_neg noEvent, if_neg fun no => plain (List.contains_iff_mem.mp no)]
  rfl

def nodeProperty : Node → Option (String × PropertyValue)
  | .element tag attributes _ children =>
    if tag = "property" then
      (namedValue "value" attributes children).map fun (name, value) => (name, .ofText value)
    else none
  | _ => none

def nodeEvent : Node → Option (String × String)
  | .element tag attributes _ children =>
    if tag = "event" then
      (namedValue "handler" attributes children).bind fun (name, handler) => eventOf name handler
    else none
  | _ => none

def nodeWidget : Node → Option Element
  | .element tag attributes _ children =>
    if tag = "property" ∨ tag = "event" then none else some (widgetOf tag attributes children)
  | _ => none

namespace Declarations

def addingNodes (declared : Declarations) (nodes : List Node) : Declarations :=
  declared.adding (nodes.filterMap nodeProperty) (nodes.filterMap nodeEvent)
    (nodes.filterMap nodeWidget)

theorem addingNodes_append (declared : Declarations) (first second : List Node) :
    declared.addingNodes (first ++ second) = (declared.addingNodes first).addingNodes second := by
  rw [addingNodes, addingNodes, addingNodes, adding_adding, List.filterMap_append,
    List.filterMap_append, List.filterMap_append]

theorem addingNodes_single (declared : Declarations) (node : Node) :
    declared.addingNodes [node] =
      declared.adding (nodeProperty node).toList (nodeEvent node).toList
        (nodeWidget node).toList := by
  rw [addingNodes, filterMap_cons_toList, filterMap_cons_toList, filterMap_cons_toList]
  simp only [List.filterMap_nil, List.append_nil]

end Declarations

/-- A child that is no grouping tag is a property, an event or a widget. -/
theorem readChild_single (declared : Declarations) (tag : String) (attributes : List Attribute)
    (selfClosing : Bool) (children : List Node) (plain : tag ∉ groupingTags) :
    readChild declared (.element tag attributes selfClosing children) =
      declared.addingNodes [.element tag attributes selfClosing children] := by
  rw [Declarations.addingNodes_single, nodeProperty, nodeEvent, nodeWidget]
  by_cases isProperty : tag = "property"
  · subst isProperty
    unfold readChild
    rw [if_pos rfl, if_pos rfl]
    cases namedValue "value" attributes children with
    | none => exact declared.adding_nil.symm
    | some pair => exact declared.addProperty_eq pair.1 pair.2
  · by_cases isEvent : tag = "event"
    · subst isEvent
      unfold readChild
      rw [if_neg isProperty, if_neg isProperty, if_pos rfl, if_pos rfl, if_pos (.inr rfl)]
      cases namedValue "handler" attributes children with
      | none => exact declared.adding_nil.symm
      | some pair => exact declared.addEvent_eq pair.1 pair.2
    · rw [readChild_widget declared isProperty isEvent plain, if_neg isProperty, if_neg isEvent,
        if_neg (not_or.mpr ⟨isProperty, isEvent⟩)]
      rfl

mutual

/-- Reading a node is reading the elements that it stands for. -/
theorem readChild_eq (declared : Declarations) :
    (node : Node) → readChild declared node = declared.addingNodes (ungrouped node)
  | .element tag attributes selfClosing children => by
    rw [ungrouped]
    split
    next grouping =>
      have noProperty : tag ≠ "property" := by
        rintro rfl
        exact absurd grouping (by decide)
      have noEvent : tag ≠ "event" := by
        rintro rfl
        exact absurd grouping (by decide)
      unfold readChild
      rw [if_neg noProperty, if_neg noEvent, if_pos grouping]
      exact readChildren_eq declared children
    next plain =>
      rw [List.contains_iff_mem] at plain
      exact readChild_single _ _ _ _ _ plain
  | .text _ | .comment _ | .instruction _ _ => by
    unfold readChild
    exact declared.adding_nil.symm

theorem readChildren_eq (declared : Declarations) :
    (nodes : List Node) → readChildren declared nodes = declared.addingNodes (ungroupedAll nodes)
  | [] => by
    unfold readChildren
    exact declared.adding_nil.symm
  | node :: later => by
    rw [readChildren, readChild_eq, readChildren_eq, ungroupedAll, Declarations.addingNodes_append]

end

/-! ## Groups -/

mutual

theorem plain_of_mem_ungrouped {inner : Node} : (node : Node) → inner ∈ ungrouped node →
    ∃ tag attributes selfClosing children,
      inner = .element tag attributes selfClosing children ∧ tag ∉ groupingTags
  | .element tag attributes selfClosing children => by
    intro mem
    rw [ungrouped] at mem
    split at mem
    next => exact plain_of_mem_ungroupedAll children mem
    next plain =>
      rw [List.contains_iff_mem] at plain
      exact ⟨tag, attributes, selfClosing, children, List.mem_singleton.mp mem, plain⟩
  | .text _ | .comment _ | .instruction _ _ => by
    intro mem
    cases mem

theorem plain_of_mem_ungroupedAll {inner : Node} : (nodes : List Node) →
    inner ∈ ungroupedAll nodes → ∃ tag attributes selfClosing children,
      inner = .element tag attributes selfClosing children ∧ tag ∉ groupingTags
  | [] => by
    intro mem
    cases mem
  | node :: later => by
    intro mem
    rw [ungroupedAll] at mem
    exact (List.mem_append.mp mem).elim (plain_of_mem_ungrouped node)
      (plain_of_mem_ungroupedAll later)

end

def propertiesOf (reserved : List String) (attributes : List Attribute) (children : List Node) :
    Entries PropertyValue :=
  Entries.insertAll (Entries.ofPairs (attributes.filterMap (attributeProperty reserved)))
    ((ungroupedAll children).filterMap nodeProperty)

def eventsOf (reserved : List String) (attributes : List Attribute) (children : List Node) :
    Entries String :=
  Entries.insertAll (Entries.ofPairs (attributes.filterMap (attributeEvent reserved)))
    ((ungroupedAll children).filterMap nodeEvent)

theorem readChildren_ofAttributes (reserved : List String) (attributes : List Attribute)
    (children : List Node) :
    readChildren (ofAttributes reserved attributes) children =
      ⟨propertiesOf reserved attributes children, eventsOf reserved attributes children,
        (ungroupedAll children).filterMap nodeWidget⟩ := by
  rw [readChildren_eq, Declarations.ofAttributes_eq]
  rfl

/-- Grouping tags are transparent, and what is declared counts in the order of the document. The
children of an element are its inner elements but for properties and events; its properties and
events are those of its attributes, with those of its inner elements put in one after the other. The
inner elements are all that grouping tags alone separate from it, and the attributes of these tags
mean nothing. -/
theorem groups_are_transparent :
    (∀ reserved attributes children,
      readChildren (ofAttributes reserved attributes) children =
        ⟨propertiesOf reserved attributes children, eventsOf reserved attributes children,
          (ungroupedAll children).filterMap nodeWidget⟩) ∧
    (∀ tag attributes children,
      let (kind, reserved) := declaredKind tag attributes
      let events := eventsOf reserved attributes children
      widgetOf tag attributes children =
        { id := (Markup.attributeValue attributes "id").getD ""
          kind
          properties := propertiesOf reserved attributes children
          events := if events.isEmpty then none else some events
          children := (ungroupedAll children).filterMap nodeWidget }) ∧
    (∀ attributes children, formOf attributes children =
        { id := (Markup.attributeValue attributes "id").getD ""
          name := (Markup.attributeValue attributes "name").getD ""
          properties := propertiesOf ["id", "name"] attributes children
          elements := (ungroupedAll children).filterMap nodeWidget }) ∧
    (∀ reserved (attributes : List Attribute), (attributes.map Attribute.name).Nodup →
      Entries.ofPairs (attributes.filterMap (attributeProperty reserved)) =
          attributes.filterMap (attributeProperty reserved) ∧
        Entries.ofPairs (attributes.filterMap (attributeEvent reserved)) =
          attributes.filterMap (attributeEvent reserved)) ∧
    (∀ tag ∈ groupingTags, ∀ attributes selfClosing children,
      ungrouped (.element tag attributes selfClosing children) = ungroupedAll children) ∧
    ∀ nodes, ∀ inner ∈ ungroupedAll nodes, ∃ tag attributes selfClosing children,
      inner = .element tag attributes selfClosing children ∧ tag ∉ groupingTags := by
  refine ⟨readChildren_ofAttributes, fun tag attributes children => ?_,
    fun attributes children => ?_, fun reserved attributes distinct => ⟨?_, ?_⟩,
    fun tag mem attributes selfClosing children => ?_,
    fun nodes inner => plain_of_mem_ungroupedAll nodes⟩
  · dsimp only
    rw [widgetOf, readChildren_ofAttributes]
    rfl
  · rw [formOf, readChildren_ofAttributes]
  · exact Entries.ofPairs_of_nodup
      (Declarations.nodup_filterMap Declarations.name_of_attributeProperty distinct)
  · exact Entries.ofPairs_of_nodup
      (Declarations.nodup_filterMap Declarations.name_of_attributeEvent distinct)
  · rw [ungrouped, if_pos (List.contains_iff_mem.mpr mem)]

def groupedNodes : List Node :=
  [.element "Layouts" [⟨none, "width", "7"⟩] false
    [.element "Layout" [] false [.element "Edit" [⟨none, "id", "name"⟩] true [],
      .element "property" [⟨none, "name", "title"⟩, ⟨none, "value", "Orders"⟩] true []]]]

theorem title_in_groups_is_read :
    let attributes : List Attribute := [⟨none, "id", "orders"⟩, ⟨none, "width", "9"⟩]
    (attributes.map Attribute.name).Nodup ∧
      (formOf attributes groupedNodes).properties =
        attributes.filterMap (attributeProperty ["id", "name"]) ++ [("title", .text "Orders")] ∧
      (formOf attributes groupedNodes).elements.map Element.id = ["name"] := by
  intro attributes
  have distinct : (attributes.map Attribute.name).Nodup := by
    decide
  obtain ⟨-, -, read, kept, -⟩ := groups_are_transparent
  rw [read, ← (kept ["id", "name"] attributes distinct).1]
  exact ⟨distinct, by decide +kernel, by decide +kernel⟩

end Formwright
