import Formwright.Proofs.Form.Outermost
import Formwright.Proofs.Form.Property

/-!
What holds of every element that is read, at whatever depth: a kind with a name of its own goes by
no other, events have handlers, numbers are finite, and the identifier is no property unless it is
declared as one.
-/

namespace Formwright

open Markup (Node Attribute)
open Declarations (attributeProperty attributeEvent eventOf namedValue)

structure Element.WellFormed (element : Element) : Prop where
  /-- An element without events has no map of them. -/
  events : ∀ events, element.events = some events →
    events ≠ [] ∧ (Entries.keys events).Nodup ∧ ∀ event ∈ events, event.2 ≠ ""
  /-- No known kind is given by its name. -/
  kind : ∀ name, element.kind = some (.other name) → name ∉ Entries.keys Kind.known
  properties : (Entries.keys element.properties).Nodup
  numbers : ∀ name value, (name, .number value) ∈ element.properties → value.isFinite = true

/-! ## Kinds -/

theorem unknown_of_other {given name : String} (other : Kind.ofName given = .other name) :
    name ∉ Entries.keys Kind.known := by
  have known : ∀ entry ∈ Kind.known, entry.2.isKnown = true := by
    decide
  rw [Kind.ofName] at other
  cases found : Kind.known.lookup given with
  | none =>
    rw [found] at other
    cases other
    rw [← Entries.contains_iff, Entries.contains, Entries.find?, found]
    exact Bool.false_ne_true
  | some kind =>
    obtain ⟨before, after, split, -⟩ := List.lookup_eq_some_iff.mp found
    have isKnown := known (given, kind) (by
      rw [split]
      exact List.mem_append_right before List.mem_cons_self)
    rw [found] at other
    cases other
    cases isKnown

theorem unknown_of_declaredKind {tag name : String} {attributes : List Attribute}
    (other : (declaredKind tag attributes).1 = some (.other name)) :
    name ∉ Entries.keys Kind.known := by
  rw [declaredKind] at other
  split at other
  next =>
    obtain ⟨type, -, ofType⟩ := Option.map_eq_some_iff.mp other
    exact unknown_of_other ofType
  next => exact unknown_of_other (Option.some.inj other)

theorem id_mem_reserved (tag : String) (attributes : List Attribute) :
    "id" ∈ (declaredKind tag attributes).2 := by
  rw [declaredKind]
  split
  next => exact List.mem_cons_self
  next => exact List.mem_cons_self

/-! ## Events -/

section

variable {reserved : List String} {attributes : List Attribute} {children : List Node}

theorem eventsOf_eq (reserved : List String) (attributes : List Attribute)
    (children : List Node) : eventsOf reserved attributes children =
      Entries.ofPairs (attributes.filterMap (attributeEvent reserved) ++
        (ungroupedAll children).filterMap nodeEvent) :=
  (Entries.insertAll_append ..).symm

theorem handler_of_eventOf {name handler : String} {event : String × String}
    (bound : eventOf name handler = some event) : event.2 ≠ "" := by
  rw [eventOf] at bound
  split at bound
  next => cases bound
  next filled =>
    cases bound
    exact fun empty => filled (String.isEmpty_iff.mpr empty)

theorem handler_of_eventsOf {event : String × String}
    (mem : event ∈ eventsOf reserved attributes children) : event.2 ≠ "" := by
  rw [eventsOf_eq] at mem
  cases List.mem_append.mp (Entries.mem_of_mem_ofPairs mem) with
  | inl own =>
    obtain ⟨item, -, declared⟩ := List.mem_filterMap.mp own
    rw [attributeEvent] at declared
    split at declared
    next => exact handler_of_eventOf declared
    next => cases declared
  | inr inner =>
    obtain ⟨node, -, declared⟩ := List.mem_filterMap.mp inner
    unfold nodeEvent at declared
    split at declared
    next =>
      split at declared
      next =>
        obtain ⟨pair, -, bound⟩ := Option.bind_eq_some_iff.mp declared
        exact handler_of_eventOf bound
      next => cases declared
    next => cases declared

/-! ## Properties -/

theorem propertiesOf_eq (reserved : List String) (attributes : List Attribute)
    (children : List Node) : propertiesOf reserved attributes children =
      Entries.ofPairs (attributes.filterMap (attributeProperty reserved) ++
        (ungroupedAll children).filterMap nodeProperty) :=
  (Entries.insertAll_append ..).symm

theorem nodeProperty_eq_some {node : Node} {property : String × PropertyValue} :
    nodeProperty node = some property ↔ ∃ attributes selfClosing children raw,
      node = .element "property" attributes selfClosing children ∧
        namedValue "value" attributes children = some (property.1, raw) ∧
          property.2 = .ofText raw := by
  obtain ⟨name, value⟩ := property
  constructor
  · intro declared
    unfold nodeProperty at declared
    split at declared
    next tag attributes selfClosing children =>
      split at declared
      next isProperty =>
        obtain ⟨⟨given, raw⟩, named, same⟩ := Option.map_eq_some_iff.mp declared
        cases same
        exact ⟨attributes, selfClosing, children, raw, isProperty ▸ rfl, named, rfl⟩
      next => cases declared
    next => cases declared
  · rintro ⟨attributes, selfClosing, children, raw, rfl, named, read⟩
    cases read
    rw [nodeProperty, if_pos rfl, named]
    rfl

/-- Every property is read off a text. -/
theorem ofText_of_propertiesOf {property : String × PropertyValue}
    (mem : property ∈ propertiesOf reserved attributes children) :
    ∃ raw, property.2 = .ofText raw := by
  rw [propertiesOf_eq] at mem
  cases List.mem_append.mp (Entries.mem_of_mem_ofPairs mem) with
  | inl own =>
    obtain ⟨item, -, declared⟩ := List.mem_filterMap.mp own
    rw [attributeProperty] at declared
    split at declared
    next => cases declared
    next =>
      cases declared
      exact ⟨item.value, rfl⟩
  | inr inner =>
    obtain ⟨node, -, declared⟩ := List.mem_filterMap.mp inner
    obtain ⟨-, -, -, raw, -, -, read⟩ := nodeProperty_eq_some.mp declared
    exact ⟨raw, read⟩

/-- A reserved name becomes a property only where a `property` element declares it. -/
theorem mem_keys_propertiesOf {name : String} (isReserved : name ∈ reserved) :
    name ∈ Entries.keys (propertiesOf reserved attributes children) ↔
      ∃ attributes selfClosing inner raw,
        .element "property" attributes selfClosing inner ∈ ungroupedAll children ∧
          namedValue "value" attributes inner = some (name, raw) := by
  have none_own : name ∉ (attributes.filterMap (attributeProperty reserved)).map Prod.fst := by
    intro mem
    obtain ⟨property, own, rfl⟩ := List.mem_map.mp mem
    obtain ⟨item, -, declared⟩ := List.mem_filterMap.mp own
    rw [Declarations.name_of_attributeProperty item property declared] at isReserved
    rw [attributeProperty, List.contains_iff_mem.mpr isReserved, Bool.true_or, if_pos rfl] at declared
    cases declared
  rw [propertiesOf_eq, Entries.keys_ofPairs, List.mem_eraseDups, List.map_append, List.mem_append,
    or_iff_right none_own]
  constructor
  · intro mem
    obtain ⟨property, inner, rfl⟩ := List.mem_map.mp mem
    obtain ⟨node, listed, declared⟩ := List.mem_filterMap.mp inner
    obtain ⟨attributes, selfClosing, inner, raw, rfl, named, -⟩ := nodeProperty_eq_some.mp declared
    exact ⟨attributes, selfClosing, inner, raw, listed, named⟩
  · rintro ⟨attributes, selfClosing, inner, raw, listed, named⟩
    apply List.mem_map.mpr
    refine ⟨(name, .ofText raw), List.mem_filterMap.mpr ⟨_, listed, ?_⟩, rfl⟩
    exact nodeProperty_eq_some.mpr ⟨attributes, selfClosing, inner, raw, rfl, named, rfl⟩

end

/-! ## Elements -/

theorem widgetOf_eq (tag : String) (attributes : List Attribute) (children : List Node) :
    widgetOf tag attributes children = elementOf tag attributes
      ⟨propertiesOf (declaredKind tag attributes).2 attributes children,
        eventsOf (declaredKind tag attributes).2 attributes children,
        (ungroupedAll children).filterMap nodeWidget⟩ := by
  rw [widgetOf, readChildren_ofAttributes]

theorem wellFormed_widgetOf (tag : String) (attributes : List Attribute) (children : List Node) :
    (widgetOf tag attributes children).WellFormed := by
  rw [widgetOf_eq]
  refine ⟨?_, ?_, ?_, ?_⟩
  · intro events given
    rw [elementOf] at given
    dsimp only at given
    split at given
    next => cases given
    next filled =>
      cases given
      refine ⟨fun empty => filled (List.isEmpty_iff.mpr empty), ?_, fun event => handler_of_eventsOf⟩
      rw [eventsOf_eq]
      exact Entries.nodup_keys_ofPairs _
  · intro name
    exact unknown_of_declaredKind
  · rw [elementOf, propertiesOf_eq]
    exact Entries.nodup_keys_ofPairs _
  · intro name value mem
    obtain ⟨raw, read⟩ := ofText_of_propertiesOf mem
    exact isFinite_of_ofText read.symm

/-- Every element of a form that is read, at whatever depth, is well formed: it has a map of events
only if it has events, each with a handler; its kind is one of the known kinds whenever it has such
a name; and its numbers are finite. It has its identifier among its properties exactly when a
`property` element inside of it, or inside of grouping tags in it, declares a property of that
name. -/
theorem read_elements_are_wellFormed {document : String} {forms : List Form}
    (accepted : readForms document = .ok forms) :
    ∃ root, Node.read document.toList = .ok root ∧
      ∀ form ∈ forms, ∃ places : List Occurrence,
        Element.subtrees form.elements = places.map Occurrence.widget ∧
        ∀ place ∈ places, place ∈ occurrences [] root ∧ place.widget.WellFormed ∧
          ("id" ∈ Entries.keys place.widget.properties ↔
            ∃ attributes selfClosing children raw,
              .element "property" attributes selfClosing children ∈ ungroupedAll place.children ∧
                namedValue "value" attributes children = some ("id", raw)) := by
  obtain ⟨-, root, read, rfl⟩ := readForms_eq_ok.mp accepted
  refine ⟨root, read, fun form mem => ?_⟩
  rw [outermostForms_eq List.not_mem_nil root] at mem
  obtain ⟨place, outermost, rfl⟩ := List.mem_map.mp mem
  refine ⟨_, subtrees_of_form place, fun inner reached => ⟨?_, ?_, ?_⟩⟩
  · apply occurrences_within root (List.mem_filter.mp outermost).1
    exact occurrencesInAll_of_widgetsInAll place.children reached
  · exact wellFormed_widgetOf inner.tag inner.attributes inner.children
  · rw [Occurrence.widget, widgetOf_eq]
    exact mem_keys_propertiesOf (id_mem_reserved inner.tag inner.attributes)

def boxDocument : String :=
  "<Form><Div onclick=\"\"><Layout><property name=\"id\">7</property></Layout>" ++
    "<Edit id=\"e\" onblur=\"end\"/></Div></Form>"

theorem elements_of_boxDocument :
    ∃ forms, readForms boxDocument = .ok forms ∧
      (∀ form ∈ forms, ∀ element ∈ Element.subtrees form.elements, element.WellFormed) ∧
      (forms.flatMap fun form => Element.subtrees form.elements).map (fun element =>
          (Entries.keys element.properties, element.events)) =
        [(["id"], none), ([], some [("onblur", "end")])] := by
  have told : (readForms boxDocument).toOption.map (fun forms =>
      (forms.flatMap fun form => Element.subtrees form.elements).map fun element =>
          (Entries.keys element.properties, element.events)) =
        some [(["id"], none), ([], some [("onblur", "end")])] := by
    decide +kernel
  cases accepted : readForms boxDocument with
  | error =>
    rw [accepted] at told
    cases told
  | ok forms =>
    rw [accepted] at told
    obtain ⟨root, -, wellFormed⟩ := read_elements_are_wellFormed accepted
    refine ⟨forms, rfl, fun form mem element listed => ?_, Option.some.inj told⟩
    obtain ⟨places, read, holds⟩ := wellFormed form mem
    rw [read] at listed
    obtain ⟨place, reached, rfl⟩ := List.mem_map.mp listed
    exact (holds place reached).2.1

end Formwright
