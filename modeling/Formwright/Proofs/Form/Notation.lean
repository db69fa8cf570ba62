import Formwright.Proofs.Form.Comments
import Formwright.Proofs.Form.Elements

/-!
The two notations for widgets: a tag of the name of the kind, and the generic tag with that name as
its type. Whichever is used for the widgets of a form, the same is read.
-/

namespace Formwright

open Markup (Node Attribute attributeValue leadingText)
open Declarations (groupingTags untypedTag attributeProperty attributeEvent ofAttributes)

/-- An element with its kind as its tag that can be written with the generic tag. -/
structure IsTyped (tag : String) (attributes : List Attribute) : Prop where
  typed : tag ≠ untypedTag
  noProperty : tag ≠ "property"
  noEvent : tag ≠ "event"
  plain : tag ∉ groupingTags
  named : tag ≠ ""
  free : ∀ item ∈ attributes, item.name ≠ "type"

def typeAttribute (tag : String) : Attribute := ⟨none, "type", tag⟩

section
variable {tag : String} {before after : List Attribute}

theorem attributeValue_typed {name : String} (other : name ≠ "type") :
    attributeValue (before ++ typeAttribute tag :: after) name =
      attributeValue (before ++ after) name := by
  have passed : (typeAttribute tag :: after).find?
      (fun item => item.space.isNone && item.name == name) =
        after.find? fun item => item.space.isNone && item.name == name :=
    List.find?_cons_of_neg fun found => other (eq_of_beq found).symm
  rw [attributeValue, attributeValue, List.find?_append, List.find?_append, passed]

theorem attributeValue_type (free : ∀ item ∈ before ++ after, item.name ≠ "type") :
    attributeValue (before ++ typeAttribute tag :: after) "type" = some tag := by
  have passed : before.find? (fun item => item.space.isNone && item.name == "type") = none := by
    rw [List.find?_eq_none]
    intro item mem found
    exact free item (List.mem_append_left _ mem) (eq_of_beq (Bool.and_eq_true_iff.mp found).2)
  rw [attributeValue, List.find?_append, passed]
  rfl

theorem declaredKind_typed (typed : IsTyped tag (before ++ after)) :
    declaredKind tag (before ++ after) = (some (.ofName tag), ["id"]) ∧
      declaredKind untypedTag (before ++ typeAttribute tag :: after) =
        (some (.ofName tag), ["id", "type"]) := by
  have filled : (!tag.isEmpty) = true := by
    rw [Bool.not_eq_true', Bool.eq_false_iff]
    exact fun empty => typed.named (String.isEmpty_iff.mp empty)
  constructor
  · rw [declaredKind, if_neg typed.typed]
  · rw [declaredKind, if_pos rfl, attributeValue_type typed.free, Option.filter_some, if_pos filled]
    rfl

theorem filterMap_typed {β : Type} {part part' : Attribute → Option β}
    (skipped : part' (typeAttribute tag) = none)
    (same : ∀ item ∈ before ++ after, part' item = part item) :
    (before ++ typeAttribute tag :: after).filterMap part' = (before ++ after).filterMap part := by
  rw [List.filterMap_append, List.filterMap_cons_none skipped, ← List.filterMap_append]
  exact List.filterMap_congr same

/-- The type of a generic tag is reserved, and other attributes are read as those of a typed tag. -/
theorem ofAttributes_typed (free : ∀ item ∈ before ++ after, item.name ≠ "type") :
    ofAttributes ["id", "type"] (before ++ typeAttribute tag :: after) =
      ofAttributes ["id"] (before ++ after) := by
  have reserved : ∀ item ∈ before ++ after,
      ["id", "type"].contains item.name = ["id"].contains item.name := by
    intro item mem
    simp [free item mem]
  rw [Declarations.ofAttributes_eq, Declarations.ofAttributes_eq]
  congr 1
  · refine filterMap_typed rfl fun item mem => ?_
    rw [attributeProperty, attributeProperty, reserved item mem]
  · refine filterMap_typed rfl fun item mem => ?_
    rw [attributeEvent, attributeEvent, reserved item mem]

theorem elementOf_typed (typed : IsTyped tag (before ++ after)) (declared : Declarations) :
    elementOf untypedTag (before ++ typeAttribute tag :: after) declared =
      elementOf tag (before ++ after) declared := by
  obtain ⟨kind, kind'⟩ := declaredKind_typed typed
  rw [elementOf, elementOf, kind, kind', attributeValue_typed (by decide)]

/-- A widget is the same in both notations, if what it contains is. -/
theorem widgetOf_typed (typed : IsTyped tag (before ++ after)) {children children' : List Node}
    (inner : ∀ declared, readChildren declared children = readChildren declared children') :
    widgetOf tag (before ++ after) children =
      widgetOf untypedTag (before ++ typeAttribute tag :: after) children' := by
  obtain ⟨kind, kind'⟩ := declaredKind_typed typed
  rw [widgetOf, widgetOf, kind, kind', ofAttributes_typed typed.free, elementOf_typed typed, inner]

end

mutual

inductive Retyped : Node → Node → Prop
  | same (node : Node) : Retyped node node
  | inside {tag : String} {attributes : List Attribute} {selfClosing : Bool}
      {children children' : List Node} (inner : RetypedAll children children') :
      Retyped (.element tag attributes selfClosing children)
        (.element tag attributes selfClosing children')
  | generic {tag : String} {before after : List Attribute} {selfClosing : Bool}
      {children children' : List Node} (typed : IsTyped tag (before ++ after))
      (inner : RetypedAll children children') :
      Retyped (.element tag (before ++ after) selfClosing children)
        (.element untypedTag (before ++ typeAttribute tag :: after) selfClosing children')

inductive RetypedAll : List Node → List Node → Prop
  | nil : RetypedAll [] []
  | cons {node node' : Node} {later later' : List Node} (first : Retyped node node')
      (rest : RetypedAll later later') : RetypedAll (node :: later) (node' :: later')

end

theorem RetypedAll.leadingText {children children' : List Node}
    (retyped : RetypedAll children children') :
    leadingText children = leadingText children' := by
  cases retyped with
  | nil => rfl
  | @cons node _ _ _ first rest =>
    cases first with
    | same => cases node <;> rfl
    | inside => rfl
    | generic => rfl

mutual

theorem readChild_retyped : (node : Node) → {node' : Node} → Retyped node node' →
    ∀ declared, readChild declared node = readChild declared node'
  | .text _, _, retyped | .comment _, _, retyped | .instruction _ _, _, retyped => by
    cases retyped
    exact fun _ => rfl
  | .element tag attributes selfClosing children, _, retyped => by
    intro declared
    cases retyped with
    | same => rfl
    | inside inner =>
      exact readChild_congr (fun _ _ _ => inner.leadingText) (readChildren_retyped children inner)
        declared
    | generic typed inner =>
      rw [readChild_widget declared typed.noProperty typed.noEvent typed.plain,
        readChild_widget declared (by decide) (by decide) (by decide),
        widgetOf_typed typed (readChildren_retyped children inner)]

theorem readChildren_retyped : (nodes : List Node) → {nodes' : List Node} →
    RetypedAll nodes nodes' → ∀ declared, readChildren declared nodes = readChildren declared nodes'
  | [], _, retyped => by
    cases retyped
    exact fun _ => rfl
  | node :: later, _, retyped => by
    intro declared
    cases retyped with
    | cons first rest =>
      rw [readChildren, readChildren, readChild_retyped node first,
        readChildren_retyped later rest]

end

/-- The notations agree. An element is read as the same widget from its tag as from the generic tag
with a type, wherever among the attributes the type stands; and a form is read the same, however
many of its elements are written with the generic tag. -/
theorem notations_agree :
    (∀ tag before after children, IsTyped tag (before ++ after) →
      widgetOf tag (before ++ after) children =
        widgetOf untypedTag (before ++ typeAttribute tag :: after) children) ∧
    ∀ attributes children children', RetypedAll children children' →
      formOf attributes children = formOf attributes children' := by
  constructor
  · intro tag before after children typed
    exact widgetOf_typed typed fun _ => rfl
  · intro attributes children children' retyped
    rw [formOf, formOf, readChildren_retyped children retyped]

/-- A button in a box, both of them in both notations. -/
theorem notations_of_button_in_box :
    let typed : List Node := [.element "Div" [⟨none, "id", "box"⟩] false [.element "Layout" [] false
      [.element "Button" [⟨none, "id", "save"⟩, ⟨none, "text", "Save"⟩] true []]]]
    let generic : List Node :=
      [.element "Component" [⟨none, "type", "Div"⟩, ⟨none, "id", "box"⟩] false
        [.element "Layout" [] false [.element "Component"
          [⟨none, "id", "save"⟩, ⟨none, "type", "Button"⟩, ⟨none, "text", "Save"⟩] true []]]]
    RetypedAll typed generic ∧ formOf [] typed = formOf [] generic := by
  intro typed generic
  have button : IsTyped "Button" ([⟨none, "id", "save"⟩] ++ [⟨none, "text", "Save"⟩]) :=
    ⟨by decide, by decide, by decide, by decide, by decide, by decide⟩
  have box : IsTyped "Div" ([] ++ [⟨none, "id", "box"⟩]) :=
    ⟨by decide, by decide, by decide, by decide, by decide, by decide⟩
  have retyped : RetypedAll typed generic :=
    .cons (.generic box (.cons (.inside (.cons (.generic button .nil) .nil)) .nil)) .nil
  exact ⟨retyped, notations_agree.2 [] typed generic retyped⟩

end Formwright
