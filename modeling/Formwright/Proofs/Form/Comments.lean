import Formwright.Form.Reading
import Formwright.Proofs.Markup.Removal
import Formwright.Proofs.Text.Utf8

/-!
Comments in the markup of forms. A comment changes no form, unless it cuts the text from which a
property or an event takes its value: then what stands behind the comment is lost.
-/

namespace Formwright

open Markup (Node Attribute Site Parts Drops leadingText attributeValue)

def valueAttribute (tag : String) : Option String :=
  if tag = "property" then some "value" else if tag = "event" then some "handler" else none

def cutsText (earlier later : List Node) : Bool :=
  match earlier with
  | [] | [.text _] => (leadingText later).isSome
  | _ => false

/-- Whether a comment cuts the text that is the value of its element. -/
def cutsValue (site : Site) : Bool :=
  match valueAttribute site.name with
  | some name => (attributeValue site.attributes name).isNone && cutsText site.earlier site.later
  | none => false

theorem leadingText_append (first second : List Node) {node : Node} (other : node.isText = false) :
    leadingText (first ++ node :: second) = leadingText first := by
  cases first with
  | nil =>
    cases node with
    | text => cases other
    | element | comment | instruction => rfl
  | cons head first => cases head <;> rfl

theorem leadingText_parts {first second plain : List Node} (parts : Parts first second plain)
    (whole : cutsText first second = false) : leadingText first = leadingText plain := by
  cases parts with
  | apart =>
    cases first with
    | nil => exact (Option.not_isSome_iff_eq_none.mp (Bool.eq_false_iff.mp whole)).symm
    | cons head first => cases head <;> rfl
  | joined first second one other =>
    cases first with
    | nil => cases whole
    | cons head first => cases head <;> rfl

namespace Declarations

theorem namedValue_congr {valueName : String} {attributes : List Attribute}
    {children plain : List Node}
    (same : attributeValue attributes valueName = none → leadingText children = leadingText plain) :
    namedValue valueName attributes children = namedValue valueName attributes plain := by
  unfold namedValue
  cases given : attributeValue attributes valueName with
  | some value => rfl
  | none => rw [same given]

end Declarations

/-! ## Children with a comment among them -/

theorem readChildren_append (declared : Declarations) (first second : List Node) :
    readChildren declared (first ++ second) = readChildren (readChildren declared first) second := by
  induction first generalizing declared with
  | nil => rfl
  | cons node first ih =>
    rw [List.cons_append, readChildren, readChildren]
    exact ih _

theorem readChildren_parts {first second plain : List Node} (parts : Parts first second plain)
    (content : String) (declared : Declarations) :
    readChildren declared (first ++ .comment content :: second) = readChildren declared plain := by
  have unread (declared : Declarations) {node : Node} (leaf : node.isElement = false)
      (later : List Node) : readChildren declared (node :: later) = readChildren declared later := by
    cases node with
    | element => cases leaf
    | text | comment | instruction =>
      rw [readChildren, readChild]
      rintro _ _ _ _ ⟨⟩
  rw [readChildren_append, unread _ rfl]
  cases parts with
  | apart => exact (readChildren_append ..).symm
  | joined first second one other whole =>
    rw [readChildren_append, readChildren_append, unread _ rfl, unread _ rfl, unread _ rfl]
    rfl

/-- An element is read by its children, and by the text they begin with. -/
theorem readChild_congr {tag : String} {attributes : List Attribute} {selfClosing : Bool}
    {children plain : List Node}
    (values : ∀ name, valueAttribute tag = some name → attributeValue attributes name = none →
      leadingText children = leadingText plain)
    (inner : ∀ declared, readChildren declared children = readChildren declared plain)
    (declared : Declarations) :
    readChild declared (.element tag attributes selfClosing children) =
      readChild declared (.element tag attributes selfClosing plain) := by
  unfold readChild
  split
  next isProperty =>
    have value : valueAttribute tag = some "value" := if_pos isProperty
    rw [Declarations.namedValue_congr (values _ value)]
  next noProperty =>
    split
    next isEvent =>
      have value : valueAttribute tag = some "handler" := (if_neg noProperty).trans (if_pos isEvent)
      rw [Declarations.namedValue_congr (values _ value)]
    next => simp only [inner]

theorem readChild_drops {content : String} {site : Site} {node plain : Node}
    (drops : Drops content site node plain) (whole : cutsValue site = false)
    (declared : Declarations) : readChild declared node = readChild declared plain := by
  induction drops generalizing declared with
  | here parts =>
    refine readChild_congr (fun name isValue absent => ?_) (readChildren_parts parts content) declared
    rw [leadingText_append _ _ rfl]
    rw [cutsValue, isValue] at whole
    exact leadingText_parts parts (by simpa [absent] using whole)
  | inside first second drops ih =>
    refine readChild_congr (fun name _ _ => ?_) (fun declared => ?_) declared
    · rw [leadingText_append _ _ drops.notText.1, leadingText_append _ _ drops.notText.2]
    · rw [readChildren_append, readChildren_append, readChildren, readChildren, ih]

theorem outermostFormsOfAll_append (first second : List Node) :
    outermostFormsOfAll (first ++ second) =
      outermostFormsOfAll first ++ outermostFormsOfAll second := by
  induction first with
  | nil => rfl
  | cons node first ih =>
    rw [List.cons_append, outermostFormsOfAll, outermostFormsOfAll, ih, List.append_assoc]

theorem outermostFormsOfAll_parts {first second plain : List Node}
    (parts : Parts first second plain) (content : String) :
    outermostFormsOfAll (first ++ .comment content :: second) = outermostFormsOfAll plain := by
  have unread {node : Node} (leaf : node.isElement = false) (later : List Node) :
      outermostFormsOfAll (node :: later) = outermostFormsOfAll later := by
    cases node with
    | element => cases leaf
    | text | comment | instruction => rfl
  rw [outermostFormsOfAll_append, unread rfl]
  cases parts with
  | apart => exact (outermostFormsOfAll_append ..).symm
  | joined first second one other whole =>
    rw [outermostFormsOfAll_append, outermostFormsOfAll_append, unread rfl, unread rfl, unread rfl]
    exact congrArg (· ++ _) (List.append_nil _)

/-- The forms in an element depend on its children only as the children are read. -/
theorem outermostForms_congr {tag : String} {attributes : List Attribute} {selfClosing : Bool}
    {children plain : List Node}
    (inner : ∀ declared, readChildren declared children = readChildren declared plain)
    (forms : outermostFormsOfAll children = outermostFormsOfAll plain) :
    outermostForms (.element tag attributes selfClosing children) =
      outermostForms (.element tag attributes selfClosing plain) := by
  unfold outermostForms
  split
  next => simp only [formOf, inner]
  next => exact forms

theorem outermostForms_drops {content : String} {site : Site} {node plain : Node}
    (drops : Drops content site node plain) (whole : cutsValue site = false) :
    outermostForms node = outermostForms plain := by
  induction drops with
  | here parts =>
    exact outermostForms_congr (readChildren_parts parts content)
      (outermostFormsOfAll_parts parts content)
  | inside first second drops ih =>
    refine outermostForms_congr (fun declared => ?_) ?_
    · rw [readChildren_append, readChildren_append, readChildren, readChildren,
        readChild_drops drops whole]
    · rw [outermostFormsOfAll_append, outermostFormsOfAll_append, outermostFormsOfAll,
        outermostFormsOfAll, ih]

/-- A document and the document without one of its comments, both accepted. Their trees differ at
the comment alone. If the comment does not cut the value of a property or an event, the forms are
the same, and so is the verdict of the scan if it takes no comment for markup. If it does, the value
is what the children before the comment say, whatever stands behind it. -/
theorem forms_without_comment {document before content after : List Char} {root plain : Node}
    (holds : Markup.HoldsComment document before content after)
    (accepted : Node.read document = .ok root)
    (accepted' : Node.read (before ++ after) = .ok plain) :
    ∃ site, Drops (String.ofList content) site root plain ∧
      (cutsValue site = false → outermostForms root = outermostForms plain ∧
        ((∀ token ∈ (Markup.lex document).tokens, token.isPassedOver = true) →
          readForms (String.ofList document) = readForms (String.ofList (before ++ after)))) ∧
      ∀ name, valueAttribute site.name = some name →
        Declarations.namedValue name site.attributes
            (site.earlier ++ .comment (String.ofList content) :: site.later) =
          Declarations.namedValue name site.attributes site.earlier := by
  obtain ⟨site, drops⟩ := Markup.drops_of_read holds accepted accepted'
  refine ⟨site, drops, fun whole => ?_, fun name _ => ?_⟩
  · have forms := outermostForms_drops drops whole
    refine ⟨forms, fun passed => ?_⟩
    have clean := (Markup.built_of_read accepted).1
    have clean' := (Markup.built_of_read accepted').1
    have verdict := Markup.nestsDeeperThan_uncommented holds clean clean' passed markupDepthLimit
    unfold readForms
    rw [String.toList_ofList, String.toList_ofList, accepted, accepted', verdict]
    simp only [forms]
  · exact Declarations.namedValue_congr fun _ => leadingText_append _ _ rfl

theorem holdsComment_leading :
    Markup.HoldsComment "<Form><!--a--><Div/></Form>".toList "<Form>".toList "a".toList
      "<Div/></Form>".toList :=
  ⟨1, _, _, .next (.next (.start rfl) rfl) rfl, rfl, rfl, rfl⟩

/-- A comment at the beginning of a form stands in no value, and changes nothing. -/
theorem leading_comment_changes_nothing :
    Markup.HoldsComment "<Form><!--a--><Div/></Form>".toList "<Form>".toList "a".toList
        "<Div/></Form>".toList ∧
      Node.read "<Form><!--a--><Div/></Form>".toList =
        .ok (.element "Form" [] false [.comment "a", .element "Div" [] true []]) ∧
      Node.read ("<Form>".toList ++ "<Div/></Form>".toList) =
        .ok (.element "Form" [] false [.element "Div" [] true []]) ∧
      (∃ site, Drops "a" site
          (.element "Form" [] false [.comment "a", .element "Div" [] true []])
          (.element "Form" [] false [.element "Div" [] true []]) ∧ cutsValue site = false) ∧
      (∀ token ∈ (Markup.lex "<Form><!--a--><Div/></Form>".toList).tokens,
        token.isPassedOver = true) ∧
      readForms (String.ofList "<Form><!--a--><Div/></Form>".toList) =
        readForms (String.ofList ("<Form>".toList ++ "<Div/></Form>".toList)) := by
  have holds := holdsComment_leading
  have accepted : Node.read "<Form><!--a--><Div/></Form>".toList =
      .ok (.element "Form" [] false [.comment "a", .element "Div" [] true []]) := by rfl
  have accepted' : Node.read ("<Form>".toList ++ "<Div/></Form>".toList) =
      .ok (.element "Form" [] false [.element "Div" [] true []]) := by rfl
  have passed : ∀ token ∈ (Markup.lex "<Form><!--a--><Div/></Form>".toList).tokens,
      token.isPassedOver = true := by decide +kernel
  obtain ⟨site, drops, same, -⟩ := forms_without_comment holds accepted accepted'
  have whole : cutsValue site = false := by
    obtain ⟨name, attributes, earlier, later⟩ := site
    generalize isRoot : Node.element "Form" [] false [.comment "a", .element "Div" [] true []] =
      root at drops
    generalize Node.element "Form" [] false [.element "Div" [] true []] = plain at drops
    cases drops with
    | here =>
      injection isRoot with isForm
      cases isForm
      rfl
    | @inside _ _ node _ first second drops =>
      injection isRoot with _ _ _ children
      have mem : node ∈ [Node.comment "a", .element "Div" [] true []] := by
        rw [children]
        exact List.mem_append_right _ List.mem_cons_self
      rcases List.mem_cons.mp mem with rfl | mem
      · cases drops
      · obtain rfl := List.mem_singleton.mp mem
        cases drops
  exact ⟨holds, accepted, accepted', ⟨site, drops, whole⟩, passed, (same whole).2 passed⟩

theorem holdsComment_labelled :
    Markup.HoldsComment
      "<Form id=\"f\"><property name=\"text\"><!-- label -->Hello</property></Form>".toList
      "<Form id=\"f\"><property name=\"text\">".toList " label ".toList
      "Hello</property></Form>".toList := by
  simp only [Text.toList_eq_characters]
  exact ⟨2, _, _, .next (.next (.next (.next (.next (.next (.start rfl) rfl) rfl) rfl) rfl) rfl) rfl,
    rfl, rfl, rfl⟩

/-- A label in a property hides its text from the forms. -/
theorem comment_hides_value :
    ¬ ∀ (document before content after : List Char) (root plain : Node),
      Markup.HoldsComment document before content after → Node.read document = .ok root →
      Node.read (before ++ after) = .ok plain →
      readForms (String.ofList document) = readForms (String.ofList (before ++ after)) := by
  intro same
  obtain ⟨root, accepted, -⟩ := Markup.read_of_openDepth
    "<Form id=\"f\"><property name=\"text\"><!-- label -->Hello</property></Form>".toList 2
    (by rw [Text.toList_eq_characters]; decide +kernel)
  obtain ⟨plain, accepted', -⟩ := Markup.read_of_openDepth
    ("<Form id=\"f\"><property name=\"text\">".toList ++ "Hello</property></Form>".toList) 2
    (by simp only [Text.toList_eq_characters]; decide +kernel)
  have alike := same _ _ _ _ root plain holdsComment_labelled accepted accepted'
  have counts := congrArg (fun forms => forms.toOption.map (·.map (·.properties.length))) alike
  revert counts
  simp only [readForms, Text.toList_eq_characters]
  decide +kernel

end Formwright
