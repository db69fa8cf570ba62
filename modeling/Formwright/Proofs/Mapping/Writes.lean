import Formwright.Mapping.Application
import Formwright.Proofs.Entries

/-!
What declared properties become under a rule without defaults. Each of them writes a value to the
place that the rule names for it, which is a property of the component or a field of one. A value
written to a property as a whole takes the place of all that was written there before, and fields
that are written behind it make an object anew.
-/

namespace Formwright.Mapping

structure Write where
  target : Target
  value : Value

def Rule.writeOf (rule : Rule) (declared : String × PropertyValue) : Option Write :=
  (Entries.find? rule.properties declared.1).map fun target =>
    ⟨target, target.conversion.apply declared.2⟩

def Rule.writes (rule : Rule) (declared : List (String × PropertyValue)) : List Write :=
  declared.filterMap rule.writeOf

def put (properties : Entries Value) (write : Write) : Entries Value :=
  putAt properties write.target write.value

def putAll (writes : List Write) : Entries Value := writes.foldl put []

def fieldWrites (name : String) (writes : List Write) : List (String × Value) :=
  writes.filterMap fun write =>
    if write.target.name = name then write.target.field.map fun field => (field, write.value)
    else none

def Write.after (write : Write) (before : Option Value) : Value :=
  match write.target.field with
  | none => write.value
  | some field => putField field write.value before

/-! ## One write -/

theorem put_eq (properties : Entries Value) (write : Write) :
    put properties write = Entries.insert properties write.target.name
      (write.after (Entries.find? properties write.target.name)) := by
  rw [put, putAt, Write.after]
  cases write.target.field with
  | none => rfl
  | some field => rfl

/-- A write changes nothing but the property it goes to. -/
theorem find?_put (properties : Entries Value) (write : Write) (name : String) :
    Entries.find? (put properties write) name =
      if name = write.target.name then some (write.after (Entries.find? properties name))
      else Entries.find? properties name := by
  rw [put_eq, Entries.find?_insert]
  split
  next same => rw [same]
  next => rfl

/-- Converted values are scalars. -/
theorem apply_ne_object (conversion : Conversion) (given : PropertyValue)
    (fields : Entries Value) : conversion.apply given ≠ .object fields := by
  cases conversion with
  | keep => nofun
  | visibility | invert =>
    cases given with
    | flag value => nofun
    | integer | number | text => nofun

theorem putField_bare {before : Option Value} (bare : ∀ fields, before ≠ some (.object fields))
    (field : String) (value : Value) :
    putField field value before = .object (Entries.ofPairs [(field, value)]) := by
  unfold putField
  split
  next fields => exact absurd rfl (bare fields)
  next => rfl

theorem apply_eq_putAll {rule : Rule} (plain : rule.defaults = [])
    (declared : List (String × PropertyValue)) :
    rule.apply declared = putAll (rule.writes declared) := by
  rw [Rule.apply, plain, List.foldl_nil, putAll, Rule.writes, List.foldl_filterMap]
  congr 1
  funext properties item
  rw [applyOne, Rule.writeOf]
  cases Entries.find? rule.properties item.1 with
  | none => rfl
  | some target => rfl

theorem value_ne_object {rule : Rule} {declared : List (String × PropertyValue)} {write : Write}
    (mem : write ∈ rule.writes declared) (fields : Entries Value) :
    write.value ≠ .object fields := by
  obtain ⟨item, _, written⟩ := List.mem_filterMap.mp mem
  obtain ⟨target, _, rfl⟩ := Option.map_eq_some_iff.mp written
  exact apply_ne_object target.conversion item.2 fields

/-! ## All writes -/

theorem putAll_append (before after : List Write) :
    putAll (before ++ after) = after.foldl put (putAll before) := List.foldl_append

theorem putAll_single (before : List Write) (last : Write) :
    putAll (before ++ [last]) = put (putAll before) last := putAll_append before [last]

/-- Properties come in the order in which they were first written. -/
theorem keys_putAll (writes : List Write) :
    Entries.keys (putAll writes) = (writes.map (·.target.name)).eraseDups := by
  induction writes using List.reverseRecOn with
  | nil => rfl
  | append_singleton writes last ih =>
    rw [putAll_single, put_eq, List.map_append]
    exact Entries.keys_insert_eraseDups ih _ _

/-- What stands at a property comes from the writes to it alone. -/
theorem find?_putAll_filter (writes : List Write) (name : String) :
    Entries.find? (putAll (writes.filter (·.target.name = name))) name =
      Entries.find? (putAll writes) name := by
  induction writes using List.reverseRecOn with
  | nil => rfl
  | append_singleton writes last ih =>
    rw [List.filter_append, putAll_single, find?_put]
    by_cases here : last.target.name = name
    · have taken : [last].filter (·.target.name = name) = [last] :=
        List.filter_cons_of_pos (decide_eq_true here)
      rw [taken, putAll_single, find?_put, if_pos here.symm, if_pos here.symm, ih]
    · have passed : [last].filter (·.target.name = name) = [] :=
        List.filter_cons_of_neg fun same => here (of_decide_eq_true same)
      rw [passed, List.append_nil, if_neg fun same => here same.symm, ih]

theorem find?_putAll_elsewhere {before after : List Write} {name : String}
    (elsewhere : ∀ write ∈ after, write.target.name ≠ name) :
    Entries.find? (putAll (before ++ after)) name = Entries.find? (putAll before) name := by
  have passed : after.filter (·.target.name = name) = [] := by
    rw [List.filter_eq_nil_iff]
    intro write mem same
    exact elsewhere write mem (of_decide_eq_true same)
  rw [← find?_putAll_filter, List.filter_append, passed, List.append_nil, find?_putAll_filter]

theorem find?_putAll_whole (before : List Write) (name : String) (value : Value) :
    Entries.find? (putAll (before ++ [⟨⟨name, none⟩, value⟩])) name = some value := by
  rw [putAll_single, find?_put, if_pos rfl]
  rfl

theorem fieldWrites_append (name : String) (first second : List Write) :
    fieldWrites name (first ++ second) = fieldWrites name first ++ fieldWrites name second :=
  List.filterMap_append

theorem fieldWrites_part (name field : String) (value : Value) :
    fieldWrites name [⟨⟨name, some field⟩, value⟩] = [(field, value)] := by
  simp [fieldWrites]

theorem fieldWrites_elsewhere {name : String} {write : Write}
    (elsewhere : write.target.name ≠ name) : fieldWrites name [write] = [] := by
  simp [fieldWrites, elsewhere]

/-- Fields that are written where no object stands make one of their own. -/
theorem find?_putAll_fields {before after : List Write} {name : String}
    (bare : ∀ fields, Entries.find? (putAll before) name ≠ some (.object fields))
    (parts : ∀ write ∈ after, write.target ≠ ⟨name, none⟩) :
    Entries.find? (putAll (before ++ after)) name =
      if fieldWrites name after = [] then Entries.find? (putAll before) name
      else some (.object (Entries.ofPairs (fieldWrites name after))) := by
  induction after using List.reverseRecOn with
  | nil =>
    rw [List.append_nil]
    rfl
  | append_singleton after last ih =>
    have ih := ih fun write mem => parts write (List.mem_append_left _ mem)
    have other := parts last (List.mem_append_right _ (List.mem_singleton_self last))
    obtain ⟨⟨place, field⟩, value⟩ := last
    rw [← List.append_assoc, putAll_single, find?_put, fieldWrites_append, ih]
    by_cases here : place = name
    · subst here
      cases field with
      | none => exact absurd rfl other
      | some field =>
        have filled : fieldWrites place after ++ [(field, value)] ≠ [] :=
          List.append_ne_nil_of_right_ne_nil _ (List.cons_ne_nil _ _)
        rw [fieldWrites_part, if_pos rfl, if_neg filled]
        change some (putField field value _) = _
        by_cases first : fieldWrites place after = []
        · rw [if_pos first, putField_bare bare, first, List.nil_append]
        · rw [if_neg first, Entries.ofPairs_append]
          rfl
    · rw [fieldWrites_elsewhere here, List.append_nil, if_neg fun same => here same.symm]

/-- Under a rule without defaults the last write to a property counts. Properties come in the order
in which they were first written, and a property that nothing is written to is missing. One that is
written as a whole, and not again behind that, holds the value written last. Any other one holds an
object of the fields that were written since it was last written as a whole, or of all of them if it
never was: each in the place where it came first since then, with the value that came last. What
stands at a property comes from the writes to it alone. -/
theorem last_write_counts (rule : Rule) (plain : rule.defaults = [])
    (declared : List (String × PropertyValue)) :
    let writes := rule.writes declared
    let result := rule.apply declared
    Entries.keys result = (writes.map (·.target.name)).eraseDups ∧
    (∀ name, (∀ write ∈ writes, write.target.name ≠ name) → Entries.find? result name = none) ∧
    (∀ name value before after, writes = before ++ ⟨⟨name, none⟩, value⟩ :: after →
      (∀ write ∈ after, write.target.name ≠ name) → Entries.find? result name = some value) ∧
    (∀ name before after, writes = before ++ after →
      (before = [] ∨ ∃ earlier value, before = earlier ++ [⟨⟨name, none⟩, value⟩]) →
      (∀ write ∈ after, write.target ≠ ⟨name, none⟩) → fieldWrites name after ≠ [] →
      ∃ fields, Entries.find? result name = some (.object fields) ∧
        Entries.keys fields = ((fieldWrites name after).map Prod.fst).eraseDups ∧
        ∀ field, Entries.find? fields field = (fieldWrites name after).reverse.lookup field) ∧
    ∀ others name, (rule.writes others).filter (·.target.name = name) =
        writes.filter (·.target.name = name) →
      Entries.find? (rule.apply others) name = Entries.find? result name := by
  intro writes result
  have applied : result = putAll writes := apply_eq_putAll plain declared
  refine ⟨?_, ?_, ?_, ?_, ?_⟩
  · rw [applied]
    exact keys_putAll writes
  · intro name elsewhere
    have untouched : Entries.find? (putAll ([] ++ writes)) name = Entries.find? (putAll []) name :=
      find?_putAll_elsewhere elsewhere
    rw [applied]
    exact untouched
  · intro name value before after split elsewhere
    rw [applied, split, List.append_cons, find?_putAll_elsewhere elsewhere, find?_putAll_whole]
  · intro name before after split begins parts filled
    have bare : ∀ fields, Entries.find? (putAll before) name ≠ some (.object fields) := by
      obtain rfl | ⟨earlier, value, rfl⟩ := begins
      · nofun
      · intro fields found
        rw [find?_putAll_whole] at found
        have mem : ⟨⟨name, none⟩, value⟩ ∈ writes := by
          rw [split]
          simp
        exact value_ne_object mem fields (Option.some.inj found)
    refine ⟨Entries.ofPairs (fieldWrites name after), ?_, Entries.keys_ofPairs _,
      Entries.find?_ofPairs _⟩
    rw [applied, split, find?_putAll_fields bare parts, if_neg filled]
  · intro others name same
    rw [applied, apply_eq_putAll plain others, ← find?_putAll_filter, same, find?_putAll_filter]

def styleRule : Rule where
  kind := .div
  component := "div"
  properties := [("hint", ⟨"title", none⟩), ("look", ⟨"style", none⟩),
    ("shown", ⟨"style", some "display"⟩), ("color", ⟨"style", some "color"⟩)]
  defaults := []
  events := []

def styleDeclared : List (String × PropertyValue) :=
  [("color", .text "red"), ("look", .text "plain"), ("shown", .flag true), ("other", .integer 1),
    ("color", .text "blue"), ("hint", .text "box"), ("shown", .flag false)]

theorem style_of_last_fields :
    styleRule.defaults = [] ∧
    Entries.keys (styleRule.apply styleDeclared) = ["style", "title"] ∧
    (∃ fields, Entries.find? (styleRule.apply styleDeclared) "style" = some (.object fields) ∧
      Entries.keys fields = ["display", "color"] ∧
      Entries.find? fields "display" = some (.text "none") ∧
      Entries.find? fields "color" = some (.text "blue")) ∧
    Entries.find? (styleRule.apply styleDeclared) "title" = some (.text "box") ∧
    Entries.find? (styleRule.apply styleDeclared) "display" = none := by
  obtain ⟨names, missing, whole, parts, -⟩ := last_write_counts styleRule rfl styleDeclared
  let before : List Write := [⟨⟨"style", some "color"⟩, .text "red"⟩]
  let after : List Write := [⟨⟨"style", some "display"⟩, .text "block"⟩,
    ⟨⟨"style", some "color"⟩, .text "blue"⟩, ⟨⟨"title", none⟩, .text "box"⟩,
    ⟨⟨"style", some "display"⟩, .text "none"⟩]
  obtain ⟨fields, found, inOrder, last⟩ := parts "style"
    (before ++ [⟨⟨"style", none⟩, .text "plain"⟩]) after rfl (.inr ⟨before, _, rfl⟩)
    (by decide) (List.cons_ne_nil _ _)
  refine ⟨rfl, names, ⟨fields, found, inOrder, last "display", last "color"⟩, ?_, ?_⟩
  · exact whole "title" (.text "box")
      (before ++ ⟨⟨"style", none⟩, .text "plain"⟩ :: after.take 2) (after.drop 3) rfl (by decide)
  · exact missing "display" (by decide)

end Formwright.Mapping
