import Formwright.Component.Conversion
import Formwright.Proofs.Component.Reader
import Formwright.Proofs.Effects
import Formwright.Proofs.Form.Property
import Formwright.Proofs.Manifest.Reading
import Formwright.Proofs.Toml.Lines
import Formwright.Proofs.Toml.Numbers

/-!
The numbers that reach the generated code. They come from the properties of forms, where a numeral
for no finite number stays text, and from the defaults of rules, where a manifest may also name the
numbers that are not finite.
-/

namespace Formwright

open Markup (Node Attribute)

/-! ## Numbers of a form -/

def PropertyValue.number? : PropertyValue → Option Binary64
  | .number value => some value
  | .flag _ | .integer _ | .text _ => none

def numbersOfProperties (properties : Entries PropertyValue) : List Binary64 :=
  properties.filterMap fun item => item.2.number?

mutual

def Element.numbers : Element → List Binary64
  | ⟨_, _, properties, _, children⟩ =>
    numbersOfProperties properties ++ numbersOfElements children

def numbersOfElements : List Element → List Binary64
  | [] => []
  | element :: later => element.numbers ++ numbersOfElements later

end

def Form.numbers (form : Form) : List Binary64 :=
  numbersOfProperties form.properties ++ numbersOfElements form.elements

theorem numbersOfElements_append (first second : List Element) :
    numbersOfElements (first ++ second) = numbersOfElements first ++ numbersOfElements second := by
  induction first with
  | nil => rfl
  | cons element first ih => simp [numbersOfElements, ih]

namespace Declarations

structure IsFinite (declared : Declarations) : Prop where
  properties : ∀ n ∈ numbersOfProperties declared.properties, n.isFinite = true
  children : ∀ n ∈ numbersOfElements declared.children, n.isFinite = true

variable {declared : Declarations}

theorem IsFinite.addProperty (finite : declared.IsFinite) (name value : String) :
    (declared.addProperty name value).IsFinite := by
  refine ⟨fun n mem => ?_, finite.children⟩
  obtain ⟨item, listed, number⟩ := List.mem_filterMap.mp mem
  obtain rfl | old := Entries.mem_insert listed
  · cases read : PropertyValue.ofText value with
    | number read_n =>
      rw [read] at number
      cases number
      exact isFinite_of_ofText read
    | flag | integer | text =>
      rw [read] at number
      cases number
  · exact finite.properties n (List.mem_filterMap.mpr ⟨item, old, number⟩)

theorem IsFinite.addEvent (finite : declared.IsFinite) (name handler : String) :
    (declared.addEvent name handler).IsFinite := by
  rw [Declarations.addEvent]
  split
  · exact finite
  · exact ⟨finite.properties, finite.children⟩

theorem isFinite_ofAttributes (reserved : List String) (attributes : List Attribute) :
    (ofAttributes reserved attributes).IsFinite := by
  have start : ({} : Declarations).IsFinite := ⟨nofun, nofun⟩
  rw [ofAttributes]
  generalize ({} : Declarations) = declared at start ⊢
  induction attributes generalizing declared with
  | nil => exact start
  | cons item later ih =>
    apply ih
    rw [addAttribute]
    split
    · exact start
    · split
      · exact start.addEvent ..
      · exact start.addProperty ..

mutual

theorem IsFinite.readChild {declared : Declarations} (finite : declared.IsFinite) :
    (node : Node) → (Formwright.readChild declared node).IsFinite
  | .element tag attributes selfClosing children => by
    rw [Formwright.readChild]
    split
    · split
      · exact finite.addProperty ..
      · exact finite
    · split
      · split
        · exact finite.addEvent ..
        · exact finite
      · split
        · exact finite.readChildren children
        · have inner := (isFinite_ofAttributes (declaredKind tag attributes).2 attributes).readChildren
            children
          refine ⟨finite.properties, fun n mem => ?_⟩
          rw [numbersOfElements_append] at mem
          cases List.mem_append.mp mem with
          | inl old => exact finite.children n old
          | inr new =>
            rw [numbersOfElements, numbersOfElements, List.append_nil, elementOf,
              Element.numbers] at new
            cases List.mem_append.mp new with
            | inl here => exact inner.properties n here
            | inr below => exact inner.children n below
  | .text _ => finite
  | .comment _ => finite
  | .instruction _ _ => finite

theorem IsFinite.readChildren {declared : Declarations} (finite : declared.IsFinite) :
    (nodes : List Node) → (Formwright.readChildren declared nodes).IsFinite
  | [] => finite
  | node :: later => (finite.readChild node).readChildren later

end

end Declarations

mutual

theorem isFinite_of_outermostForms {n : Binary64} : (node : Node) →
    n ∈ (outermostForms node).flatMap Form.numbers → n.isFinite = true
  | .element tag attributes selfClosing children => by
    intro mem
    rw [outermostForms] at mem
    split at mem
    · have declared :=
        (Declarations.isFinite_ofAttributes ["id", "name"] attributes).readChildren children
      rw [List.flatMap_singleton, Form.numbers, formOf] at mem
      cases List.mem_append.mp mem with
      | inl here => exact declared.properties n here
      | inr below => exact declared.children n below
    · exact isFinite_of_outermostFormsOfAll children mem
  | .text _ => nofun
  | .comment _ => nofun
  | .instruction _ _ => nofun

theorem isFinite_of_outermostFormsOfAll {n : Binary64} : (nodes : List Node) →
    n ∈ (outermostFormsOfAll nodes).flatMap Form.numbers → n.isFinite = true
  | [] => nofun
  | node :: later => by
    intro mem
    rw [outermostFormsOfAll, List.flatMap_append] at mem
    cases List.mem_append.mp mem with
    | inl here => exact isFinite_of_outermostForms node here
    | inr below => exact isFinite_of_outermostFormsOfAll later below

end

theorem isFinite_of_readForms {document : String} {forms : List Form}
    (read : readForms document = .ok forms) :
    ∀ n ∈ forms.flatMap Form.numbers, n.isFinite = true := by
  rw [readForms] at read
  split at read
  next => cases read
  next =>
    split at read
    next root _ =>
      cases read
      exact fun n => isFinite_of_outermostForms root
    next => cases read

/-! ## Numbers of a table of rules -/

namespace Mapping

mutual

def Value.numbers : Value → List Binary64
  | .scalar value => value.number?.toList
  | .object fields => numbersOfFields fields
  | .array items => numbersOfItems items
  | .callback _ => []

def numbersOfItems : List Value → List Binary64
  | [] => []
  | item :: items => item.numbers ++ numbersOfItems items

def numbersOfFields : List (String × Value) → List Binary64
  | [] => []
  | (_, value) :: fields => value.numbers ++ numbersOfFields fields

end

def Rule.numbers (rule : Rule) : List Binary64 :=
  rule.defaults.flatMap fun given => given.2.numbers

def Table.numbers (table : Table) : List Binary64 := table.rules.flatMap Rule.numbers

theorem numbers_standardRules : standardRules.flatMap Rule.numbers = [] := rfl

end Mapping

namespace Manifest

mutual

theorem numbers_valueOf : (value : Toml.Value) → (valueOf value).numbers = value.numbers
  | .text _ => rfl
  | .integer _ => rfl
  | .number _ => rfl
  | .flag _ => rfl
  | .moment _ => rfl
  | .array items => numbers_valuesOf items
  | .table entries => numbers_fieldsOf entries

theorem numbers_valuesOf : (items : List Toml.Value) →
    Mapping.numbersOfItems (valuesOf items) = Toml.numbersOfItems items
  | [] => rfl
  | item :: items => by
    rw [valuesOf, Mapping.numbersOfItems, Toml.numbersOfItems, numbers_valueOf item,
      numbers_valuesOf items]

theorem numbers_fieldsOf : (entries : List (String × Toml.Value)) →
    Mapping.numbersOfFields (fieldsOf entries) = Toml.numbersOfEntries entries
  | [] => rfl
  | (key, value) :: entries => by
    rw [fieldsOf, Mapping.numbersOfFields, Toml.numbersOfEntries, numbers_valueOf value,
      numbers_fieldsOf entries]

end

theorem mem_fieldsOf {entries : List (String × Toml.Value)} {field : String × Mapping.Value}
    (mem : field ∈ fieldsOf entries) : ∃ entry ∈ entries, field = (entry.1, valueOf entry.2) := by
  induction entries with
  | nil => cases mem
  | cons entry entries ih =>
    obtain ⟨key, value⟩ := entry
    cases List.mem_cons.mp mem with
    | inl here => exact ⟨(key, value), List.mem_cons_self, here⟩
    | inr later =>
      obtain ⟨entry, listed, same⟩ := ih later
      exact ⟨entry, List.mem_cons_of_mem _ listed, same⟩

/-- The numbers of a rule stand in its entry. -/
theorem mem_numbers_rule {entry : RuleEntry} {n : Binary64} (mem : n ∈ entry.rule.numbers) :
    n ∈ Toml.numbersOfEntries entry.defaults := by
  obtain ⟨field, listed, inside⟩ := List.mem_flatMap.mp mem
  obtain ⟨given, written, rfl⟩ := mem_fieldsOf (Entries.mem_of_mem_ofPairs listed)
  rw [numbers_valueOf] at inside
  exact Toml.mem_numbersOfEntries.mpr ⟨given, written, inside⟩

theorem mem_numbers_table {manifest : Manifest} {n : Binary64}
    (mem : n ∈ manifest.table.numbers) :
    ∃ entry ∈ manifest.rules, n ∈ Toml.numbersOfEntries entry.defaults := by
  rw [Mapping.Table.numbers, Manifest.table, Mapping.Table.extending, List.flatMap_append,
    Mapping.numbers_standardRules, List.append_nil] at mem
  obtain ⟨rule, listed, inside⟩ := List.mem_flatMap.mp mem
  obtain ⟨entry, written, rfl⟩ := List.mem_map.mp listed
  exact ⟨entry, written, mem_numbers_rule inside⟩

/-! ## Numbers of a manifest -/

theorem numbers_of_entriesOf {value : Toml.Value} {entries : List (String × Toml.Value)}
    (given : entriesOf value = some entries) :
    Toml.numbersOfEntries entries = value.numbers := by
  cases value with
  | table | moment =>
    cases given
    rfl
  | text | integer | number | flag | array => cases given

section Shape

variable {α : Type} {p : Binary64 → Prop} {shape : RecordShape α} {good : α → Prop}
  (takes : ∀ {record key value after}, shape.take record key value = .ok after →
    (∀ n ∈ value.numbers, p n) → good record → good after)

include takes

theorem ofEntries_keeps {entries : List (String × Toml.Value)} {record after : α}
    (shaped : ofEntries shape record entries = .ok after)
    (fine : ∀ n ∈ Toml.numbersOfEntries entries, p n) (start : good record) : good after := by
  induction entries generalizing record with
  | nil =>
    cases shaped
    exact start
  | cons entry entries ih =>
    obtain ⟨key, value⟩ := entry
    obtain ⟨middle, taken, shaped⟩ := exists_ok_of_bind shaped
    have first : good middle :=
      takes taken (fun n mem => fine n (List.mem_append_left _ mem)) start
    exact ih shaped (fun n mem => fine n (List.mem_append_right _ mem)) first

theorem ofItems_keeps {fields : List String} {items : List Toml.Value} {record after : α}
    (shaped : ofItems shape record fields items = .ok after)
    (fine : ∀ n ∈ Toml.numbersOfItems items, p n) (start : good record) : good after := by
  induction items generalizing record fields with
  | nil =>
    cases fields with
    | nil | cons =>
      cases shaped
      exact start
  | cons item items ih =>
    cases fields with
    | nil =>
      cases shaped
      exact start
    | cons field fields =>
      obtain ⟨middle, taken, shaped⟩ := exists_ok_of_bind shaped
      have first : good middle :=
        takes taken (fun n mem => fine n (List.mem_append_left _ mem)) start
      exact ih shaped (fun n mem => fine n (List.mem_append_right _ mem)) first

/-- What taking up each value keeps holds of the whole record, in either way to give it. -/
theorem shapeRecord_keeps {value : Toml.Value} {record after : α}
    (shaped : shapeRecord shape record value = .ok after)
    (fine : ∀ n ∈ value.numbers, p n) (start : good record) : good after := by
  unfold shapeRecord at shaped
  split at shaped
  next => exact ofItems_keeps takes shaped fine start
  next given =>
    rw [← numbers_of_entriesOf given] at fine
    exact ofEntries_keeps takes shaped fine start
  next => cases shaped

end Shape

theorem shapeEntries_plain {value : Toml.Value} {entries : List (String × Toml.Value)}
    (shaped : shapeEntries .ok value = .ok entries) : entriesOf value = some entries := by
  rw [shapeEntries] at shaped
  split at shaped
  next found given =>
    rw [given]
    have all : (found.mapM fun entry => (return (entry.1, ← Except.ok entry.2) : Shaped _)) =
        .ok found := by
      clear given shaped
      induction found with
      | nil => rfl
      | cons entry found ih =>
        rw [List.mapM_cons, ih]
        rfl
    rw [all] at shaped
    cases shaped
    rfl
  next => cases shaped

variable {p : Binary64 → Prop}

def PartialRule.Holds (p : Binary64 → Prop) (rule : PartialRule) : Prop :=
  ∀ n ∈ Toml.numbersOfEntries rule.defaults, p n

def RuleEntry.Holds (p : Binary64 → Prop) (entry : RuleEntry) : Prop :=
  ∀ n ∈ Toml.numbersOfEntries entry.defaults, p n

theorem shapeRule_holds {value : Toml.Value} {rule : RuleEntry}
    (shaped : shapeRule value = .ok rule) (fine : ∀ n ∈ value.numbers, p n) :
    rule.Holds p := by
  obtain ⟨given, record, shaped⟩ := exists_ok_of_bind shaped
  obtain ⟨kind, -, shaped⟩ := exists_ok_of_bind shaped
  obtain ⟨component, -, shaped⟩ := exists_ok_of_bind shaped
  cases shaped
  suffices kept : given.Holds p from kept
  refine shapeRecord_keeps ?_ record fine nofun
  intro rule key value after taken fine start
  dsimp only at taken
  split at taken
  next =>
    obtain ⟨_, -, same⟩ := exists_ok_of_bind taken
    cases same
    exact start
  next =>
    split at taken
    next =>
      obtain ⟨_, -, same⟩ := exists_ok_of_bind taken
      cases same
      exact start
    next =>
      split at taken
      next =>
        obtain ⟨_, -, same⟩ := exists_ok_of_bind taken
        cases same
        exact start
      next =>
        split at taken
        next =>
          obtain ⟨entries, shaped, same⟩ := exists_ok_of_bind taken
          cases same
          rw [← numbers_of_entriesOf (shapeEntries_plain shaped)] at fine
          exact fine
        next =>
          split at taken
          next =>
            obtain ⟨_, -, same⟩ := exists_ok_of_bind taken
            cases same
            exact start
          next =>
            cases taken
            exact start

theorem mem_of_mapM {α β : Type} {item : α → Shaped β} {values : List α} {results : List β}
    (done : values.mapM item = .ok results) :
    ∀ result ∈ results, ∃ value ∈ values, item value = .ok result := by
  induction values generalizing results with
  | nil =>
    cases done
    nofun
  | cons value values ih =>
    rw [List.mapM_cons] at done
    obtain ⟨first, here, done⟩ := exists_ok_of_bind done
    obtain ⟨others, later, same⟩ := exists_ok_of_bind done
    cases same
    intro result mem
    cases List.mem_cons.mp mem with
    | inl same => exact ⟨value, List.mem_cons_self, same ▸ here⟩
    | inr below =>
      obtain ⟨other, listed, shaped⟩ := ih later result below
      exact ⟨other, List.mem_cons_of_mem _ listed, shaped⟩

theorem takeSection_holds {manifest after : PartialManifest} {key : String} {value : Toml.Value}
    (taken : takeSection manifest key value = .ok after) (fine : ∀ n ∈ value.numbers, p n)
    (start : ∀ entry ∈ manifest.rules, entry.Holds p) : ∀ entry ∈ after.rules, entry.Holds p := by
  rw [takeSection] at taken
  split at taken
  next =>
    obtain ⟨_, -, same⟩ := exists_ok_of_bind taken
    cases same
    exact start
  next =>
    split at taken
    next =>
      obtain ⟨_, -, same⟩ := exists_ok_of_bind taken
      cases same
      exact start
    next =>
      split at taken
      next =>
        obtain ⟨_, -, same⟩ := exists_ok_of_bind taken
        cases same
        exact start
      next =>
        split at taken
        next =>
          obtain ⟨rules, shaped, same⟩ := exists_ok_of_bind taken
          cases same
          cases value with
          | array items =>
            intro entry mem
            obtain ⟨item, listed, shaped⟩ := mem_of_mapM shaped entry mem
            exact shapeRule_holds shaped fun n inside =>
              fine n (Toml.mem_numbersOfItems.mpr ⟨item, listed, inside⟩)
          | text | integer | number | flag | moment | table => cases shaped
        next =>
          cases taken
          exact start

theorem ofDocument_holds {entries : List (String × Toml.Value)} {manifest : Manifest}
    (shaped : ofDocument entries = .ok manifest)
    (fine : ∀ n ∈ Toml.numbersOfEntries entries, p n) : ∀ entry ∈ manifest.rules, entry.Holds p := by
  have folded (start : PartialManifest) {after : PartialManifest}
      (done : entries.foldlM (fun manifest entry => takeSection manifest entry.1 entry.2) start =
        .ok after)
      (holds : ∀ entry ∈ start.rules, entry.Holds p) : ∀ entry ∈ after.rules, entry.Holds p := by
    clear shaped
    induction entries generalizing start with
    | nil =>
      cases done
      exact holds
    | cons entry entries ih =>
      rw [List.foldlM_cons] at done
      obtain ⟨middle, taken, done⟩ := exists_ok_of_bind done
      exact ih (fun n mem => fine n (List.mem_append_right _ mem)) middle done
        (takeSection_holds taken (fun n mem => fine n (List.mem_append_left _ mem)) holds)
  obtain ⟨manifest, done, named⟩ := exists_ok_of_bind shaped
  split at named
  next => cases named
  next =>
    cases named
    exact folded _ done nofun

/-- Every number in a default of a manifest's table is written in the manifest as a numeral. -/
theorem numbers_of_read {text : String} {manifest : Manifest} (taken : read text = .ok manifest) :
    ∀ n ∈ manifest.table.numbers, Toml.IsWrittenIn text.toList n := by
  intro n mem
  obtain ⟨entry, listed, inside⟩ := mem_numbers_table mem
  obtain ⟨entries, parsed, shaped, -⟩ := read_eq_ok.mp taken
  exact ofDocument_holds shaped (Toml.numbers_of_read parsed) entry listed n inside

end Manifest

/-! ## Code of a number -/

namespace Component

open Number

/-- The texts for numbers that are not finite. No code reads them as numbers. -/
def nonNumberCodes : List String := ["inf", "-inf", "NaN"]

def isNumeralCharacter (c : Char) : Bool := c.isDigit || c = '.' || c = '-'

theorem numeral_of_positional (decimal : Decimal) :
    ∀ c ∈ decimal.positional, isNumeralCharacter c = true := by
  have digit (c : Char) (mem : c ∈ Nat.toDigits 10 decimal.digits) :
      isNumeralCharacter c = true := by
    simp [isNumeralCharacter, isDigit_toDigits _ c mem]
  have zero (count : Nat) (c : Char) (mem : c ∈ List.replicate count '0') :
      isNumeralCharacter c = true := by
    rw [List.eq_of_mem_replicate mem]
    decide
  intro c mem
  rw [Decimal.positional] at mem
  dsimp only at mem
  split at mem
  next => exact (List.mem_append.mp mem).elim (digit c) (zero _ c)
  next =>
    split at mem
    next =>
      cases List.mem_append.mp mem with
      | inl before => exact digit c (List.mem_of_mem_take before)
      | inr after =>
        cases List.mem_cons.mp after with
        | inl point =>
          rw [point]
          decide
        | inr fraction => exact digit c (List.mem_of_mem_drop fraction)
    next =>
      cases List.mem_append.mp mem with
      | inl before =>
        simp only [List.mem_cons] at before
        obtain rfl | rfl | fill := before
        · decide
        · decide
        · exact zero _ c fill
      | inr digits => exact digit c digits

theorem numeral_of_magnitudeText (significand : Nat) (exponent : Int) :
    ∀ c ∈ magnitudeText significand exponent, isNumeralCharacter c = true := by
  intro c mem
  rw [magnitudeText] at mem
  split at mem
  next =>
    rw [List.mem_singleton.mp mem]
    decide
  next => exact numeral_of_positional _ c mem

/-- A finite number has digits for code, and the other numbers have the words for them. -/
theorem mem_nonNumberCodes_iff (n : Binary64) :
    scalarCode (.number n) ∈ nonNumberCodes ↔ n.isFinite = false := by
  cases n with
  | finite negative significand exponent =>
    have numeral : ∀ c ∈ (scalarCode (.number (.finite negative significand exponent))).toList,
        isNumeralCharacter c = true := by
      intro c mem
      rw [scalarCode, String.toList_ofList, binary64Text] at mem
      cases List.mem_append.mp mem with
      | inl sign =>
        split at sign
        next =>
          rw [List.mem_singleton.mp sign]
          decide
        next => cases sign
      | inr digits => exact numeral_of_magnitudeText _ _ c digits
    have words : ∀ code ∈ nonNumberCodes,
        code.toList.all isNumeralCharacter = false := by decide
    refine iff_of_false (fun mem => ?_) (by simp [Binary64.isFinite])
    have word := words _ mem
    rw [List.all_eq_true.mpr numeral] at word
    cases word
  | infinite negative =>
    cases negative with
    | true | false => exact iff_of_true (by decide +kernel) rfl
  | notANumber => exact iff_of_true (by decide +kernel) rfl

/-! ## Numbers that are rendered -/

/-- The numbers of forms are finite, whatever the document, so that their code has digits. The
numbers in the defaults of a project's rules are those that its manifest has numerals for, and of
them exactly those are not finite, and come out as `inf`, `-inf` or `NaN`, whose numeral is `inf` or
`nan`, with or without a sign. A manifest in which neither word occurs has only finite defaults. -/
theorem rendered_numbers {document text : String} {forms : List Form} {manifest : Manifest}
    (parsed : readForms document = .ok forms) (taken : Manifest.read text = .ok manifest) :
    (∀ n ∈ forms.flatMap Form.numbers,
      n.isFinite = true ∧ scalarCode (.number n) ∉ nonNumberCodes) ∧
    (∀ n ∈ manifest.table.numbers,
      ∃ numeral, numeral <:+: text.toList ∧ Toml.readNumeral numeral = some (.number n) ∧
        (n.isFinite = false ↔ Toml.namesNoNumber numeral = true) ∧
        (scalarCode (.number n) ∈ nonNumberCodes ↔ Toml.namesNoNumber numeral = true)) ∧
    (¬"inf".toList <:+: text.toList → ¬"nan".toList <:+: text.toList →
      ∀ n ∈ manifest.table.numbers,
        n.isFinite = true ∧ scalarCode (.number n) ∉ nonNumberCodes) := by
  have written := Manifest.numbers_of_read taken
  have code {n : Binary64} (finite : n.isFinite = true) :
      n.isFinite = true ∧ scalarCode (.number n) ∉ nonNumberCodes := by
    refine ⟨finite, fun listed => ?_⟩
    rw [mem_nonNumberCodes_iff, finite] at listed
    cases listed
  refine ⟨fun n mem => code (isFinite_of_readForms parsed n mem), fun n mem => ?_,
    fun noInfinity noName n mem =>
      code (Toml.isFinite_of_isWrittenIn (written n mem) noInfinity noName)⟩
  obtain ⟨numeral, inside, read⟩ := written n mem
  have finite := Toml.isFinite_of_readNumeral read
  have exactly : n.isFinite = false ↔ Toml.namesNoNumber numeral = true := by
    rw [finite, Bool.not_eq_false']
  exact ⟨numeral, inside, read, exactly, (mem_nonNumberCodes_iff n).trans exactly⟩

theorem ok_of_any {ε α : Type} {ended : Except ε α} {test : α → Bool}
    (passes : ended.toOption.any test = true) : ∃ result, ended = .ok result ∧ test result = true := by
  cases ended with
  | error => cases passes
  | ok result => exact ⟨result, rfl, passes⟩

def halfForm : String := "<Form id=\"f\" name=\"main\" ratio=\"0.5\"><Button id=\"b\"/></Form>"

def half : Binary64 := .finite false (2 ^ 52) (-53)

def infiniteDefault : String :=
  "[[mappings]]\ncomponent = \"b\"\ndefaults = \x7b size = inf \x7d\nkind = \"Button\"\n" ++
    "[project]\nname = \"x\"\n"

def infiniteManifest : Manifest where
  name := "x"
  rules := [{ kind := "Button", component := "b", defaults := [("size", .number (.infinite false))] }]

def infiniteLines : List String :=
  ["[[mappings]]", "component = \"b\"", "defaults = \x7b size = inf \x7d", "kind = \"Button\"",
    "[project]", "name = \"x\""]

theorem toList_infiniteDefault : infiniteDefault.toList = Toml.written infiniteLines := by
  decide +kernel

section

open Toml (Draft Reading BareKey written)

theorem run_infiniteLines : Reading.run 7 ⟨[], []⟩ (written infiniteLines) =
    some ⟨[("mappings", .tables [] [("component", .closed (.text "b")),
        ("defaults", .closed (.table [("size", .number (.infinite false))])),
        ("kind", .closed (.text "Button"))]),
      ("project", .table .header [("name", .closed (.text "x"))])], ["project"]⟩ := by
  have mappings : BareKey "mappings".toList := by decide
  have component : BareKey "component".toList := by decide
  have defaults : BareKey "defaults".toList := by decide
  have size : BareKey "size".toList := by decide
  have kind : BareKey "kind".toList := by decide
  have project : BareKey "project".toList := by decide
  have name : BareKey "name".toList := by decide
  have line (count : Nat) (code : Toml.beginsCode (infiniteLines.drop count) = true) :=
    Toml.endOfLine_written (infiniteLines.drop count) 0 rfl code
  have infinite (rest : List Char) :
      Toml.readValue 0 (("\x7b size = inf \x7d".toList ++ rest).length + 2)
        ("\x7b size = inf \x7d".toList ++ rest) =
        some (.table [("size", .number (.infinite false))], rest) := by
    have scalar : Toml.readScalar ('i' :: 'n' :: 'f' :: ' ' :: '}' :: rest) =
        some (.number (.infinite false), ' ' :: '}' :: rest) := rfl
    have reads (fuel : Nat) := (Toml.readValue_scalar 1 fuel (by decide) _).trans scalar
    have inline := @Toml.readValue_inline rest _ "inf".toList _ size
      (" size = inf \x7d".toList ++ rest).length rfl (reads _)
    rw [String.ofList_toList] at inline
    exact inline
  let rules : List (String × Draft) :=
    [("component", .closed (.text "b")),
      ("defaults", .closed (.table [("size", .number (.infinite false))])),
      ("kind", .closed (.text "Button"))]
  calc
    _ = Reading.run 6 ⟨[("mappings", .tables [] [])], ["mappings"]⟩
          (written (infiniteLines.drop 1)) :=
      Reading.run_nextHeaderLine mappings (by rfl) (line 1 (by rfl)) (by rfl) 6
    _ = Reading.run 5 ⟨[("mappings", .tables [] (rules.take 1))], ["mappings"]⟩
          (written (infiniteLines.drop 2)) :=
      Reading.run_textLine "b" component (by rfl) (List.all_eq_true.mp (by decide))
        (line 2 (by rfl)) (by rfl) 5
    _ = Reading.run 4 ⟨[("mappings", .tables [] (rules.take 2))], ["mappings"]⟩
          (written (infiniteLines.drop 3)) :=
      Reading.run_entryLine defaults (by rfl) (by rfl) (infinite _) (line 3 (by rfl)) (by rfl) 4
    _ = Reading.run 3 ⟨[("mappings", .tables [] rules)], ["mappings"]⟩
          (written (infiniteLines.drop 4)) :=
      Reading.run_textLine "Button" kind (by rfl) (List.all_eq_true.mp (by decide))
        (line 4 (by rfl)) (by rfl) 3
    _ = Reading.run 2 ⟨[("mappings", .tables [] rules), ("project", .table .header [])],
          ["project"]⟩ (written (infiniteLines.drop 5)) :=
      Reading.run_headerLine project (by rfl) (line 5 (by rfl)) (by rfl) 2
    _ = Reading.run 1 ⟨[("mappings", .tables [] rules),
          ("project", .table .header [("name", .closed (.text "x"))])], ["project"]⟩
          (written (infiniteLines.drop 6)) :=
      Reading.run_textLine "x" name (by rfl) (List.all_eq_true.mp (by decide))
        (line 6 (by rfl)) (by rfl) 1
    _ = _ := rfl

end

theorem read_infiniteDefault : Manifest.read infiniteDefault = .ok infiniteManifest := by
  have parsed : Toml.read infiniteDefault =
      some [("mappings", .array [.table [("component", .text "b"),
        ("defaults", .table [("size", .number (.infinite false))]), ("kind", .text "Button")]]),
        ("project", .table [("name", .text "x")])] := by
    have unmarked : infiniteDefault.toList.head? ≠ some '\uFEFF' := by decide +kernel
    have enough : infiniteDefault.toList.length + 1 = 7 + (infiniteDefault.toList.length - 6) := by
      decide +kernel
    rw [Toml.read_unmarked unmarked, enough, toList_infiniteDefault,
      Toml.Reading.run_more run_infiniteLines]
    simp (disch := decide) only [Option.map_some, Toml.Draft.values, Toml.Draft.value,
      Toml.Draft.tableValues, Toml.sortByKey_of_ascending]
    rfl
  exact Manifest.read_eq_ok.mpr
    ⟨_, parsed, rfl, Manifest.problem?_eq_none.mp (by decide +kernel)⟩

theorem numbers_of_halfForm :
    ∃ forms, readForms halfForm = .ok forms ∧
      Manifest.read infiniteDefault = .ok infiniteManifest ∧
      forms.flatMap Form.numbers = [half] ∧ half.isFinite = true ∧
      infiniteManifest.table.numbers = [.infinite false] ∧
      ∃ numeral, numeral <:+: infiniteDefault.toList ∧
        Toml.readNumeral numeral = some (.number (.infinite false)) ∧
        Toml.namesNoNumber numeral = true := by
  obtain ⟨forms, parsed, inForms⟩ := ok_of_any
    (show (readForms halfForm).toOption.any (·.flatMap Form.numbers == [half]) = true by
      decide +kernel)
  have inTable : infiniteManifest.table.numbers = [.infinite false] := rfl
  obtain ⟨ofForms, ofTable, -⟩ := rendered_numbers parsed read_infiniteDefault
  rw [eq_of_beq inForms] at ofForms
  rw [inTable] at ofTable
  obtain ⟨numeral, inside, read, finite, -⟩ := ofTable (.infinite false) List.mem_cons_self
  exact ⟨forms, parsed, read_infiniteDefault, eq_of_beq inForms,
    (ofForms half List.mem_cons_self).1, inTable, numeral, inside, read, finite.mp rfl⟩

/-- A default that is not finite is taken and rendered as it is. -/
theorem infinite_default_is_rendered :
    ∃ manifest, Manifest.read infiniteDefault = .ok manifest ∧
      manifest.table.numbers = [.infinite false] ∧ (Binary64.infinite false).isFinite = false ∧
      scalarCode (.number (.infinite false)) = "inf" ∧
      (convertTexts manifest.table {} [("a.xfdl", halfForm)] []).units.map
        (fun unit => Text.occursIn "size=\x7binf\x7d".toList unit.code.toList) = [true] :=
  ⟨infiniteManifest, read_infiniteDefault, rfl, rfl, by decide +kernel, by decide +kernel⟩

end Component
end Formwright
