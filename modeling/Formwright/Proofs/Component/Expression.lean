import Formwright.Proofs.Component.Reader

/-!
Expressions read back. A reader of generated code finds the value that an expression was written
for, with the order of its fields. Floating point numbers are left out, because one without a
fraction is written as an integer is, and callbacks, because they are written as they are.
-/

namespace Formwright.Component

open Mapping Text

inductive IsLiteral : Value → Prop
  | flag (flag : Bool) : IsLiteral (.scalar (.flag flag))
  | integer (value : Int) : IsLiteral (.scalar (.integer value))
  | text (text : String) : IsLiteral (.scalar (.text text))
  | object (fields : List (String × Value)) (values : ∀ field ∈ fields, IsLiteral field.2) :
    IsLiteral (.object fields)
  | array (items : List Value) (values : ∀ item ∈ items, IsLiteral item) : IsLiteral (.array items)

/-- Entries up to a closing character, with commas between them. A comma may follow the last. The
fuel bounds the number of entries. -/
def readSequence {α : Type} (read : Reader α) (close : Char) : Nat → Reader (List α)
  | 0, _ => none
  | fuel + 1, text =>
    match afterStart [close] (trimStart text) with
    | some rest => some ([], rest)
    | none => (read (trimStart text)).bind fun first =>
      match afterStart [','] (trimStart first.2) with
      | some later =>
        (readSequence read close fuel later).map fun others => (first.1 :: others.1, others.2)
      | none => (afterStart [close] (trimStart first.2)).map ([first.1], ·)

def readField (read : Reader Value) : Reader (String × Value) := fun text =>
  (readKey text).bind fun key =>
    (afterStart [':'] (trimStart key.2)).bind fun rest =>
      (read (trimStart rest)).map fun value => ((key.1, value.1), value.2)

def readValue : Nat → Reader Value
  | 0, _ => none
  | fuel + 1, text =>
    match text with
    | '[' :: rest =>
      (readSequence (readValue fuel) ']' fuel rest).map fun read => (.array read.1, read.2)
    | '{' :: rest =>
      (readSequence (readField (readValue fuel)) '}' fuel rest).map fun read =>
        (.object read.1, read.2)
    | text => (readScalar text).map fun read => (.scalar read.1, read.2)

def readExpression (code : String) : Option Value :=
  match readValue code.toList.length code.toList with
  | some (value, []) => some value
  | _ => none

/-- A scalar is not taken for an array or an object. -/
theorem readsAs_scalar {code : List Char} {scalar : PropertyValue}
    (isScalar : ReadsAs readScalar code scalar) {fuel : Nat} (enough : code.length ≤ fuel) :
    ReadsAs (readValue fuel) code (.scalar scalar) := by
  obtain ⟨opens, reads⟩ := isScalar
  refine ⟨opens, fun rest ends => ?_⟩
  have whole := reads rest ends
  cases code with
  | nil => cases opens
  | cons c later =>
    have noArray : c ≠ '[' := by
      rintro rfl
      cases whole
    have noObject : c ≠ '{' := by
      rintro rfl
      cases whole
    cases fuel with
    | zero => cases enough
    | succ fuel =>
      rw [List.cons_append] at whole ⊢
      rw [readValue, whole, Option.map_some]
      · exact fun _ same => noArray (List.cons.inj same).1
      · exact fun _ same => noObject (List.cons.inj same).1

def fieldCode (field : String × Value) : String := fieldKey field.1 ++ ": " ++ valueCode field.2

theorem trimStart_code {lead code : List Char} (blank : Blank lead)
    (opens : code.head?.any opensCode = true) : trimStart (lead ++ code) = code := by
  rw [trimStart_append_blank blank]
  apply trimStart_eq_self
  intro c first
  rw [Option.mem_def.mp first, Option.any_some] at opens
  exact dark_of_opensCode opens

theorem trimStart_mark {pad : List Char} (blank : Blank pad) {mark : Char}
    (dark : isBlank mark = false) (rest : List Char) :
    trimStart (pad ++ mark :: rest) = mark :: rest := by
  rw [trimStart_append_blank blank]
  apply trimStart_eq_self
  rintro c ⟨⟩
  exact dark

theorem afterStart_mark (mark : Char) (rest : List Char) :
    afterStart [mark] (mark :: rest) = some rest := afterStart_append [mark] rest

theorem blank_space : Blank [' '] := by
  intro c mem
  rw [List.mem_singleton.mp mem]
  decide

theorem readsAs_field {read : Reader Value} {field : String × Value}
    (value : ReadsAs read (valueCode field.2).toList field.2) :
    ReadsAs (readField read) (fieldCode field).toList field := by
  have whole : (fieldCode field).toList =
      (fieldKey field.1).toList ++ ':' :: ' ' :: (valueCode field.2).toList := by
    simp [fieldCode]
  have key := readsAs_key field.1
  rw [whole]
  refine ⟨any_head_append key.opens _, fun rest ends => ?_⟩
  have colon (later : List Char) : trimStart (':' :: later) = ':' :: later :=
    trimStart_mark blank_nil (by decide) later
  have split : (fieldKey field.1).toList ++ ':' :: ' ' :: (valueCode field.2).toList ++ rest =
      (fieldKey field.1).toList ++ ':' :: ' ' :: ((valueCode field.2).toList ++ rest) := by
    simp
  have start : trimStart (' ' :: ((valueCode field.2).toList ++ rest)) =
      (valueCode field.2).toList ++ rest :=
    trimStart_code blank_space (any_head_append value.opens rest)
  rw [split, readField, key.reads _ (endsWord_cons (by decide) _), Option.bind_some, colon,
    afterStart_mark, Option.bind_some, start, value.reads rest ends, Option.map_some]

section Sequence

def separated (codes : List (List Char)) : List Char := [',', ' '].intercalate codes

theorem separated_cons (code next : List Char) (more : List (List Char)) :
    separated (code :: next :: more) = code ++ ',' :: ' ' :: separated (next :: more) := by
  rw [separated, List.intercalate_cons_cons, List.append_assoc]
  rfl

theorem length_le_separated {codes : List (List Char)} {code : List Char} (mem : code ∈ codes) :
    code.length ≤ (separated codes).length := by
  induction codes with
  | nil => cases mem
  | cons first others ih =>
    cases others with
    | nil =>
      have whole : separated [first] = first := List.intercalate_singleton
      exact Nat.le_of_eq (by rw [List.mem_singleton.mp mem, whole])
    | cons next more =>
      rw [separated_cons]
      simp only [List.length_append, List.length_cons]
      cases mem with
      | head => omega
      | tail _ later =>
        have shorter := ih later
        omega

variable {α : Type} {read : Reader α} {code : α → List Char} {close : Char}
  (closes : close = ']' ∨ close = '}')

include closes

theorem opensCode_close : opensCode close = false := by
  obtain rfl | rfl := closes
  · decide
  · decide

theorem isBlank_close : isBlank close = false := by
  obtain rfl | rfl := closes
  · decide
  · decide

/-- An entry is read, and a comma or the closing character decides how it goes on. -/
theorem readSequence_entry {entry : α} (isEntry : ReadsAs read (code entry) entry)
    {lead later : List Char} (blank : Blank lead) (ends : EndsWord later) (fuel : Nat) :
    readSequence read close (fuel + 1) (lead ++ (code entry ++ later)) =
      match afterStart [','] (trimStart later) with
      | some later =>
        (readSequence read close fuel later).map fun others => (entry :: others.1, others.2)
      | none => (afterStart [close] (trimStart later)).map ([entry], ·) := by
  have opens := any_head_append isEntry.opens later
  have goesOn : afterStart [close] (code entry ++ later) = none := by
    cases begins : code entry ++ later with
    | nil => rfl
    | cons c rest =>
      apply afterStart_other
      rintro rfl
      rw [begins] at opens
      exact absurd opens (Bool.eq_false_iff.mp (opensCode_close closes))
  rw [readSequence, trimStart_code blank opens, goesOn]
  simp only [isEntry.reads later ends, Option.bind_some]

/-- A sequence is read entry by entry, whatever blanks stand around it. -/
theorem readSequence_separated {entries : List α}
    (all : ∀ entry ∈ entries, ReadsAs read (code entry) entry) {fuel : Nat}
    (enough : (separated (entries.map code)).length < fuel) {lead pad : List Char}
    (blankLead : Blank lead) (blankPad : Blank pad) (rest : List Char) :
    readSequence read close fuel
      (lead ++ (separated (entries.map code) ++ (pad ++ close :: rest))) =
      some (entries, rest) := by
  have closed : trimStart (pad ++ close :: rest) = close :: rest :=
    trimStart_mark blankPad (isBlank_close closes) rest
  -- Behind a comma the rest of the sequence has the space there as its lead.
  induction entries generalizing fuel lead with
  | nil =>
    cases fuel with
    | zero => cases enough
    | succ fuel =>
      show readSequence read close (fuel + 1) (lead ++ (pad ++ close :: rest)) = _
      rw [readSequence, trimStart_append_blank blankLead, closed, afterStart_mark]
  | cons entry others ih =>
    have isEntry := all entry List.mem_cons_self
    have later : ∀ other ∈ others, ReadsAs read (code other) other := fun other mem =>
      all other (List.mem_cons_of_mem entry mem)
    cases fuel with
    | zero => cases enough
    | succ fuel =>
      cases others with
      | nil =>
        have last : separated ([entry].map code) = code entry := List.intercalate_singleton
        have ends := endsWord_of_blank blankPad (opensCode_close closes) rest
        have noComma : ',' ≠ close := by
          rintro rfl
          exact absurd closes (by decide)
        rw [last, readSequence_entry closes isEntry blankLead ends, closed,
          afterStart_other noComma]
        simp only [afterStart_mark, Option.map_some]
      | cons next more =>
        have split : separated ((entry :: next :: more).map code) ++ (pad ++ close :: rest) =
            code entry ++ ',' :: ' ' ::
              (separated ((next :: more).map code) ++ (pad ++ close :: rest)) := by
          rw [List.map_cons, List.map_cons, separated_cons]
          simp
        have comma (behind : List Char) : trimStart (',' :: behind) = ',' :: behind :=
          trimStart_mark blank_nil (by decide) behind
        have shorter : (separated ((next :: more).map code)).length < fuel := by
          rw [List.map_cons, List.map_cons, separated_cons] at enough
          simp only [List.length_append, List.length_cons] at enough
          rw [List.map_cons]
          omega
        have others := ih later shorter blank_space
        rw [List.singleton_append] at others
        rw [split, readSequence_entry closes isEntry blankLead (endsWord_cons (by decide) _), comma,
          afterStart_mark]
        simp only [others, Option.map_some]

end Sequence

section Value

theorem itemCodes_eq (items : List Value) : itemCodes items = items.map valueCode := by
  induction items with
  | nil => rfl
  | cons item items ih => rw [itemCodes, ih, List.map_cons]

theorem fieldCodes_eq (fields : List (String × Value)) :
    fieldCodes fields = fields.map fieldCode := by
  induction fields with
  | nil => rfl
  | cons field fields ih =>
    obtain ⟨key, value⟩ := field
    rw [fieldCodes, ih, List.map_cons]
    rfl

theorem toList_array (items : List Value) :
    (valueCode (.array items)).toList =
      '[' :: (separated (items.map fun item => (valueCode item).toList) ++ [']']) := by
  rw [valueCode, itemCodes_eq]
  simp [separated, Function.comp_def]

/-- Blanks stand inside the braces of an object that has fields. -/
theorem toList_object (fields : List (String × Value)) :
    ∃ pad, Blank pad ∧ (valueCode (.object fields)).toList =
      '{' :: (pad ++ (separated (fields.map fun field => (fieldCode field).toList) ++
        (pad ++ ['}']))) := by
  cases fields with
  | nil =>
    refine ⟨[], blank_nil, ?_⟩
    rw [valueCode]
    rfl
  | cons field fields =>
    refine ⟨[' '], blank_space, ?_⟩
    rw [valueCode, fieldCodes_eq]
    simp [separated, Function.comp_def]

/-- A literal is found at the front of every text in which no word runs on behind it. -/
theorem readsAs_value {value : Value} (isLiteral : IsLiteral value) {fuel : Nat}
    (enough : (valueCode value).toList.length ≤ fuel) :
    ReadsAs (readValue fuel) (valueCode value).toList value := by
  -- The code of a part is shorter than the whole, so less fuel is enough for it.
  induction isLiteral generalizing fuel with
  | flag flag => exact readsAs_scalar (readsAs_flag flag) enough
  | integer value => exact readsAs_scalar (readsAs_integer value) enough
  | text text => exact readsAs_scalar (readsAs_text text) enough
  | object fields values ih =>
    obtain ⟨pad, blank, whole⟩ := toList_object fields
    rw [whole] at enough ⊢
    simp only [List.length_cons, List.length_append, List.length_nil] at enough
    obtain ⟨fuel, rfl⟩ : ∃ less, fuel = less + 1 := ⟨fuel - 1, by omega⟩
    have all : ∀ field ∈ fields,
        ReadsAs (readField (readValue fuel)) (fieldCode field).toList field := by
      intro field mem
      have inside := length_le_separated (List.mem_map_of_mem (f := fun field : String × Value =>
        (fieldCode field).toList) mem)
      have shorter : (valueCode field.2).toList.length ≤ (fieldCode field).toList.length := by
        simp only [fieldCode, String.toList_append, List.length_append]
        omega
      exact readsAs_field (ih field mem (by omega))
    have wide : (separated (fields.map fun field => (fieldCode field).toList)).length < fuel := by
      omega
    refine ⟨rfl, fun rest _ => ?_⟩
    have read := readSequence_separated (.inr rfl) all wide blank blank rest
    rw [List.cons_append, readValue]
    simp only [List.append_assoc, List.singleton_append, read, Option.map_some]
  | array items values ih =>
    rw [toList_array] at enough ⊢
    simp only [List.length_cons, List.length_append, List.length_nil] at enough
    obtain ⟨fuel, rfl⟩ : ∃ less, fuel = less + 1 := ⟨fuel - 1, by omega⟩
    have all : ∀ item ∈ items, ReadsAs (readValue fuel) (valueCode item).toList item := by
      intro item mem
      have inside := length_le_separated (List.mem_map_of_mem (f := fun item : Value =>
        (valueCode item).toList) mem)
      exact ih item mem (by omega)
    have wide : (separated (items.map fun item => (valueCode item).toList)).length < fuel := by
      omega
    refine ⟨rfl, fun rest _ => ?_⟩
    have read := readSequence_separated (.inl rfl) all wide blank_nil blank_nil rest
    rw [List.nil_append, List.nil_append] at read
    rw [List.cons_append, readValue, List.append_assoc, List.singleton_append, read,
      Option.map_some]

theorem readExpression_valueCode {value : Value} (isLiteral : IsLiteral value) :
    readExpression (valueCode value) = some value := by
  have ends : EndsWord [] := by
    intro c first
    cases first
  have read := (readsAs_value isLiteral (Nat.le_refl _)).reads [] ends
  rw [List.append_nil] at read
  rw [readExpression, read]

end Value

/-- The expression of a literal determines it: a reader finds the whole value again, with the order
of its fields, and no other literal is written in the same way. -/
theorem expression_determines_literal {value other : Value} (isLiteral : IsLiteral value)
    (otherLiteral : IsLiteral other) :
    readExpression (valueCode value) = some value ∧
      (valueCode value = valueCode other → value = other) := by
  have read := readExpression_valueCode isLiteral
  refine ⟨read, fun same => ?_⟩
  rw [same, readExpression_valueCode otherLiteral] at read
  exact (Option.some.inj read).symm

/-- A fraction is not written where there is none, so that a number and an integer can share an
expression. -/
example : valueCode (.scalar (.number (.finite false (2 ^ 52) (-52)))) =
    valueCode (.scalar (.integer 1)) := by decide +kernel

def joinedTexts : Value :=
  .object [("a: [\"b", .array [.text "c\", \"d", .object [], .array []])]

def partedTexts : Value := .object [("a", .array [.text "b", .text "c", .text "d"])]

theorem joinedTexts_determined :
    IsLiteral joinedTexts ∧ IsLiteral partedTexts ∧
      readExpression (valueCode joinedTexts) = some joinedTexts ∧
      valueCode joinedTexts ≠ valueCode partedTexts := by
  have joined : IsLiteral joinedTexts := by
    refine .object _ fun field mem => ?_
    rw [List.mem_singleton.mp mem]
    refine .array _ fun item mem => ?_
    simp only [List.mem_cons, List.not_mem_nil, or_false] at mem
    obtain rfl | rfl | rfl := mem
    · exact .text _
    · exact .object [] fun _ mem => nomatch mem
    · exact .array [] fun _ mem => nomatch mem
  have parted : IsLiteral partedTexts := by
    refine .object _ fun field mem => ?_
    rw [List.mem_singleton.mp mem]
    refine .array _ fun item mem => ?_
    simp only [List.mem_cons, List.not_mem_nil, or_false] at mem
    obtain rfl | rfl | rfl := mem
    · exact .text _
    · exact .text _
    · exact .text _
  obtain ⟨read, only⟩ := expression_determines_literal joined parted
  refine ⟨joined, parted, read, fun same => ?_⟩
  injection only same with fields
  injection fields with field
  injection field with key
  exact absurd key (by decide)

end Formwright.Component
