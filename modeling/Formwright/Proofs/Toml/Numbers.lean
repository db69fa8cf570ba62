import Formwright.Proofs.Entries
import Formwright.Proofs.Toml.Remainder

/-!
The numbers of a TOML document. A numeral is a finite number unless it is one of the words for those
that are not, so a document without these words has finite numbers only, however deep they lie.
-/

namespace Formwright.Toml

/-! ## Numbers of a value -/

mutual

def Value.numbers : Value → List Binary64
  | .number value => [value]
  | .array items => numbersOfItems items
  | .table entries => numbersOfEntries entries
  | .text _ | .integer _ | .flag _ | .moment _ => []

def numbersOfItems : List Value → List Binary64
  | [] => []
  | item :: items => item.numbers ++ numbersOfItems items

def numbersOfEntries : List (String × Value) → List Binary64
  | [] => []
  | (_, value) :: entries => value.numbers ++ numbersOfEntries entries

end

theorem mem_numbersOfItems {n : Binary64} {items : List Value} :
    n ∈ numbersOfItems items ↔ ∃ item ∈ items, n ∈ item.numbers := by
  induction items with
  | nil => simp [numbersOfItems]
  | cons item items ih => simp [numbersOfItems, ih]

theorem mem_numbersOfEntries {n : Binary64} {entries : List (String × Value)} :
    n ∈ numbersOfEntries entries ↔ ∃ entry ∈ entries, n ∈ entry.2.numbers := by
  induction entries with
  | nil => simp [numbersOfEntries]
  | cons entry entries ih => simp [numbersOfEntries, ih]

/-! ## Drafts -/

namespace Draft

def Holds (p : Binary64 → Prop) (entries : Entries Draft) : Prop :=
  ∀ entry ∈ entries, ∀ n ∈ entry.2.value.numbers, p n

variable {p : Binary64 → Prop} {entries changed : Entries Draft}

theorem mem_values {entries : List (String × Draft)} {entry : String × Value} :
    entry ∈ values entries ↔ ∃ draft ∈ entries, entry = (draft.1, draft.2.value) := by
  induction entries with
  | nil => simp [values]
  | cons first later ih => simp [values, ih]

theorem mem_tableValues {tables : List (List (String × Draft))} {value : Value} :
    value ∈ tableValues tables ↔ ∃ entries ∈ tables, value = .table (sortByKey (values entries)) := by
  induction tables with
  | nil => simp [tableValues]
  | cons first later ih => simp [tableValues, ih]

theorem mem_numbers_sorted {n : Binary64} {entries : List (String × Draft)} :
    n ∈ numbersOfEntries (sortByKey (values entries)) ↔
      ∃ entry ∈ entries, n ∈ entry.2.value.numbers := by
  rw [mem_numbersOfEntries]
  constructor
  next =>
    rintro ⟨entry, mem, inside⟩
    obtain ⟨draft, listed, rfl⟩ := mem_values.mp (List.mem_mergeSort.mp mem)
    exact ⟨draft, listed, inside⟩
  next =>
    rintro ⟨draft, listed, inside⟩
    exact ⟨_, List.mem_mergeSort.mpr (mem_values.mpr ⟨draft, listed, rfl⟩), inside⟩

theorem holds_sorted :
    (∀ n ∈ numbersOfEntries (sortByKey (values entries)), p n) ↔ Holds p entries := by
  constructor
  · exact fun all entry mem n inside => all n (mem_numbers_sorted.mpr ⟨entry, mem, inside⟩)
  · intro holds n mem
    obtain ⟨entry, listed, inside⟩ := mem_numbers_sorted.mp mem
    exact holds entry listed n inside

theorem holds_table {origin : Origin} :
    (∀ n ∈ (table origin entries).value.numbers, p n) ↔ Holds p entries :=
  holds_sorted

theorem holds_tables {earlier : List (Entries Draft)} {last : Entries Draft} :
    (∀ n ∈ (tables earlier last).value.numbers, p n) ↔
      (∀ entries ∈ earlier, Holds p entries) ∧ Holds p last := by
  have parted {n : Binary64} : n ∈ (tables earlier last).value.numbers ↔
      (∃ entries ∈ earlier, n ∈ numbersOfEntries (sortByKey (values entries))) ∨
        n ∈ numbersOfEntries (sortByKey (values last)) := by
    rw [value, Value.numbers, mem_numbersOfItems]
    simp only [List.mem_append, mem_tableValues, List.mem_singleton, or_and_right, exists_or,
      exists_eq_left, Value.numbers]
    constructor
    · rintro (⟨_, ⟨entries, mem, rfl⟩, inside⟩ | inside)
      · exact .inl ⟨entries, mem, inside⟩
      · exact .inr inside
    · rintro (⟨entries, mem, inside⟩ | inside)
      · exact .inl ⟨_, ⟨entries, mem, rfl⟩, inside⟩
      · exact .inr inside
  simp only [parted, ← holds_sorted]
  constructor
  · exact fun all => ⟨fun entries mem n inside => all n (.inl ⟨entries, mem, inside⟩),
      fun n inside => all n (.inr inside)⟩
  · rintro ⟨before, lastly⟩ n (⟨entries, mem, inside⟩ | inside)
    · exact before entries mem n inside
    · exact lastly n inside

theorem holds_insert (holds : Holds p entries) (key : String) {draft : Draft}
    (new : ∀ n ∈ draft.value.numbers, p n) : Holds p (Entries.insert entries key draft) := by
  intro entry mem
  obtain rfl | old := Entries.mem_insert mem
  · exact new
  · exact holds entry old

theorem holds_of_find? (holds : Holds p entries) {key : String} {draft : Draft}
    (found : Entries.find? entries key = some draft) : ∀ n ∈ draft.value.numbers, p n := by
  obtain ⟨before, after, rfl, -⟩ := List.lookup_eq_some_iff.mp found
  exact holds (key, draft) (List.mem_append_right _ List.mem_cons_self)

theorem holds_nil : Holds p [] := by
  rintro _ ⟨⟩

/-- A change inside a table that a header names. -/
theorem holds_within {change : Entries Draft → Option (Entries Draft)}
    (keeps : ∀ {before after}, change before = some after → Holds p before → Holds p after)
    {path : List String} (done : within change path entries = some changed)
    (holds : Holds p entries) : Holds p changed := by
  induction path generalizing entries changed with
  | nil => exact keeps done holds
  | cons key path ih =>
    rw [within] at done
    split at done
    next =>
      obtain ⟨inner, taken, rfl⟩ := Option.map_eq_some_iff.mp done
      exact holds_insert holds key (holds_table.mpr (ih taken holds_nil))
    next found =>
      obtain ⟨inner, taken, rfl⟩ := Option.map_eq_some_iff.mp done
      have old := holds_table.mp (holds_of_find? holds found)
      exact holds_insert holds key (holds_table.mpr (ih taken old))
    next found =>
      obtain ⟨last, taken, rfl⟩ := Option.map_eq_some_iff.mp done
      have old := holds_tables.mp (holds_of_find? holds found)
      exact holds_insert holds key (holds_tables.mpr ⟨old.1, ih taken old.2⟩)
    next => cases done

theorem holds_openTable {key : String} (done : openTable key entries = some changed)
    (holds : Holds p entries) : Holds p changed := by
  rw [openTable] at done
  split at done
  next =>
    cases done
    exact holds_insert holds key (holds_table.mpr holds_nil)
  next found =>
    cases done
    have old := holds_table.mp (holds_of_find? holds found)
    exact holds_insert holds key (holds_table.mpr old)
  next => cases done

theorem holds_openNext {key : String} (done : openNext key entries = some changed)
    (holds : Holds p entries) : Holds p changed := by
  rw [openNext] at done
  split at done
  next =>
    cases done
    have none : ∀ entries ∈ [], Holds p entries := by
      rintro _ ⟨⟩
    exact holds_insert holds key (holds_tables.mpr ⟨none, holds_nil⟩)
  next earlier last found =>
    cases done
    obtain ⟨before, lastly⟩ := holds_tables.mp (holds_of_find? holds found)
    have all : ∀ entries ∈ earlier ++ [last], Holds p entries := by
      intro entries mem
      cases List.mem_append.mp mem with
      | inl old => exact before entries old
      | inr new => exact List.mem_singleton.mp new ▸ lastly
    exact holds_insert holds key (holds_tables.mpr ⟨all, holds_nil⟩)
  next => cases done

theorem holds_addValue {value : Value} (new : ∀ n ∈ value.numbers, p n) {key : String}
    {open_ : Bool} {path : List String} (done : addValue value key open_ path entries = some changed)
    (holds : Holds p entries) : Holds p changed := by
  induction path generalizing entries changed open_ with
  | nil =>
    rw [addValue] at done
    split at done
    next => cases done
    next =>
      cases done
      exact holds_insert holds key new
  | cons name path ih =>
    rw [addValue] at done
    split at done
    next =>
      obtain ⟨inner, taken, rfl⟩ := Option.map_eq_some_iff.mp done
      exact holds_insert holds name (holds_table.mpr (ih taken holds_nil))
    next found =>
      obtain ⟨inner, taken, rfl⟩ := Option.map_eq_some_iff.mp done
      have old := holds_table.mp (holds_of_find? holds found)
      exact holds_insert holds name (holds_table.mpr (ih taken old))
    next found =>
      obtain ⟨inner, taken, rfl⟩ := Option.map_eq_some_iff.mp done
      have old := holds_table.mp (holds_of_find? holds found)
      exact holds_insert holds name (holds_table.mpr (ih taken old))
    next found =>
      obtain ⟨last, taken, rfl⟩ := Option.map_eq_some_iff.mp done
      have old := holds_tables.mp (holds_of_find? holds found)
      exact holds_insert holds name (holds_tables.mpr ⟨old.1, ih taken old.2⟩)
    next => cases done

end Draft

/-! ## Numerals -/

def namesNoNumber (numeral : List Char) : Bool :=
  (splitSign numeral).2 = "inf".toList || (splitSign numeral).2 = "nan".toList

/-- A numeral for a number that is too large is no numeral. -/
theorem isFinite_of_readNumeral {numeral : List Char} {n : Binary64}
    (read : readNumeral numeral = some (.number n)) :
    n.isFinite = !namesNoNumber numeral := by
  rw [readNumeral] at read
  split at read
  next =>
    split at read
    next => cases read
    next => cases read
  next =>
    obtain ⟨number, read, same⟩ := Option.map_eq_some_iff.mp read
    cases same
    unfold readNumber at read
    dsimp only at read
    split at read
    next infinite =>
      cases read
      simp [Binary64.isFinite, namesNoNumber, infinite]
    next numbered =>
      split at read
      next undefined =>
        cases read
        simp [Binary64.isFinite, namesNoNumber, undefined]
      next defined =>
        have finite := (Option.filter_eq_some_iff.mp read).2
        rw [finite, namesNoNumber, decide_eq_false numbered, decide_eq_false defined]
        rfl

theorem splitSign_suffix (text : List Char) : (splitSign text).2 <:+ text := by
  unfold splitSign
  split
  · split
    · exact List.suffix_cons ..
    · exact List.suffix_refl _
  · exact List.suffix_refl _

def IsWrittenIn (document : List Char) (n : Binary64) : Prop :=
  ∃ numeral, numeral <:+: document ∧ readNumeral numeral = some (.number n)

theorem numbers_of_ofScalar {word : List Char} {value : Value} (read : ofScalar word = some value)
    {n : Binary64} (mem : n ∈ value.numbers) : readNumeral word = some (.number n) := by
  have plain {value : Value} (numeral : readNumeral word = some value) (mem : n ∈ value.numbers) :
      value = .number n := by
    rw [readNumeral] at numeral
    split at numeral
    next =>
      split at numeral
      next =>
        cases numeral
        cases mem
      next => cases numeral
    next =>
      obtain ⟨number, -, rfl⟩ := Option.map_eq_some_iff.mp numeral
      rw [List.mem_singleton.mp mem]
  rw [ofScalar] at read
  split at read
  next =>
    cases read
    cases mem
  next =>
    split at read
    next =>
      cases read
      cases mem
    next =>
      cases Option.or_eq_some_iff.mp read with
      | inl numeral => rw [numeral, plain numeral mem]
      | inr moment =>
        obtain ⟨text, -, rfl⟩ := Option.map_eq_some_iff.mp moment.2
        cases mem

/-! ## Values -/

section Document

variable {document : List Char}

theorem numbers_of_readScalar {text rest : List Char} {value : Value}
    (found : readScalar text = some (value, rest)) (inside : text <:+ document) :
    ∀ n ∈ value.numbers, IsWrittenIn document n := by
  obtain ⟨read, scalar, same⟩ := Option.map_eq_some_iff.mp found
  cases same
  intro n mem
  exact ⟨_, (List.take_prefix ..).isInfix.trans inside.isInfix, numbers_of_ofScalar scalar mem⟩

/-- What reading a value, the rest of an array or the rest of an inline table leaves is an end of
the text, and all numbers read are written in the document. -/
structure ReadsWritten (document : List Char) (fuel : Nat) : Prop where
  value : ∀ {depth text value rest}, readValue depth fuel text = some (value, rest) →
    text <:+ document → rest <:+ text ∧ ∀ n ∈ value.numbers, IsWrittenIn document n
  items : ∀ {depth text items rest}, readItems depth fuel text = some (items, rest) →
    text <:+ document → rest <:+ text ∧ ∀ n ∈ numbersOfItems items, IsWrittenIn document n
  fields : ∀ {depth before text after rest}, readFields depth fuel before text = some (after, rest) →
    text <:+ document → Draft.Holds (IsWrittenIn document) before →
    rest <:+ text ∧ Draft.Holds (IsWrittenIn document) after

variable {fuel : Nat}

theorem readValue_written (shallower : ReadsWritten document fuel) {depth : Nat}
    {text rest : List Char} {value : Value}
    (found : readValue depth (fuel + 1) text = some (value, rest)) (inside : text <:+ document) :
    rest <:+ text ∧ ∀ n ∈ value.numbers, IsWrittenIn document n := by
  unfold readValue at found
  split at found
  next => cases found
  next c later =>
    have within : later <:+ document := (List.suffix_cons ..).trans inside
    split at found
    next =>
      obtain ⟨⟨content, behind⟩, read, same⟩ := Option.map_eq_some_iff.mp found
      cases same
      exact ⟨readText_suffix read, fun n mem => nomatch mem⟩
    next =>
      split at found
      next =>
        split at found
        next => cases found
        next =>
          obtain ⟨⟨items, behind⟩, read, same⟩ := Option.map_eq_some_iff.mp found
          cases same
          obtain ⟨ends, written⟩ := shallower.items read within
          exact ⟨ends.trans (List.suffix_cons ..), written⟩
      next =>
        split at found
        next =>
          split at found
          next => cases found
          next =>
            obtain ⟨⟨fields, behind⟩, read, same⟩ := Option.map_eq_some_iff.mp found
            cases same
            obtain ⟨ends, written⟩ := shallower.fields read within Draft.holds_nil
            exact ⟨ends.trans (List.suffix_cons ..), Draft.holds_sorted.mpr written⟩
        next => exact ⟨readScalar_suffix found, numbers_of_readScalar found inside⟩

theorem readItems_written (shallower : ReadsWritten document fuel) {depth : Nat}
    {text rest : List Char} {items : List Value}
    (found : readItems depth (fuel + 1) text = some (items, rest)) (inside : text <:+ document) :
    rest <:+ text ∧ ∀ n ∈ numbersOfItems items, IsWrittenIn document n := by
  rw [readItems] at found
  obtain ⟨start, void, found⟩ := Option.bind_eq_some_iff.mp found
  have starts := dropVoid_suffix void
  dsimp only at found
  split at found
  next later =>
    cases found
    exact ⟨(List.suffix_cons ..).trans starts, fun n mem => nomatch mem⟩
  next =>
    obtain ⟨⟨item, behind⟩, read, found⟩ := Option.bind_eq_some_iff.mp found
    obtain ⟨itemEnds, first⟩ := shallower.value read (starts.trans inside)
    obtain ⟨next, void, found⟩ := Option.bind_eq_some_iff.mp found
    have goesOn := (dropVoid_suffix void).trans (itemEnds.trans starts)
    dsimp only at found
    split at found
    next later =>
      cases found
      refine ⟨(List.suffix_cons ..).trans goesOn, fun n mem => first n ?_⟩
      simpa [numbersOfItems] using mem
    next later =>
      obtain ⟨⟨others, final⟩, read, same⟩ := Option.bind_eq_some_iff.mp found
      cases same
      have later := (List.suffix_cons ..).trans goesOn
      obtain ⟨ends, written⟩ := shallower.items read (later.trans inside)
      refine ⟨ends.trans later, fun n mem => ?_⟩
      cases List.mem_append.mp mem with
      | inl here => exact first n here
      | inr there => exact written n there
    next => cases found

theorem readFields_written (shallower : ReadsWritten document fuel) {depth : Nat}
    {text rest : List Char} {before after : Entries Draft}
    (found : readFields depth (fuel + 1) before text = some (after, rest))
    (inside : text <:+ document) (holds : Draft.Holds (IsWrittenIn document) before) :
    rest <:+ text ∧ Draft.Holds (IsWrittenIn document) after := by
  rw [readFields] at found
  obtain ⟨start, void, found⟩ := Option.bind_eq_some_iff.mp found
  have starts := dropVoid_suffix void
  dsimp only at found
  split at found
  next later =>
    cases found
    exact ⟨(List.suffix_cons ..).trans starts, holds⟩
  next =>
    obtain ⟨⟨path, key, behind⟩, read, found⟩ := Option.bind_eq_some_iff.mp found
    have keyEnds := (readKey_suffix read).trans starts
    obtain ⟨given, equals, found⟩ := Option.bind_eq_some_iff.mp found
    have opens := (dropSpaces_suffix given).trans ((separator_suffix equals).trans keyEnds)
    obtain ⟨⟨value, behind⟩, read, found⟩ := Option.bind_eq_some_iff.mp found
    obtain ⟨valueEnds, new⟩ := shallower.value read (opens.trans inside)
    obtain ⟨fields, added, found⟩ := Option.bind_eq_some_iff.mp found
    have holds := Draft.holds_addValue new added holds
    obtain ⟨next, void, found⟩ := Option.bind_eq_some_iff.mp found
    have goesOn := (dropVoid_suffix void).trans (valueEnds.trans opens)
    split at found
    next later =>
      cases found
      exact ⟨(List.suffix_cons ..).trans goesOn, holds⟩
    next later =>
      have later := (List.suffix_cons ..).trans goesOn
      obtain ⟨ends, written⟩ := shallower.fields found (later.trans inside) holds
      exact ⟨ends.trans later, written⟩
    next => cases found

theorem readsWritten (document : List Char) (fuel : Nat) : ReadsWritten document fuel := by
  induction fuel with
  | zero =>
    constructor
    all_goals
      intros
      contradiction
  | succ fuel ih =>
    exact ⟨readValue_written ih, readItems_written ih, readFields_written ih⟩

/-! ## Documents -/

namespace Reading

variable {reading after : Reading} {text rest : List Char}

theorem readEntry_written (found : reading.readEntry text = some (after, rest))
    (inside : text <:+ document) (holds : Draft.Holds (IsWrittenIn document) reading.root) :
    rest <:+ text ∧ Draft.Holds (IsWrittenIn document) after.root := by
  obtain ⟨⟨path, key, behind⟩, read, found⟩ := Option.bind_eq_some_iff.mp found
  have keyEnds := readKey_suffix read
  obtain ⟨given, equals, found⟩ := Option.bind_eq_some_iff.mp found
  have opens := (dropSpaces_suffix given).trans ((separator_suffix equals).trans keyEnds)
  obtain ⟨⟨value, final⟩, read, found⟩ := Option.bind_eq_some_iff.mp found
  obtain ⟨ends, new⟩ := (readsWritten document _).value read (opens.trans inside)
  obtain ⟨root, added, same⟩ := Option.bind_eq_some_iff.mp found
  cases same
  exact ⟨ends.trans opens, Draft.holds_within (Draft.holds_addValue new) added holds⟩

theorem readHeader_written (found : reading.readHeader text = some (after, rest))
    (holds : Draft.Holds (IsWrittenIn document) reading.root) :
    rest <:+ text ∧ Draft.Holds (IsWrittenIn document) after.root := by
  obtain ⟨⟨path, key, behind⟩, read, found⟩ := Option.bind_eq_some_iff.mp found
  obtain ⟨final, bracket, found⟩ := Option.bind_eq_some_iff.mp found
  obtain ⟨root, opened, same⟩ := Option.bind_eq_some_iff.mp found
  cases same
  exact ⟨(separator_suffix bracket).trans (readKey_suffix read),
    Draft.holds_within Draft.holds_openTable opened holds⟩

theorem readNextHeader_written (found : reading.readNextHeader text = some (after, rest))
    (holds : Draft.Holds (IsWrittenIn document) reading.root) :
    rest <:+ text ∧ Draft.Holds (IsWrittenIn document) after.root := by
  obtain ⟨⟨path, key, behind⟩, read, found⟩ := Option.bind_eq_some_iff.mp found
  obtain ⟨inner, bracket, found⟩ := Option.bind_eq_some_iff.mp found
  obtain ⟨final, second, found⟩ := Option.bind_eq_some_iff.mp found
  obtain ⟨root, opened, same⟩ := Option.bind_eq_some_iff.mp found
  cases same
  have brackets := (separator_suffix second).trans (separator_suffix bracket)
  exact ⟨brackets.trans (readKey_suffix read),
    Draft.holds_within Draft.holds_openNext opened holds⟩

theorem step_written (found : reading.step text = some (after, rest))
    (inside : text <:+ document) (holds : Draft.Holds (IsWrittenIn document) reading.root) :
    rest <:+ text ∧ Draft.Holds (IsWrittenIn document) after.root := by
  unfold step at found
  split at found
  next =>
    obtain ⟨ends, written⟩ := readNextHeader_written found holds
    exact ⟨ends.trans ((List.suffix_cons ..).trans (List.suffix_cons ..)), written⟩
  next =>
    obtain ⟨ends, written⟩ := readHeader_written found holds
    exact ⟨ends.trans (List.suffix_cons ..), written⟩
  next => exact readEntry_written found inside holds

theorem endOfLine_suffix (found : endOfLine text = some rest) : rest <:+ text := by
  have spaces := dropSpaces_suffix text
  rw [endOfLine] at found
  split at found
  next =>
    cases found
    exact List.nil_suffix
  next opened =>
    split at found
    next =>
      rw [opened] at spaces
      exact (dropVoid_suffix found).trans spaces
    next => cases found

theorem run_written {fuel : Nat} (found : run fuel reading text = some after)
    (inside : text <:+ document) (holds : Draft.Holds (IsWrittenIn document) reading.root) :
    Draft.Holds (IsWrittenIn document) after.root := by
  induction fuel generalizing reading text with
  | zero => cases found
  | succ fuel ih =>
    rw [run] at found
    obtain ⟨start, void, found⟩ := Option.bind_eq_some_iff.mp found
    have starts := (dropVoid_suffix void).trans inside
    dsimp only at found
    split at found
    next =>
      cases found
      exact holds
    next =>
      obtain ⟨⟨stepped, behind⟩, taken, found⟩ := Option.bind_eq_some_iff.mp found
      obtain ⟨next, line, found⟩ := Option.bind_eq_some_iff.mp found
      obtain ⟨ends, written⟩ := step_written taken starts holds
      exact ih found ((endOfLine_suffix line).trans (ends.trans starts)) written

end Reading

/-- Every number of a document, however deep it lies, is written in it as a numeral. -/
theorem numbers_of_read {document : String} {entries : List (String × Value)}
    (found : read document = some entries) :
    ∀ n ∈ numbersOfEntries entries, IsWrittenIn document.toList n := by
  obtain ⟨reading, run, rfl⟩ := Option.map_eq_some_iff.mp found
  refine Draft.holds_sorted.mpr (Reading.run_written run ?_ Draft.holds_nil)
  split
  next rest opened =>
    rw [opened]
    exact List.suffix_cons ..
  next => exact List.suffix_refl _

theorem isFinite_of_isWrittenIn {n : Binary64} (written : IsWrittenIn document n)
    (noInfinity : ¬"inf".toList <:+: document) (noName : ¬"nan".toList <:+: document) :
    n.isFinite = true := by
  obtain ⟨numeral, inside, read⟩ := written
  have unsigned := (splitSign_suffix numeral).isInfix.trans inside
  have other : (splitSign numeral).2 ≠ "inf".toList := fun same => noInfinity (same ▸ unsigned)
  have apart : (splitSign numeral).2 ≠ "nan".toList := fun same => noName (same ▸ unsigned)
  rw [isFinite_of_readNumeral read, namesNoNumber, decide_eq_false other, decide_eq_false apart]
  rfl

end Document
end Formwright.Toml
