import Formwright.Proofs.Text.Ascii
import Formwright.Text.CaseMapping

/-!
Case mappings and ASCII. The small and the capital form of a letter or digit, of whatever script,
hold no ASCII characters but letters and digits, and a capital form holds no small ASCII letter.
Numbers stay as they are, and nothing else becomes one.
-/

namespace Formwright.Text

def IsPlain (c : Char) : Prop := c.isAlphanum = true ∨ 127 < c.toNat

instance (c : Char) : Decidable (IsPlain c) := inferInstanceAs (Decidable (_ ∨ _))

def AllPlain (text : List Char) : Prop := ∀ c ∈ text, IsPlain c

instance (text : List Char) : Decidable (AllPlain text) := List.decidableBAll IsPlain text

theorem isPlain_of_code {code : Nat} (beyond : 127 < code) (valid : code.isValidChar) :
    IsPlain (Char.ofNat code) := by
  right
  rw [Char.ofNat, dif_pos valid]
  exact beyond

def CaseRun.IsPlain (run : CaseRun) : Prop :=
  run.last ≤ 127 ∨
    (run.first = run.last ∧ Text.IsPlain (Char.ofNat ((run.first : Int) + run.shift).toNat)) ∨
    (127 < (run.first : Int) + run.shift ∧ (run.last : Int) + run.shift < 0xD800) ∨
    (0xDFFF < (run.first : Int) + run.shift ∧ (run.last : Int) + run.shift < 0x110000)

instance (run : CaseRun) : Decidable run.IsPlain := inferInstanceAs (Decidable (_ ∨ _))

theorem isPlain_of_covers {run : CaseRun} (leads : run.IsPlain) {code : Nat} (beyond : 127 < code)
    (covered : run.covers code = true) : IsPlain (Char.ofNat ((code : Int) + run.shift).toNat) := by
  simp only [CaseRun.covers, Bool.and_eq_true, decide_eq_true_eq] at covered
  obtain ⟨⟨above, below⟩, -⟩ := covered
  obtain ascii | ⟨single, plain⟩ | ⟨low, high⟩ | ⟨low, high⟩ := leads
  next => omega
  next =>
    have same : code = run.first := by omega
    rw [same]
    exact plain
  next => exact isPlain_of_code (by omega) (.inl (by omega))
  next => exact isPlain_of_code (by omega) (.inr ⟨by omega, by omega⟩)

theorem mem_mapCase {runs : List CaseRun} {expansions : List (Nat × List Nat)} {c d : Char}
    (mem : d ∈ mapCase runs expansions c) :
    (∃ entry ∈ expansions, ∃ code ∈ entry.2, d = Char.ofNat code) ∨
      (∃ run ∈ runs, run.covers c.toNat = true ∧
        d = Char.ofNat ((c.toNat : Int) + run.shift).toNat) ∨
      d = c := by
  rw [mapCase] at mem
  split at mem
  next codes found =>
    obtain ⟨code, listed, rfl⟩ := List.mem_map.mp mem
    obtain ⟨before, after, split, _⟩ := List.lookup_eq_some_iff.mp found
    refine .inl ⟨(c.toNat, codes), ?_, code, listed, rfl⟩
    rw [split]
    exact List.mem_append_right _ List.mem_cons_self
  next =>
    split at mem
    next run found =>
      have covered := List.find?_some found
      exact .inr (.inl ⟨run, List.mem_of_find?_eq_some found, covered, List.mem_singleton.mp mem⟩)
    next => exact .inr (.inr (List.mem_singleton.mp mem))

/-- The tables of a case mapping. The first run has the ASCII letters; all other runs and all
expansions lie beyond ASCII and lead to letters. -/
structure IsCaseMapping (runs : List CaseRun) (expansions : List (Nat × List Nat)) : Prop where
  runsPlain : ∀ run ∈ runs, run.IsPlain
  expansionsPlain : ∀ entry ∈ expansions, ∀ code ∈ entry.2, IsPlain (Char.ofNat code)
  laterRuns : ∀ run ∈ runs.tail, 127 < run.first
  expanded : ∀ entry ∈ expansions, 127 < entry.1

theorem case_tables :
    IsCaseMapping upperRuns upperExpansions ∧ IsCaseMapping lowerRuns lowerExpansions := by
  refine ⟨⟨?_, ?_, ?_, ?_⟩, ?_, ?_, ?_, ?_⟩ <;> decide +kernel

/-- No capital form is empty, and none beyond ASCII has a small ASCII letter. -/
theorem upper_tables :
    (∀ run ∈ upperRuns, run.last ≤ 127 ∨ 122 < (run.first : Int) + run.shift ∨
      (run.last : Int) + run.shift < 97) ∧
    ∀ entry ∈ upperExpansions,
      entry.2 ≠ [] ∧ ∀ code ∈ entry.2, (Char.ofNat code).isLower = false := by
  decide +kernel

theorem ascii_forms {c : Char} (ascii : c.toNat < 128) :
    (mapCase [⟨0x61, 0x7A, 1, -32⟩] [] c = [c.toUpper] ∧ c.toUpper.isLower = false) ∧
    mapCase [⟨0x41, 0x5A, 1, 32⟩] [] c = [c.toLower] ∧
    (IsPlain c → IsPlain c.toUpper ∧ IsPlain c.toLower) ∧
    (isAlphanumeric c = true → IsPlain c) :=
  forall_ascii (motive := fun c =>
    (mapCase [⟨0x61, 0x7A, 1, -32⟩] [] c = [c.toUpper] ∧ c.toUpper.isLower = false) ∧
    mapCase [⟨0x41, 0x5A, 1, 32⟩] [] c = [c.toLower] ∧
    (IsPlain c → IsPlain c.toUpper ∧ IsPlain c.toLower) ∧
    (isAlphanumeric c = true → IsPlain c))
    (by decide +kernel) ascii

theorem isPlain_of_isAlphanumeric (c : Char) (alphanumeric : isAlphanumeric c = true) :
    IsPlain c := by
  by_cases ascii : c.toNat < 128
  · exact (ascii_forms ascii).2.2.2 alphanumeric
  · exact .inr (by omega)

theorem mapCase_beyond {runs : List CaseRun} {expansions : List (Nat × List Nat)}
    (tables : IsCaseMapping runs expansions) {c : Char} (beyond : 127 < c.toNat) :
    AllPlain (mapCase runs expansions c) := by
  intro d mem
  obtain ⟨entry, known, code, listed, rfl⟩ | ⟨run, known, covered, rfl⟩ | rfl := mem_mapCase mem
  · exact tables.expansionsPlain entry known code listed
  · exact isPlain_of_covers (tables.runsPlain run known) beyond covered
  · exact .inr beyond

theorem mapCase_ascii {run : CaseRun} {runs : List CaseRun} {expansions : List (Nat × List Nat)}
    (tables : IsCaseMapping (run :: runs) expansions) {c : Char} (ascii : c.toNat < 128) :
    mapCase (run :: runs) expansions c = mapCase [run] [] c := by
  have noExpansion : expansions.lookup c.toNat = none := by
    rw [List.lookup_eq_none_iff]
    intro entry mem
    have beyond := tables.expanded entry mem
    exact bne_iff_ne.mpr (by omega)
  have noRun : runs.find? (·.covers c.toNat) = none := by
    rw [List.find?_eq_none]
    intro other mem
    have beyond := tables.laterRuns other mem
    have below : ¬other.first ≤ c.toNat := by omega
    simp [CaseRun.covers, below]
  rw [mapCase, mapCase, noExpansion, List.lookup_nil, List.find?_cons, List.find?_cons, noRun,
    List.find?_nil]

theorem capital_ascii {c : Char} (ascii : c.toNat < 128) : capital c = [c.toUpper] := by
  have split : upperRuns = ⟨0x61, 0x7A, 1, -32⟩ :: upperRuns.tail := rfl
  have tables := case_tables.1
  rw [split] at tables
  rw [capital, split, mapCase_ascii tables ascii, (ascii_forms ascii).1.1]

theorem small_ascii {c : Char} (ascii : c.toNat < 128) : small c = [c.toLower] := by
  have split : lowerRuns = ⟨0x41, 0x5A, 1, 32⟩ :: lowerRuns.tail := rfl
  have tables := case_tables.2
  rw [split] at tables
  rw [small, split, mapCase_ascii tables ascii, (ascii_forms ascii).2.1]

theorem allPlain_singleton {c : Char} (plain : IsPlain c) : AllPlain [c] := by
  intro d mem
  rw [List.mem_singleton.mp mem]
  exact plain

theorem allPlain_capital {c : Char} (plain : IsPlain c) : AllPlain (capital c) := by
  by_cases beyond : 127 < c.toNat
  · exact mapCase_beyond case_tables.1 beyond
  · have ascii : c.toNat < 128 := by omega
    rw [capital_ascii ascii]
    exact allPlain_singleton ((ascii_forms ascii).2.2.1 plain).1

theorem allPlain_small {c : Char} (plain : IsPlain c) : AllPlain (small c) := by
  by_cases beyond : 127 < c.toNat
  · exact mapCase_beyond case_tables.2 beyond
  · have ascii : c.toNat < 128 := by omega
    rw [small_ascii ascii]
    exact allPlain_singleton ((ascii_forms ascii).2.2.1 plain).2

theorem code_of_isLower {code : Nat} (lower : (Char.ofNat code).isLower = true) :
    97 ≤ code ∧ code ≤ 122 := by
  by_cases valid : code.isValidChar
  · have same : (Char.ofNat code).toNat = code := by
      rw [Char.ofNat, dif_pos valid]
      rfl
    change (decide (97 ≤ (Char.ofNat code).val) && decide ((Char.ofNat code).val ≤ 122)) = true
      at lower
    simpa [UInt32.le_iff_toNat_le, same] using lower
  · rw [Char.ofNat, dif_neg valid] at lower
    cases lower

/-- Capitals may be several characters, but none of them is a small ASCII letter. -/
theorem isLower_of_mem_capital {c d : Char} (mem : d ∈ capital c) : d.isLower = false := by
  by_cases ascii : c.toNat < 128
  · rw [capital_ascii ascii, List.mem_singleton] at mem
    rw [mem]
    exact (ascii_forms ascii).1.2
  · obtain ⟨runs, expansions⟩ := upper_tables
    obtain ⟨entry, known, code, listed, rfl⟩ | ⟨run, known, covered, rfl⟩ | rfl := mem_mapCase mem
    · exact (expansions entry known).2 code listed
    · rw [← Bool.not_eq_true]
      intro lower
      have code := code_of_isLower lower
      simp only [CaseRun.covers, Bool.and_eq_true, decide_eq_true_eq] at covered
      have apart := runs run known
      omega
    · rw [← Bool.not_eq_true]
      intro lower
      rw [← d.ofNat_toNat] at lower
      have code := code_of_isLower lower
      omega

theorem capital_ne_nil (c : Char) : capital c ≠ [] := by
  rw [capital, mapCase]
  split
  next codes found =>
    obtain ⟨before, after, split, _⟩ := List.lookup_eq_some_iff.mp found
    have entry : (c.toNat, codes) ∈ upperExpansions := by
      rw [split]
      exact List.mem_append_right _ List.mem_cons_self
    exact mt List.map_eq_nil_iff.mp (upper_tables.2 _ entry).1
  next =>
    split
    next => exact List.cons_ne_nil _ _
    next => exact List.cons_ne_nil _ _

/-! ## Numbers -/

def CharRanges.meets : CharRanges → Nat → Nat → Bool
  | [], _, _ => false
  | (low, high) :: later, first, last =>
    low.ble last && (first.ble high || meets later first last)

theorem CharRanges.containsCode_between {ranges : CharRanges} {first last code : Nat}
    (apart : ranges.meets first last = false) (above : first ≤ code) (below : code ≤ last) :
    ranges.containsCode code = false := by
  induction ranges with
  | nil => rfl
  | cons range later ih =>
    rw [meets] at apart
    rw [containsCode]
    split
    next => rfl
    next reached =>
      have within : range.1.ble last = true := Nat.ble_eq.mpr (by omega)
      rw [within, Bool.true_and, Bool.or_eq_false_iff, ← Bool.not_eq_true, Nat.ble_eq] at apart
      rw [ih apart.2, Bool.or_false, decide_eq_false_iff_not]
      omega

def isNumber (c : Char) : Bool := isDecimalDigit c || otherNumbers.contains c

def numberless (first last : Nat) : Bool :=
  !decimalDigits.meets first last && !otherNumbers.meets first last

theorem isNumber_between {first last : Nat} (apart : numberless first last = true) {c : Char}
    (above : first ≤ c.toNat) (below : c.toNat ≤ last) : isNumber c = false := by
  rw [numberless, Bool.and_eq_true, Bool.not_eq_true', Bool.not_eq_true'] at apart
  rw [isNumber, Bool.or_eq_false_iff]
  exact ⟨CharRanges.containsCode_between apart.1 above below,
    CharRanges.containsCode_between apart.2 above below⟩

/-- No character with a capital is a number, and no capital is one. -/
theorem number_tables :
    (∀ run ∈ upperRuns, numberless run.first run.last = true ∧
      numberless (run.first + run.shift).toNat (run.last + run.shift).toNat = true) ∧
    ∀ entry ∈ upperExpansions, numberless entry.1 entry.1 = true ∧
      ∀ code ∈ entry.2, isNumber (Char.ofNat code) = false := by
  decide +kernel

theorem isNumber_nul : isNumber (Char.ofNat 0) = false := rfl

theorem isNumber_ofNat {first last code : Nat} (apart : numberless first last = true)
    (above : first ≤ code) (below : code ≤ last) : isNumber (Char.ofNat code) = false := by
  by_cases valid : code.isValidChar
  · have same : (Char.ofNat code).toNat = code := by
      rw [Char.ofNat, dif_pos valid]
      rfl
    exact isNumber_between apart (by omega) (by omega)
  · rw [Char.ofNat, dif_neg valid]
    exact isNumber_nul

theorem capital_of_isNumber {c : Char} (number : isNumber c = true) : capital c = [c] := by
  obtain ⟨runs, expansions⟩ := number_tables
  have noExpansion : upperExpansions.lookup c.toNat = none := by
    rw [List.lookup_eq_none_iff]
    intro entry mem
    rw [bne_iff_ne]
    intro same
    have numberless := (expansions entry mem).1
    rw [isNumber_between numberless (by omega) (by omega)] at number
    cases number
  have noRun : upperRuns.find? (·.covers c.toNat) = none := by
    rw [List.find?_eq_none]
    intro run mem covered
    simp only [CaseRun.covers, Bool.and_eq_true, decide_eq_true_eq] at covered
    rw [isNumber_between (runs run mem).1 covered.1.1 covered.1.2] at number
    cases number
  rw [capital, mapCase, noExpansion]
  simp only [noRun]

/-- The capital of a character that is no number has none in it. -/
theorem isNumber_of_mem_capital {c d : Char} (mem : d ∈ capital c) :
    isNumber d = isNumber c := by
  cases number : isNumber c with
  | true =>
    rw [capital_of_isNumber number, List.mem_singleton] at mem
    rw [mem, number]
  | false =>
    obtain ⟨runs, expansions⟩ := number_tables
    obtain ⟨entry, known, code, listed, rfl⟩ | ⟨run, known, covered, rfl⟩ | rfl := mem_mapCase mem
    · exact (expansions entry known).2 code listed
    · simp only [CaseRun.covers, Bool.and_eq_true, decide_eq_true_eq] at covered
      exact isNumber_ofNat (runs run known).2 (by omega) (by omega)
    · exact number

theorem isDigit_of_isNumber {c : Char} (ascii : c.toNat < 128) (number : isNumber c = true) :
    c.isDigit = true := by
  have noOther : otherNumbers.contains c = false :=
    CharRanges.containsCode_between rfl (Nat.zero_le _) (Nat.le_of_lt_succ ascii)
  rwa [isNumber, noOther, Bool.or_false, isDecimalDigit_ascii ascii] at number

theorem isNumber_of_isDigit {c : Char} (digit : c.isDigit = true) : isNumber c = true := by
  rw [isNumber, isDecimalDigit_of_isDigit digit, Bool.true_or]

end Formwright.Text
