import Formwright.Proofs.Text.Reading
import Formwright.Proofs.Toml.Quoted
import Formwright.Proofs.Toml.Settled

/-!
Lines of a TOML document: a header with one name, and a name with a value, such as a text in double
quotes.
-/

namespace Formwright.Toml

open Text (takeWhile_run dropWhile_run)

variable {text tail rest next : List Char}

structure BareKey (key : List Char) : Prop where
  filled : key ≠ []
  bare : ∀ c ∈ key, isBareKeyCharacter c = true

instance (key : List Char) : Decidable (BareKey key) :=
  decidable_of_iff ((!key.isEmpty && key.all isBareKeyCharacter) = true) <| by
    rw [Bool.and_eq_true, Bool.not_eq_true', List.isEmpty_eq_false_iff, List.all_eq_true]
    exact ⟨fun ⟨filled, bare⟩ => ⟨filled, bare⟩, fun isKey => ⟨isKey.filled, isKey.bare⟩⟩

theorem not_isSpace_of_bare {c : Char} (bare : isBareKeyCharacter c = true) : isSpace c = false := by
  rw [Bool.eq_false_iff]
  intro space
  simp only [isSpace, Bool.or_eq_true, decide_eq_true_eq] at space
  obtain rfl | rfl := space <;> exact absurd bare (by decide)

theorem readKey_bare {key : List Char} (isKey : BareKey key) (fuel : Nat)
    (ends : ∀ c ∈ rest.head?, isBareKeyCharacter c = false)
    (single : ∀ c ∈ (dropSpaces rest).head?, c ≠ '.') :
    readKey (fuel + 1) (key ++ rest) = some ([], String.ofList key, dropSpaces rest) := by
  have simple : readSimpleKey (key ++ rest) = some (String.ofList key, rest) := by
    have taken := takeWhile_run isKey.bare ends
    have left := dropWhile_run isKey.bare ends
    have filled : key.isEmpty = false := Bool.eq_false_iff.mpr fun empty =>
      isKey.filled (List.isEmpty_iff.mp empty)
    simp only [readSimpleKey, taken, left, filled, Bool.false_eq_true, if_false]
  have start : dropSpaces (key ++ rest) = key ++ rest := by
    cases key with
    | nil => exact absurd rfl isKey.filled
    | cons c key =>
      have dark := not_isSpace_of_bare (isKey.bare c List.mem_cons_self)
      rw [dropSpaces, List.cons_append, List.dropWhile_cons_of_neg (by rw [dark]; decide)]
  rw [readKey, start, simple]
  dsimp only [bind, Option.bind]
  split
  next opened =>
    rw [opened] at single
    exact absurd rfl (single '.' rfl)
  next => rfl

theorem readValue_quoted (depth fuel : Nat) (text : List Char) :
    readValue depth (fuel + 1) ('"' :: text) =
      (readText ('"' :: text)).map fun (content, rest) => (.text (String.ofList content), rest) := by
  rw [readValue]
  rfl

theorem readValue_scalar (depth fuel : Nat) {c : Char} (opens : c ∉ ['"', '\'', '[', '{'])
    (text : List Char) : readValue depth (fuel + 1) (c :: text) = readScalar (c :: text) := by
  simp only [List.mem_cons, List.not_mem_nil, or_false, not_or] at opens
  obtain ⟨quote, mark, bracket, brace⟩ := opens
  have quoted : ¬(decide (c = '"') || decide (c = '\'')) = true := by simp [quote, mark]
  rw [readValue, if_neg quoted, if_neg bracket, if_neg brace]

namespace Reading

variable {root : Entries Draft} {current : List String}

theorem dropVoid_bare {key : List Char} (isKey : BareKey key) (rest : List Char) :
    dropVoid false (key ++ rest) = some (key ++ rest) := by
  cases key with
  | nil => exact absurd rfl isKey.filled
  | cons c key =>
    have bare := isKey.bare c List.mem_cons_self
    have other (mark : Char) (special : isBareKeyCharacter mark = false) : c ≠ mark := by
      rintro rfl
      rw [bare] at special
      cases special
    rw [List.cons_append, dropVoid, if_neg (other '\n' (by decide)), if_neg (other '\r' (by decide)),
      if_neg (by decide), not_isSpace_of_bare bare, if_neg (by decide),
      if_neg (other '#' (by decide))]

theorem ne_bracket {key : List Char} (isKey : BareKey key) (rest text : List Char) :
    key ++ rest ≠ '[' :: text := by
  cases key with
  | nil => exact absurd rfl isKey.filled
  | cons c key =>
    intro same
    cases same
    exact absurd (isKey.bare '[' List.mem_cons_self) (by decide)

theorem run_step {reading : Reading} {opening : List Char}
    (start : dropVoid false text = some opening) (filled : opening ≠ []) (fuel : Nat) :
    run (fuel + 1) reading text =
      (reading.step opening).bind fun read =>
        (endOfLine read.2).bind fun next => run fuel read.1 next := by
  rw [run, start]
  dsimp only [bind, Option.bind]
  split
  next => exact absurd rfl filled
  next => rfl

/-- A line that opens a table of one name. -/
theorem run_header {key : List Char} (isKey : BareKey key) (line : endOfLine rest = some next)
    (fuel : Nat) : run (fuel + 1) ⟨root, current⟩ ('[' :: (key ++ ']' :: rest)) =
      (Draft.openTable (String.ofList key) root).bind fun root =>
        run fuel ⟨root, [String.ofList key]⟩ next := by
  have read := readKey_bare isKey (key ++ ']' :: rest).length
    (show ∀ c ∈ (']' :: rest).head?, isBareKeyCharacter c = false by rintro c ⟨⟩; decide)
    (by rintro c ⟨⟩; decide)
  have stepped : step ⟨root, current⟩ ('[' :: (key ++ ']' :: rest)) =
      (Draft.openTable (String.ofList key) root).map fun root =>
        (⟨root, [String.ofList key]⟩, rest) := by
    unfold step
    split
    next opened => exact absurd (List.cons.inj opened).2 (ne_bracket isKey _ _)
    next opened =>
      cases opened
      have bracket : dropSpaces (']' :: rest) = ']' :: rest := rfl
      rw [readHeader, read, bracket]
      dsimp only [bind, Option.bind, separator]
      rw [if_pos rfl]
      dsimp only
      rw [Draft.within]
      cases Draft.openTable (String.ofList key) root <;> rfl
    next opened => exact absurd rfl (opened _)
  have start : dropVoid false ('[' :: (key ++ ']' :: rest)) = some ('[' :: (key ++ ']' :: rest)) := rfl
  rw [run_step start (List.cons_ne_nil _ _), stepped]
  cases Draft.openTable (String.ofList key) root with
  | none => rfl
  | some opened =>
    dsimp only [Option.map, Option.bind]
    rw [line]

/-- A line that adds a table to those of one name. -/
theorem run_nextHeader {key : List Char} {changed : Entries Draft} (isKey : BareKey key)
    (line : endOfLine rest = some next)
    (opened : Draft.openNext (String.ofList key) root = some changed) (fuel : Nat) :
    run (fuel + 1) ⟨root, current⟩ ('[' :: '[' :: (key ++ ']' :: ']' :: rest)) =
      run fuel ⟨changed, [String.ofList key]⟩ next := by
  have read := readKey_bare isKey (key ++ ']' :: ']' :: rest).length
    (show ∀ c ∈ (']' :: ']' :: rest).head?, isBareKeyCharacter c = false by rintro c ⟨⟩; decide)
    (by rintro c ⟨⟩; decide)
  have stepped : step ⟨root, current⟩ ('[' :: '[' :: (key ++ ']' :: ']' :: rest)) =
      some (⟨changed, [String.ofList key]⟩, rest) := by
    have bracket : dropSpaces (']' :: ']' :: rest) = ']' :: ']' :: rest := rfl
    rw [step, readNextHeader, read, bracket]
    dsimp only [bind, Option.bind, separator]
    rw [if_pos rfl]
    dsimp only
    rw [if_pos rfl]
    dsimp only
    rw [Draft.within, opened]
    rfl
  have start : dropVoid false ('[' :: '[' :: (key ++ ']' :: ']' :: rest)) =
      some ('[' :: '[' :: (key ++ ']' :: ']' :: rest)) := rfl
  rw [run_step start (List.cons_ne_nil _ _), stepped]
  dsimp only [Option.bind]
  rw [line]

/-- A line that gives a name the value that begins on it. -/
theorem run_entry {key : List Char} (isKey : BareKey key) (tight : dropSpaces text = text)
    (fuel : Nat) :
    run (fuel + 1) ⟨root, current⟩ (key ++ (" = ".toList ++ text)) =
      (readValue 0 (text.length + 2) text).bind fun (value, rest) =>
        (Draft.within (Draft.addValue value (String.ofList key) true []) current root).bind
          fun root => (endOfLine rest).bind fun next => run fuel ⟨root, current⟩ next := by
  have read := readKey_bare isKey (key ++ (" = ".toList ++ text)).length
    (show ∀ c ∈ (" = ".toList ++ text).head?, isBareKeyCharacter c = false by
      rintro c ⟨⟩; decide)
    (by rintro c ⟨⟩; decide)
  have stepped : step ⟨root, current⟩ (key ++ (" = ".toList ++ text)) =
      (readValue 0 (text.length + 2) text).bind fun (value, rest) =>
        (Draft.within (Draft.addValue value (String.ofList key) true []) current root).map
          fun root => (⟨root, current⟩, rest) := by
    unfold step
    split
    next opened => exact absurd opened (ne_bracket isKey _ _)
    next opened => exact absurd opened (ne_bracket isKey _ _)
    next =>
      have given : dropSpaces (" = ".toList ++ text) = '=' :: ' ' :: text := rfl
      have value : dropSpaces (' ' :: text) = text := tight
      rw [readEntry, read, given]
      dsimp only [bind, Option.bind, separator]
      rw [if_pos rfl]
      dsimp only
      rw [value, List.length_cons]
      cases readValue 0 (text.length + 2) text with
      | none => rfl
      | some found =>
        dsimp only
        cases Draft.within (Draft.addValue found.1 (String.ofList key) true []) current root <;> rfl
  have filled : key ++ (" = ".toList ++ text) ≠ [] := fun nothing =>
    isKey.filled (List.append_eq_nil_iff.mp nothing).1
  rw [run_step (dropVoid_bare isKey _) filled, stepped]
  cases readValue 0 (text.length + 2) text with
  | none => rfl
  | some found =>
    dsimp only [Option.bind]
    cases Draft.within (Draft.addValue found.1 (String.ofList key) true []) current root <;> rfl

/-- A line that gives a name the text in quotes that begins on it. -/
theorem run_text {key : List Char} (isKey : BareKey key) (text : List Char) (fuel : Nat) :
    run (fuel + 1) ⟨root, current⟩ (key ++ (" = \"".toList ++ text)) =
      (readText ('"' :: text)).bind fun (content, rest) =>
        (Draft.within (Draft.addValue (.text (String.ofList content)) (String.ofList key) true [])
          current root).bind fun root =>
          (endOfLine rest).bind fun next => run fuel ⟨root, current⟩ next := by
  have read := @run_entry ('"' :: text) root current _ isKey rfl fuel
  rw [readValue_quoted, Option.bind_map] at read
  exact read

end Reading

/-- An inline table of one field. -/
theorem readValue_inline {key given : List Char} {value : Value} (isKey : BareKey key) (fuel : Nat)
    (tight : dropSpaces (given ++ ' ' :: '}' :: rest) = given ++ ' ' :: '}' :: rest)
    (reads : readValue 1 (fuel + 1) (given ++ ' ' :: '}' :: rest) =
      some (value, ' ' :: '}' :: rest)) :
    readValue 0 (fuel + 3)
        ('{' :: ' ' :: (key ++ (" = ".toList ++ (given ++ ' ' :: '}' :: rest)))) =
      some (.table [(String.ofList key, value)], rest) := by
  have fields : readFields 1 (fuel + 2) []
      (' ' :: (key ++ (" = ".toList ++ (given ++ ' ' :: '}' :: rest)))) =
        some ([(String.ofList key, .closed value)], rest) := by
    have start : dropVoid false (' ' :: (key ++ (" = ".toList ++ (given ++ ' ' :: '}' :: rest)))) =
        some (key ++ (" = ".toList ++ (given ++ ' ' :: '}' :: rest))) :=
      Reading.dropVoid_bare isKey _
    obtain ⟨count, long⟩ : ∃ count,
        (key ++ (" = ".toList ++ (given ++ ' ' :: '}' :: rest))).length = count + 1 := by
      rw [List.length_append]
      exact ⟨key.length + (given ++ ' ' :: '}' :: rest).length + 2, by simp; omega⟩
    have read := readKey_bare isKey count
      (show ∀ c ∈ (" = ".toList ++ (given ++ ' ' :: '}' :: rest)).head?,
        isBareKeyCharacter c = false by rintro c ⟨⟩; decide)
      (by rintro c ⟨⟩; decide)
    have equals : dropSpaces (" = ".toList ++ (given ++ ' ' :: '}' :: rest)) =
        '=' :: ' ' :: (given ++ ' ' :: '}' :: rest) := rfl
    have behind : dropSpaces (' ' :: (given ++ ' ' :: '}' :: rest)) = given ++ ' ' :: '}' :: rest :=
      tight
    rw [readFields, start]
    dsimp only [bind, Option.bind]
    split
    next later closed =>
      cases key with
      | nil => exact absurd rfl isKey.filled
      | cons c key =>
        cases closed
        exact absurd (isKey.bare '}' List.mem_cons_self) (by decide)
    next =>
      rw [long, read, equals]
      dsimp only [separator]
      rw [if_pos rfl]
      dsimp only
      rw [behind, reads]
      rfl
  have opened : readValue 0 (fuel + 3)
      ('{' :: ' ' :: (key ++ (" = ".toList ++ (given ++ ' ' :: '}' :: rest)))) =
      (readFields 1 (fuel + 2) []
        (' ' :: (key ++ (" = ".toList ++ (given ++ ' ' :: '}' :: rest))))).map
        fun read => (.table (Draft.sortByKey (Draft.values read.1)), read.2) := by
    rw [readValue]
    rfl
  rw [opened, fields, Option.map_some]
  simp only [Draft.values, Draft.value, Draft.sortByKey, List.mergeSort_singleton]

theorem sortByKey_of_ascending {entries : List (String × Value)}
    (ascending : (entries.map Prod.fst).Pairwise (· ≤ ·)) : Draft.sortByKey entries = entries := by
  apply List.mergeSort_of_pairwise
  exact (List.pairwise_map.mp ascending).imp fun before => decide_eq_true before

/-! ## Lines of a file -/

def written (lines : List String) : List Char := lines.flatMap fun line => line.toList ++ ['\n']

theorem written_cons (line : String) (later : List String) :
    written (line :: later) = line.toList ++ '\n' :: written later := by
  rw [written, List.flatMap_cons, List.append_assoc]
  rfl

theorem quotesApart_written {lines : List String}
    (apart : ∀ line ∈ lines, QuotesApart line.toList) : QuotesApart ('\n' :: written lines) := by
  induction lines with
  | nil => exact .singleton _
  | cons line later ih =>
    obtain ⟨here, behind⟩ := List.forall_mem_cons.mp apart
    have joined : QuotesApart (line.toList ++ '\n' :: written later) :=
      List.IsChain.append here (ih behind) fun _ _ _ first _ => by
        cases first
        decide
    rw [written_cons]
    exact List.IsChain.cons joined fun _ _ => nofun

def isVoidLine (line : String) : Bool :=
  match line.toList with
  | [] => true
  | c :: rest => c == '#' && rest.all (!isControl ·)

theorem isVoidLine_comment {comment : List Char} (calm : comment.all (!isControl ·) = true) :
    isVoidLine (String.ofList ('#' :: comment)) = true := by
  rw [isVoidLine, String.toList_ofList]
  exact calm

def beginsCode : List String → Bool
  | [] => true
  | line :: _ => line.toList.head?.any fun c => c == '[' || isBareKeyCharacter c

theorem dropVoid_comment {comment : List Char} (calm : ∀ c ∈ comment, isControl c = false)
    (rest : List Char) : dropVoid true (comment ++ '\n' :: rest) = dropVoid false rest := by
  induction comment with
  | nil => rfl
  | cons c comment ih =>
    have here := calm c List.mem_cons_self
    have noBreak : c ≠ '\n' ∧ c ≠ '\r' := by
      constructor <;> rintro rfl <;> exact absurd here (by decide)
    rw [List.cons_append, dropVoid, if_neg noBreak.1, if_neg noBreak.2, if_pos rfl, here,
      if_neg (by decide)]
    exact ih fun d mem => calm d (List.mem_cons_of_mem c mem)

theorem dropVoid_written (lines : List String) (count : Nat)
    (voids : (lines.take count).all isVoidLine = true)
    (code : beginsCode (lines.drop count) = true) :
    dropVoid false (written lines) = some (written (lines.drop count)) := by
  induction count generalizing lines with
  | zero =>
    cases lines with
    | nil => rfl
    | cons line later =>
      rw [List.drop_zero, beginsCode] at code
      rw [List.drop_zero, written_cons]
      cases opened : line.toList with
      | nil =>
        rw [opened] at code
        cases code
      | cons c rest =>
        rw [opened] at code
        have first : c = '[' ∨ isBareKeyCharacter c = true := by simpa using code
        obtain rfl | bare := first
        · rfl
        · have key : BareKey [c] := ⟨List.cons_ne_nil _ _, fun d mem => List.mem_singleton.mp mem ▸ bare⟩
          exact Reading.dropVoid_bare key _
  | succ count ih =>
    cases lines with
    | nil => rfl
    | cons line later =>
      rw [List.take_succ_cons, List.all_cons, Bool.and_eq_true] at voids
      rw [List.drop_succ_cons] at code ⊢
      rw [written_cons, ← ih later voids.2 code]
      have void := voids.1
      unfold isVoidLine at void
      split at void
      next nothing =>
        rw [nothing]
        rfl
      next c comment opened =>
        rw [Bool.and_eq_true, beq_iff_eq, List.all_eq_true] at void
        obtain ⟨rfl, calm⟩ := void
        rw [opened, List.cons_append, dropVoid]
        exact dropVoid_comment (fun c mem => (Bool.not_eq_true' _).mp (calm c mem)) _

/-- Behind a line, empty lines and comments are passed over. -/
theorem endOfLine_written (lines : List String) (count : Nat)
    (voids : (lines.take count).all isVoidLine = true)
    (code : beginsCode (lines.drop count) = true) :
    endOfLine ('\n' :: written lines) = some (written (lines.drop count)) :=
  dropVoid_written lines count voids code

namespace Reading

variable {opening key : String} {later : List String} {root changed : Entries Draft}
  {current : List String}

theorem run_headerLine (isKey : BareKey key.toList)
    (isHeader : opening.toList = '[' :: (key.toList ++ [']']))
    (line : endOfLine ('\n' :: written later) = some next)
    (opened : Draft.openTable key root = some changed) (fuel : Nat) :
    run (fuel + 1) ⟨root, current⟩ (written (opening :: later)) =
      run fuel ⟨changed, [key]⟩ next := by
  have read := @run_header _ _ root current _ isKey line fuel
  rw [String.ofList_toList, opened] at read
  rw [written_cons, isHeader, List.cons_append, List.append_assoc]
  exact read

theorem run_nextHeaderLine (isKey : BareKey key.toList)
    (isHeader : opening.toList = '[' :: '[' :: (key.toList ++ [']', ']']))
    (line : endOfLine ('\n' :: written later) = some next)
    (opened : Draft.openNext key root = some changed) (fuel : Nat) :
    run (fuel + 1) ⟨root, current⟩ (written (opening :: later)) =
      run fuel ⟨changed, [key]⟩ next := by
  have read := @run_nextHeader _ _ root current key.toList changed isKey line
  rw [String.ofList_toList] at read
  rw [written_cons, isHeader, List.cons_append, List.cons_append, List.append_assoc]
  exact read opened fuel

theorem run_entryLine {given : List Char} {value : Value} (isKey : BareKey key.toList)
    (isEntry : opening.toList = key.toList ++ (" = ".toList ++ given))
    (tight : dropSpaces (given ++ '\n' :: written later) = given ++ '\n' :: written later)
    (reads : readValue 0 ((given ++ '\n' :: written later).length + 2)
      (given ++ '\n' :: written later) = some (value, '\n' :: written later))
    (line : endOfLine ('\n' :: written later) = some next)
    (added : Draft.within (Draft.addValue value key true []) current root = some changed)
    (fuel : Nat) :
    run (fuel + 1) ⟨root, current⟩ (written (opening :: later)) =
      run fuel ⟨changed, current⟩ next := by
  rw [written_cons, isEntry, List.append_assoc, List.append_assoc]
  refine (run_entry isKey tight fuel).trans ?_
  rw [reads, String.ofList_toList]
  dsimp only [Option.bind]
  rw [added]
  dsimp only [Option.bind]
  rw [line]

theorem run_textLine (text : String) (isKey : BareKey key.toList)
    (isEntry : opening.toList = key.toList ++ (" = \"".toList ++ (text.toList ++ ['"'])))
    (plain : ∀ c ∈ text.toList, standsForItself c = true)
    (line : endOfLine ('\n' :: written later) = some next)
    (added : Draft.within (Draft.addValue (.text text) key true []) current root = some changed)
    (fuel : Nat) :
    run (fuel + 1) ⟨root, current⟩ (written (opening :: later)) =
      run fuel ⟨changed, current⟩ next := by
  have reads : readValue 0 (('"' :: (text.toList ++ ['"']) ++ '\n' :: written later).length + 2)
      ('"' :: (text.toList ++ ['"']) ++ '\n' :: written later) =
      some (.text text, '\n' :: written later) := by
    rw [List.cons_append, List.append_assoc, readValue_quoted]
    have read : readText ('"' :: (text.toList ++ (['"'] ++ '\n' :: written later))) =
        some (text.toList, '\n' :: written later) := readText_plain plain
    rw [read, Option.map_some]
    dsimp only
    rw [String.ofList_toList]
  exact run_entryLine isKey isEntry rfl reads line added fuel

end Reading
end Formwright.Toml
