import Formwright.Proofs.Component.Spelling
import Mathlib.Data.List.SplitBy

/-!
The words of a name. A text is cut where a letter or digit stands next to another character, and
where a capital ASCII letter follows a small one; a derived name is the words that are left, each
with a capital first character and the others small.
-/

namespace Formwright.Component

open Text

def alike (a b : Char) : Bool := isAlphanumeric a == isAlphanumeric b

def isRun (part : List Char) : Bool := part.all isAlphanumeric

def runs (text : List Char) : List (List Char) := (text.splitBy alike).filter isRun

def changesCase (a b : Char) : Bool := a.isLower && b.isUpper

def staysInWord (a b : Char) : Bool := !changesCase a b

def cutRun (run : List Char) : List (List Char) := run.splitBy staysInWord

def wordsOf (text : List Char) : List (List Char) := (runs text).flatMap cutRun

/-- Marks changes of case in turn: the two characters of a change are passed together, so that the
next change is looked for behind them. -/
def separateInTurn : List Char → List Char
  | [] => []
  | [c] => [c]
  | a :: b :: rest =>
    if changesCase a b then a :: '_' :: b :: separateInTurn rest else a :: separateInTurn (b :: rest)

/-! ## Changes of case -/

/-- The capital letter of a change begins no other change. -/
theorem separateInTurn_behind {b : Char} (upper : b.isUpper = true) (rest : List Char) :
    separateInTurn (b :: rest) = b :: separateInTurn rest := by
  cases rest with
  | nil => rfl
  | cons c later =>
    have noChange : changesCase b c = false := by
      rw [changesCase, not_isLower_of_isUpper upper, Bool.false_and]
    rw [separateInTurn, noChange]
    rfl

/-- No change of case is missed in turn, since no two of them share a character. -/
theorem separateInTurn_eq (text : List Char) : separateInTurn text = separateCases text := by
  fun_induction separateCases text with
  | case1 => rfl
  | case2 c => rfl
  | case3 a b rest change ih =>
    have upper : b.isUpper = true := (Bool.and_eq_true_iff.mp change).2
    rw [separateInTurn, changesCase, if_pos change, ← ih, separateInTurn_behind upper]
  | case4 a b rest noChange ih =>
    rw [separateInTurn, changesCase, if_neg noChange, ih]

/-! ## Words -/

theorem eq_head_of_flatten {part : List Char} {parts : List (List Char)} (filled : part ≠ [])
    {c : Char} (first : c ∈ (part :: parts).flatten.head?) : c = part.head filled := by
  rw [List.flatten_cons, List.head?_append, List.head?_eq_some_head filled] at first
  exact (Option.some.inj first).symm

theorem letters_append (previous : Option Char) (before behind : List Char) :
    letters previous (before ++ behind) =
      letters previous before ++ letters (before.getLast?.or previous) behind := by
  induction before generalizing previous with
  | nil => rfl
  | cons c before ih =>
    have last : (c :: before).getLast?.or previous = before.getLast?.or (some c) := by
      cases before with
      | nil => rfl
      | cons d before => simp [List.getLast?_cons]
    rw [List.cons_append, letters, letters, ih, last]
    split <;> rfl

theorem letters_outside {text : List Char} (outside : ∀ c ∈ text, isAlphanumeric c = false)
    (previous : Option Char) : letters previous text = [] := by
  induction text generalizing previous with
  | nil => rfl
  | cons c rest ih =>
    rw [letters, if_neg (Bool.eq_false_iff.mp (outside c List.mem_cons_self))]
    exact ih (fun d mem => outside d (List.mem_cons_of_mem c mem)) (some c)

/-- The characters of a word behind its first one are written small. -/
theorem letters_within {last : Char} {later : List Char}
    (kept : ∀ c ∈ last :: later, isAlphanumeric c = true)
    (noChange : (last :: later).IsChain fun a b => staysInWord a b = true) :
    (letters (some last) later).flatMap writtenLetter = later.flatMap small := by
  induction later generalizing last with
  | nil => rfl
  | cons c later ih =>
    obtain ⟨here, chain⟩ := List.isChain_cons_cons.mp noChange
    have keptLater : ∀ d ∈ c :: later, isAlphanumeric d = true := fun d mem =>
      kept d (List.mem_cons_of_mem last mem)
    have inside : beginsWord (some last) c = false := by
      rw [staysInWord, Bool.not_eq_true', changesCase] at here
      simp [beginsWord, kept last List.mem_cons_self, here]
    rw [letters, if_pos (keptLater c List.mem_cons_self), List.flatMap_cons, List.flatMap_cons,
      ih keptLater chain, inside]
    rfl

theorem letters_word {previous : Option Char} {first : Char} {later : List Char}
    (begins : beginsWord previous first = true)
    (kept : ∀ c ∈ first :: later, isAlphanumeric c = true)
    (noChange : (first :: later).IsChain fun a b => staysInWord a b = true) :
    (letters previous (first :: later)).flatMap writtenLetter = capitalise (first :: later) := by
  rw [letters, if_pos (kept first List.mem_cons_self), List.flatMap_cons,
    letters_within kept noChange, begins]
  rfl

/-- The parts of a run are spelled one by one: each begins where the case changes, the first where
the run begins. -/
theorem letters_parts {parts : List (List Char)} {previous : Option Char}
    (filled : [] ∉ parts) (kept : ∀ c ∈ parts.flatten, isAlphanumeric c = true)
    (noChange : ∀ part ∈ parts, part.IsChain fun a b => staysInWord a b = true)
    (changes : parts.IsChain fun a b =>
      ∃ ha hb, staysInWord (a.getLast ha) (b.head hb) = false)
    (begins : ∀ c ∈ parts.flatten.head?, beginsWord previous c = true) :
    (letters previous parts.flatten).flatMap writtenLetter = parts.flatMap capitalise := by
  induction parts generalizing previous with
  | nil => rfl
  | cons part parts ih =>
    cases part with
    | nil => exact (filled List.mem_cons_self).elim
    | cons first later =>
      have keptHere : ∀ c ∈ first :: later, isAlphanumeric c = true := fun c mem =>
        kept c (List.mem_append_left _ mem)
      rw [List.flatten_cons, letters_append, List.flatMap_append, List.flatMap_cons,
        letters_word (begins first rfl) keptHere (noChange _ List.mem_cons_self)]
      congr 1
      apply ih (fun mem => filled (List.mem_cons_of_mem _ mem))
        (fun c mem => kept c (List.mem_append_right _ mem))
        (fun part mem => noChange part (List.mem_cons_of_mem _ mem)) changes.tail
      intro c head
      cases parts with
      | nil => cases head
      | cons next others =>
        obtain ⟨⟨_, nextFilled, change⟩, -⟩ := List.isChain_cons_cons.mp changes
        rw [← eq_head_of_flatten nextFilled head, staysInWord, Bool.not_eq_false', changesCase]
          at change
        simp [beginsWord, List.getLast?_eq_some_getLast (List.cons_ne_nil _ _), change]

theorem letters_run {run : List Char}
    (kept : ∀ c ∈ run, isAlphanumeric c = true) {previous : Option Char}
    (outside : previous.any isAlphanumeric = false) :
    (letters previous run).flatMap writtenLetter = (cutRun run).flatMap capitalise := by
  have whole : (cutRun run).flatten = run := List.flatten_splitBy _ run
  rw [← whole] at kept
  conv_lhs => rw [← whole]
  exact letters_parts (List.nil_notMem_splitBy _ run) kept
    (fun _ => List.isChain_of_mem_splitBy) (List.isChain_getLast_head_splitBy staysInWord run)
    (fun c _ => by rw [beginsWord, outside]; rfl)

/-! ## Runs -/

/-- Of two neighbours in a part both are alphanumeric or none is, so all of its characters are
like its first one. -/
theorem class_of_isChain {first : Char} {later : List Char}
    (chain : (first :: later).IsChain fun a b => alike a b = true) :
    ∀ c ∈ first :: later, isAlphanumeric c = isAlphanumeric first := by
  induction later generalizing first with
  | nil =>
    intro c mem
    rw [List.mem_singleton.mp mem]
  | cons second later ih =>
    obtain ⟨here, rest⟩ := List.isChain_cons_cons.mp chain
    intro c mem
    obtain rfl | mem := List.mem_cons.mp mem
    · rfl
    · rw [ih rest c mem, eq_of_beq here]

/-- The parts of a text are spelled one by one: a run begins a word, and what stands between runs
is left out. -/
theorem letters_runs {parts : List (List Char)} {previous : Option Char} (filled : [] ∉ parts)
    (uniform : ∀ part ∈ parts, part.IsChain fun a b => alike a b = true)
    (apart : parts.IsChain fun a b =>
      ∃ ha hb, alike (a.getLast ha) (b.head hb) = false)
    (outside : ∀ c ∈ parts.flatten.head?, isAlphanumeric c = true →
      previous.any isAlphanumeric = false) :
    (letters previous parts.flatten).flatMap writtenLetter =
      ((parts.filter isRun).flatMap cutRun).flatMap capitalise := by
  induction parts generalizing previous with
  | nil => rfl
  | cons part parts ih =>
    cases part with
    | nil => exact (filled List.mem_cons_self).elim
    | cons first later =>
      have same := class_of_isChain (uniform _ List.mem_cons_self)
      have rest := @ih ((first :: later).getLast?.or previous)
        (fun mem => filled (List.mem_cons_of_mem _ mem))
        (fun part mem => uniform part (List.mem_cons_of_mem _ mem)) apart.tail (by
          intro c head kept
          cases parts with
          | nil => cases head
          | cons next others =>
            obtain ⟨⟨ends, nextFilled, differ⟩, -⟩ := List.isChain_cons_cons.mp apart
            rw [alike, ← eq_head_of_flatten nextFilled head, kept] at differ
            simpa [List.getLast?_eq_some_getLast ends] using differ)
      rw [List.flatten_cons, letters_append, List.flatMap_append, rest]
      by_cases kept : isAlphanumeric first = true
      · have all : ∀ c ∈ first :: later, isAlphanumeric c = true := fun c mem =>
          (same c mem).trans kept
        have run : isRun (first :: later) = true := List.all_eq_true.mpr all
        rw [letters_run all (outside first rfl kept), List.filter_cons_of_pos run,
          List.flatMap_cons, List.flatMap_append]
      · have none : ∀ c ∈ first :: later, isAlphanumeric c = false := fun c mem =>
          (same c mem).trans (Bool.eq_false_iff.mpr kept)
        have noRun : ¬isRun (first :: later) = true := fun run =>
          kept (List.all_eq_true.mp run first List.mem_cons_self)
        rw [letters_outside none, List.filter_cons_of_neg noRun]
        rfl

theorem spelling_eq_wordsOf (text : String) :
    spelling text = (wordsOf text.toList).flatMap capitalise := by
  have whole := List.flatten_splitBy alike text.toList
  rw [spelling]
  conv_lhs => rw [← whole]
  exact letters_runs (List.nil_notMem_splitBy _ _) (fun _ => List.isChain_of_mem_splitBy)
    (List.isChain_getLast_head_splitBy alike text.toList) (fun _ _ _ => rfl)

theorem capitalise_ne_nil {word : List Char} (filled : word ≠ []) : capitalise word ≠ [] := by
  cases word with
  | nil => exact (filled rfl).elim
  | cons c rest =>
    rw [capitalise]
    exact List.append_ne_nil_of_left_ne_nil (capital_ne_nil c) _

theorem wordsOf_eq_nil {text : List Char} :
    wordsOf text = [] ↔ ∀ c ∈ text, isAlphanumeric c = false := by
  have cut : wordsOf text = [] ↔ runs text = [] := by
    rw [wordsOf, List.flatMap_eq_nil_iff]
    constructor
    · intro empty
      rw [List.eq_nil_iff_forall_not_mem]
      intro run mem
      have piece : run ∈ text.splitBy alike := (List.mem_filter.mp mem).1
      exact List.ne_nil_of_mem_splitBy piece (List.splitBy_eq_nil.mp (empty run mem))
    · intro none
      rw [none]
      rintro _ ⟨⟩
  rw [cut, runs, List.filter_eq_nil_iff]
  constructor
  · intro noRun c mem
    rw [← List.flatten_splitBy alike text] at mem
    obtain ⟨part, listed, inside⟩ := List.mem_flatten.mp mem
    cases part with
    | nil => cases inside
    | cons first later =>
      have same := class_of_isChain (List.isChain_of_mem_splitBy listed)
      rw [same c inside]
      apply Bool.eq_false_iff.mpr
      intro kept
      exact noRun _ listed (List.all_eq_true.mpr fun d mem => (same d mem).trans kept)
  · intro outside part listed run
    obtain ⟨c, rest, rfl⟩ := List.exists_cons_of_ne_nil (List.ne_nil_of_mem_splitBy listed)
    have inText : c ∈ text := by
      rw [← List.flatten_splitBy alike text]
      exact List.mem_flatten_of_mem listed List.mem_cons_self
    exact Bool.eq_false_iff.mp (outside c inText) (List.all_eq_true.mp run c List.mem_cons_self)

theorem pascalCase_eq_empty (text : String) :
    pascalCase text = "" ↔ ∀ c ∈ text.toList, isAlphanumeric c = false := by
  rw [← String.toList_eq_nil_iff, toList_pascalCase, spelling_eq_wordsOf, ← wordsOf_eq_nil]
  constructor
  · intro empty
    rw [List.eq_nil_iff_forall_not_mem]
    intro word mem
    obtain ⟨run, listed, piece⟩ := List.mem_flatMap.mp mem
    exact capitalise_ne_nil (List.ne_nil_of_mem_splitBy piece)
      (List.flatMap_eq_nil_iff.mp empty word mem)
  · intro none
    rw [none]
    rfl

/-! ## ASCII texts -/

theorem toLower_ascii {c : Char} (ascii : c.toNat < 128) :
    isAlphanumeric c = c.isAlphanum ∧ c.toLower.toLower = c.toLower ∧
      c.toUpper.toLower = c.toLower ∧ c.toLower.toNat < 128 ∧ c.toUpper.toNat < 128 ∧ c ≠ 'Σ' :=
  forall_ascii (motive := fun c =>
    isAlphanumeric c = c.isAlphanum ∧ c.toLower.toLower = c.toLower ∧
      c.toUpper.toLower = c.toLower ∧ c.toLower.toNat < 128 ∧ c.toUpper.toNat < 128 ∧ c ≠ 'Σ')
    (by decide +kernel) ascii

theorem lowercaseAfter_ascii {text : List Char} (ascii : ∀ c ∈ text, c.toNat < 128)
    (before : List Char) : lowercaseAfter before text = text.map Char.toLower := by
  induction text generalizing before with
  | nil => rfl
  | cons c rest ih =>
    have here : c.toNat < 128 := ascii c List.mem_cons_self
    obtain ⟨_, _, _, _, _, noSigma⟩ := toLower_ascii here
    rw [lowercaseAfter, if_neg noSigma, small_ascii here,
      ih fun d mem => ascii d (List.mem_cons_of_mem c mem)]
    rfl

theorem map_fst_letters (previous : Option Char) (text : List Char) :
    (letters previous text).map Prod.fst = text.filter isAlphanumeric := by
  induction text generalizing previous with
  | nil => rfl
  | cons c rest ih =>
    rw [letters, List.filter_cons]
    split
    · rw [List.map_cons, ih]
    · exact ih (some c)

theorem lowercase_pascalCase {text : String} (ascii : IsAscii text) :
    lowercase (pascalCase text).toList = lowercase (text.toList.filter Char.isAlphanum) := by
  have kept : text.toList.filter Char.isAlphanum = (letters none text.toList).map Prod.fst := by
    rw [map_fst_letters]
    exact List.filter_congr fun c mem => ((toLower_ascii (ascii c mem)).1).symm
  have within {letter : Char × Bool} (mem : letter ∈ letters none text.toList) :
      letter.1.toNat < 128 := ascii letter.1 (mem_of_mem_letters mem)
  have written : ∀ c ∈ (letters none text.toList).map writtenAscii, c.toNat < 128 := by
    intro c mem
    obtain ⟨letter, listed, rfl⟩ := List.mem_map.mp mem
    obtain ⟨_, _, _, lower, upper, _⟩ := toLower_ascii (within listed)
    rw [writtenAscii]
    split
    · exact upper
    · exact lower
  have plain : ∀ c ∈ (letters none text.toList).map Prod.fst, c.toNat < 128 := by
    intro c mem
    obtain ⟨letter, listed, rfl⟩ := List.mem_map.mp mem
    exact within listed
  rw [toList_pascalCase_ascii ascii, kept, lowercase, lowercase, lowercaseAfter_ascii written,
    lowercaseAfter_ascii plain, List.map_map, List.map_map]
  apply List.map_congr_left
  intro letter mem
  obtain ⟨_, lower, upper, _⟩ := toLower_ascii (within mem)
  show (writtenAscii letter).toLower = letter.1.toLower
  rw [writtenAscii]
  split
  · exact upper
  · exact lower

/-- A derived name is the words of the text, cut at all boundaries at once, each capitalised by
character. Marking the changes of case in turn finds the same words. The name is empty exactly when
nothing in the text is alphanumeric, and of an ASCII text it keeps the letters and digits, whatever
their case. -/
theorem pascalCase_of_words (text : String) :
    (pascalCase text).toList = (wordsOf text.toList).flatMap capitalise ∧
    separateCases text.toList = separateInTurn text.toList ∧
    (pascalCase text = "" ↔ ∀ c ∈ text.toList, isAlphanumeric c = false) ∧
    (IsAscii text →
      lowercase (pascalCase text).toList = lowercase (text.toList.filter Char.isAlphanum)) := by
  refine ⟨?_, (separateInTurn_eq _).symm, pascalCase_eq_empty text, lowercase_pascalCase⟩
  rw [toList_pascalCase, spelling_eq_wordsOf]

/-- Changes of case next to each other, and runs that follow one another. -/
theorem words_of_mixedText :
    wordsOf "aBcDE-7x_yZ".toList =
        ["a".toList, "Bc".toList, "DE".toList, "7x".toList, "y".toList, "Z".toList] ∧
      pascalCase "aBcDE-7x_yZ" = "ABcDe7xYZ" ∧
      lowercase (pascalCase "aBcDE-7x_yZ").toList = "abcde7xyz".toList := by
  obtain ⟨words, _, _, ascii⟩ := pascalCase_of_words "aBcDE-7x_yZ"
  have cut : wordsOf "aBcDE-7x_yZ".toList =
      ["a".toList, "Bc".toList, "DE".toList, "7x".toList, "y".toList, "Z".toList] := by
    decide +kernel
  rw [cut] at words
  refine ⟨cut, String.toList_injective (words.trans (by decide +kernel)), ?_⟩
  rw [ascii (by decide +kernel)]
  decide +kernel

end Formwright.Component
