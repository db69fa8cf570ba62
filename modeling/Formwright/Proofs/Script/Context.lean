import Formwright.Proofs.Script.Cleanup
import Formwright.Proofs.Text.Replacement

/-!
The context prefix in a cleaned body. None is left, and none comes about when what stood around a
match moves together: matches begin where a word begins, so that the letters of a prefix that is
found afterwards stood side by side before.
-/

namespace Formwright.Script

open Text

def NoContext (previous : Option Char) (text : List Char) : Prop :=
  ∀ before after, text = before ++ after → contextWord (before.getLast?.or previous) after = none

theorem contextWord_eq_none {previous : Option Char} {text : List Char} :
    contextWord previous text = none ↔
      (atWordStart previous = true → ¬contextText <+: text) := by
  rw [contextWord, ← List.isPrefixOf_iff_prefix]
  cases atWordStart previous <;> simp

theorem noContext_nil (previous : Option Char) : NoContext previous [] := by
  intro before after split
  rw [(List.append_eq_nil_iff.mp split.symm).2, contextWord_eq_none]
  exact fun _ starts => absurd (List.prefix_nil.mp starts) (by decide)

theorem noContext_cons {previous : Option Char} {c : Char} {rest : List Char} :
    NoContext previous (c :: rest) ↔
      contextWord previous (c :: rest) = none ∧ NoContext (some c) rest := by
  constructor
  · intro free
    refine ⟨free [] (c :: rest) rfl, fun before after split => ?_⟩
    rw [← getLast?_cons_or]
    exact free (c :: before) after (by rw [split, List.cons_append])
  · rintro ⟨here, below⟩ before after split
    cases before with
    | nil =>
      cases split
      exact here
    | cons first before =>
      obtain ⟨rfl, behind⟩ := List.cons.inj split
      rw [getLast?_cons_or]
      exact below before after behind

/-- A text without the first letter of the prefix, in front of one where no prefix begins. -/
theorem noContext_append {previous : Option Char} {first second : List Char} (letters : 't' ∉ first)
    (free : NoContext (first.getLast?.or previous) second) :
    NoContext previous (first ++ second) := by
  induction first generalizing previous with
  | nil => exact free
  | cons c first ih =>
    obtain ⟨other, letters⟩ := not_or.mp (mt List.mem_cons.mpr letters)
    rw [getLast?_cons_or] at free
    refine noContext_cons.mpr ⟨contextWord_eq_none.mpr fun _ starts => ?_, ih letters free⟩
    exact other (List.cons_prefix_cons.mp starts).1

/-! ## Replacing at the beginning of words -/

/-- A replacement that cannot put the letters of a prefix together: it begins where a word begins,
writes no such letter, and ends inside of a word unless what it replaces ends outside of one. -/
structure KeepsApart (find : Matcher) (replacement : List Char) : Prop where
  starts : ∀ {previous text size}, find previous text = some size → atWordStart previous = true
  letters : 't' ∉ replacement
  ends : ∀ {previous text size}, find previous text = some (size + 1) → ∀ shown,
    atWordStart (replacement.getLast?.or shown) = true →
      atWordStart ((text.take (size + 1)).getLast?.or previous) = true

def Covers (find : Matcher) (previous : Option Char) (text : List Char) : Prop :=
  ∀ before after, text = before ++ after →
    contextWord (before.getLast?.or previous) after = none ∨
      ∃ size, find (before.getLast?.or previous) after = some (size + 1)

theorem covers_of_append {find : Matcher} {previous : Option Char} (first : List Char)
    {second : List Char} (covers : Covers find previous (first ++ second)) :
    Covers find (first.getLast?.or previous) second := by
  intro before after split
  have joined : (first ++ before).getLast?.or previous =
      before.getLast?.or (first.getLast?.or previous) := by
    rw [List.getLast?_append, Option.or_assoc]
  rw [← joined]
  exact covers (first ++ before) after (by rw [split, List.append_assoc])

section

variable {find : Matcher} {replacement : List Char}

variable (apart : KeepsApart find replacement)

include apart

/-- Inside of a word nothing is replaced. -/
theorem replaceMatches_inside {c : Char} (word : isWordCharacter c = true) (d : Char)
    (rest : List Char) :
    replaceMatches find replacement 0 (some c) (d :: rest) =
      d :: replaceMatches find replacement 0 (some d) rest := by
  rw [replaceMatches]
  split
  next size found =>
    have starts := apart.starts found
    rw [atWordStart, Option.any_some, word] at starts
    cases starts
  next => rfl

/-- What is read behind a word character, up to the end of its word, was there before. -/
theorem prefix_of_replaceMatches {word : List Char} (all : ∀ c ∈ word, isWordCharacter c = true)
    {c : Char} (first : isWordCharacter c = true) {last : Char} {rest : List Char}
    (read : word ++ [last] <+: replaceMatches find replacement 0 (some c) rest) :
    word ++ [last] <+: rest := by
  induction word generalizing c rest with
  | nil =>
    cases rest with
    | nil => exact read
    | cons d rest =>
      rw [replaceMatches_inside apart first] at read
      exact List.cons_prefix_cons.mpr ⟨(List.cons_prefix_cons.mp read).1, List.nil_prefix⟩
  | cons letter word ih =>
    obtain ⟨here, later⟩ := List.forall_mem_cons.mp all
    cases rest with
    | nil => exact read
    | cons d rest =>
      rw [replaceMatches_inside apart first] at read
      obtain ⟨rfl, read⟩ := List.cons_prefix_cons.mp read
      exact List.cons_prefix_cons.mpr ⟨rfl, ih later here read⟩

/-- So a prefix that is read was there before. -/
theorem prefix_of_replaced {c : Char} {rest : List Char}
    (read : contextText <+: c :: replaceMatches find replacement 0 (some c) rest) :
    contextText <+: c :: rest := by
  obtain ⟨rfl, read⟩ := List.cons_prefix_cons.mp read
  have letters : ∀ c ∈ ['h', 'i', 's'], isWordCharacter c = true :=
    List.forall_mem_cons.mpr ⟨by decide, List.forall_mem_cons.mpr
      ⟨by decide, List.forall_mem_singleton.mpr (by decide)⟩⟩
  exact List.cons_prefix_cons.mpr
    ⟨rfl, prefix_of_replaceMatches apart letters (by decide) read⟩

/-- If every prefix is matched, none begins in what is written. Where a word may begin behind what
is written, one may begin behind what stood there. -/
theorem noContext_replaceMatches {previous shown : Option Char} (text : List Char)
    (seen : atWordStart shown = true → atWordStart previous = true)
    (covers : Covers find previous text) :
    NoContext shown (replaceMatches find replacement 0 previous text) := by
  cases text with
  | nil => exact noContext_nil shown
  | cons c rest =>
    rw [replaceMatches]
    split
    next size found =>
      have whole : c :: rest = (c :: rest).take (size + 1) ++ (c :: rest).drop (size + 1) :=
        (List.take_append_drop ..).symm
      rw [replaceMatches_skip, ← getLast?_cons_or, ← List.take_succ_cons]
      apply noContext_append apart.letters
      apply noContext_replaceMatches
      · exact apart.ends found shown
      · rw [whole] at covers
        exact covers_of_append _ covers
    next unmatched =>
      refine noContext_cons.mpr ⟨contextWord_eq_none.mpr fun starts read => ?_, ?_⟩
      · obtain free | ⟨size, found⟩ := covers [] (c :: rest) rfl
        · exact contextWord_eq_none.mp free (seen starts) (prefix_of_replaced apart read)
        · exact unmatched size found
      · apply noContext_replaceMatches rest id
        exact covers_of_append [c] covers
termination_by text.length

end

/-! ## The three replacements -/

theorem erasure_keepsApart : KeepsApart contextWord [] where
  starts := by
    intro previous text size found
    rw [contextWord] at found
    split at found
    next here => exact (Bool.and_eq_true_iff.mp here).1
    next => cases found
  letters := List.not_mem_nil
  ends := by
    intro previous text size found shown _
    have last : contextText.getLast? = some '.' := by
      decide
    rw [contextWord_finds previous text (size + 1) found, last, Option.some_or]
    decide

/-- A name that ends inside of a word, in place of what a matcher finds. -/
theorem annotation_keepsApart {find : Matcher} {name : List Char} (letters : 't' ∉ name)
    (word : ∃ c, name.getLast? = some c ∧ isWordCharacter c = true)
    (starts : ∀ {previous text size}, find previous text = some size →
      atWordStart previous = true) : KeepsApart find name where
  starts := starts
  letters := letters
  ends := by
    intro previous text size found shown begins
    obtain ⟨c, last, inside⟩ := word
    rw [last, Option.some_or, atWordStart, Option.any_some, inside] at begins
    cases begins

theorem objectAnnotation_keepsApart : KeepsApart objectAnnotation "obj".toList :=
  annotation_keepsApart (by decide) ⟨'j', rfl, by decide⟩ fun found => by
    unfold objectAnnotation at found
    split at found
    next begins => exact begins
    next => cases found

theorem eventAnnotation_keepsApart : KeepsApart eventAnnotation ['e'] :=
  annotation_keepsApart (by decide) ⟨'e', rfl, by decide⟩ fun found => by
    unfold eventAnnotation at found
    split at found
    next begins => exact begins
    next => cases found

/-- A text without a prefix is written without one. -/
theorem noContext_kept {find : Matcher} {replacement text : List Char}
    (apart : KeepsApart find replacement) (free : NoContext none text) :
    NoContext none (replaceMatches find replacement 0 none text) :=
  noContext_replaceMatches apart text id fun before after split => .inl (free before after split)

theorem noContext_bareBody (body : List Char) : NoContext none (bareBody body) := by
  apply noContext_replaceMatches erasure_keepsApart body id
  intro before after _
  cases found : contextWord (before.getLast?.or none) after with
  | none => exact .inl rfl
  | some size =>
    rw [contextWord] at found
    split at found
    next => exact .inr ⟨4, (Option.some.inj found ▸ rfl)⟩
    next => cases found

/-- Where no prefix begins, nothing is erased. -/
theorem replaceMatches_bare {previous : Option Char} {text : List Char}
    (free : NoContext previous text) : replaceMatches contextWord [] 0 previous text = text := by
  induction text generalizing previous with
  | nil => rfl
  | cons c rest ih =>
    obtain ⟨here, below⟩ := noContext_cons.mp free
    rw [replaceMatches, here]
    exact congrArg (c :: ·) (ih below)

/-- Every prefix that is left is the end of a longer word. -/
def IsBare (text : List Char) : Prop :=
  ∀ before after, text = before ++ contextText ++ after →
    ∃ c, before.getLast? = some c ∧ isWordCharacter c = true

theorem isBare_iff {text : List Char} : IsBare text ↔ NoContext none text := by
  constructor
  · intro bare before after split
    rw [contextWord_eq_none, Option.or_none]
    rintro begins ⟨later, rfl⟩
    obtain ⟨c, last, inside⟩ := bare before later (by rw [split, List.append_assoc])
    rw [last, atWordStart, Option.any_some, inside] at begins
    cases begins
  · intro bare before after split
    have free := bare before (contextText ++ after) (by rw [split, List.append_assoc])
    rw [contextWord_eq_none, Option.or_none] at free
    have inside : atWordStart before.getLast? = false :=
      Bool.eq_false_iff.mpr fun begins => free begins (List.prefix_append _ _)
    rw [atWordStart, Bool.not_eq_false', Option.any_eq_true] at inside
    exact inside

/-- A cleaned body is free of the context prefix: where one can be read, it is the end of a longer
word. The prefix is gone once it is erased, however often it was repeated, and the other two
replacements bring none back; so erasing it again changes nothing. It is erased from every body that
is not free of it. -/
theorem context_is_removed (body : List Char) :
    IsBare (bareBody body) ∧ IsBare (plainBody body) ∧ IsBare (cleanBody body) ∧
      bareBody (cleanBody body) = cleanBody body ∧ (bareBody body = body ↔ IsBare body) := by
  have bare := noContext_bareBody body
  have plain : NoContext none (plainBody body) := noContext_kept objectAnnotation_keepsApart bare
  have clean : NoContext none (cleanBody body) := noContext_kept eventAnnotation_keepsApart plain
  refine ⟨isBare_iff.mpr bare, isBare_iff.mpr plain, isBare_iff.mpr clean,
    replaceMatches_bare clean, ?_, ?_⟩
  · intro same
    rw [← same]
    exact isBare_iff.mpr bare
  · intro free
    exact replaceMatches_bare (isBare_iff.mp free)

example : cleanBody "this.this.x(athis.y, obj: Button)".toList = "x(athis.y, obj)".toList := by
  decide +kernel

end Formwright.Script
