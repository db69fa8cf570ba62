import Formwright.Proofs.Script.Matches
import Formwright.Proofs.Script.Readings

/-!
When the cleaning of a handler body leaves its blocks as they are. The prefix that is erased may
part two characters that mean something together, and an annotation may hold the line feed that
ends a line comment.
-/

namespace Formwright.Script

open Text

def completes (mode : Mode) (_ : List Char) (c : Char) : Bool := mode.catches c

def unendsLine (mode : Mode) (text : List Char) (c : Char) : Bool :=
  mode = .lineComment && text.contains '\n' && c != '\n'

theorem after_contextText (mode : Mode) : mode.after contextText = mode.settled :=
  Mode.after_plain_cons (plain_of_all (by decide)) (fun _ => by decide)

theorem erasure_detects : Detects (fun _ => []) completes (· = contextText) where
  detects := by
    intro text matched mode c
    rw [matched, after_contextText]
    exact Mode.next_settled mode c
  lineFeed mode _ := mode.catches_lineFeed
  settles := by
    intro text later matched follows mode
    rw [matched, follows, after_contextText, after_contextText]
    exact .inr ⟨mode.settled_settled, rfl, rfl⟩

section Annotation

variable {name : List Char} (named : name ≠ []) (plain : ∀ c ∈ name, isPlain c = true)
  (oneLine : '\n' ∉ name)

include named plain oneLine

theorem after_name (mode : Mode) : mode.after name = mode.settled := by
  cases name with
  | nil => exact absurd rfl named
  | cons c rest => exact Mode.after_plain_cons plain fun _ => oneLine

/-- Behind an annotation the mode is the one behind its name, unless a line comment has ended. -/
theorem after_annotated {text : List Char} (annotates : Annotates name text) (mode : Mode) :
    mode.after text = if mode = .lineComment ∧ '\n' ∈ text then .code else mode.settled := by
  obtain ⟨added, rfl, plainAdded⟩ := annotates
  have inside : '\n' ∈ name ++ added ↔ '\n' ∈ added := by
    rw [List.mem_append]
    exact or_iff_right oneLine
  rw [Mode.after_append, after_name named plain oneLine]
  simp only [inside]
  split
  next ends =>
    rw [ends.1]
    exact Mode.after_plain_lineFeed plainAdded ends.2
  next goesOn =>
    apply Mode.after_plain plainAdded mode.settled_settled
    intro settled lineFeed
    exact goesOn ⟨Mode.eq_of_settled_lineComment settled, lineFeed⟩

theorem annotation_detects : Detects (fun _ => name) unendsLine (Annotates name) where
  detects := by
    intro text matched mode c
    rw [after_annotated named plain oneLine matched, after_name named plain oneLine]
    split
    next ends =>
      have calm : unendsLine mode text c = false ↔ c = '\n' := by
        simp [unendsLine, ends.1, ends.2]
      rw [calm, ends.1]
      exact Mode.next_lineComment_alike c
    next goesOn =>
      have calm : unendsLine mode text c = false := by
        rw [unendsLine, Bool.and_eq_false_iff, Bool.and_eq_false_iff, decide_eq_false_iff_not]
        by_cases line : mode = .lineComment
        next =>
          have noFeed : '\n' ∉ text := fun mem => goesOn ⟨line, mem⟩
          exact .inl (.inr (by simpa using noFeed))
        next => exact .inl (.inl line)
      exact iff_of_true rfl calm
  lineFeed mode text := by simp [unendsLine]
  settles := by
    intro text later matched follows mode
    rw [after_annotated named plain oneLine matched, after_name named plain oneLine]
    split
    next ends =>
      right
      rw [after_annotated named plain oneLine follows, after_name named plain oneLine,
        after_name named plain oneLine, ends.1]
      exact ⟨rfl, rfl, rfl⟩
    next => exact .inl rfl

end Annotation

variable {find : Matcher} {replacement : List Char} {disturbs : Mode → List Char → Char → Bool}
  {isMatch : List Char → Prop}

/-- Every character that a replacement keeps is read as before. -/
def KeepsReading (find : Matcher) (replacement text : List Char) : Prop :=
  readings id .code (pieces find 0 none text) =
    readings (fun _ => replacement) .code (pieces find 0 none text)

/-- Whether it does can be told from the matches. -/
theorem keepsReading_iff (detection : Detects (fun _ => replacement) disturbs isMatch)
    (finds : Finds find isMatch) (text : List Char) :
    KeepsReading find replacement text ↔
      undisturbed disturbs .code (pieces find 0 none text) = true := by
  apply readings_eq_iff detection
  intro matched mem
  exact isMatch_of_found finds mem

theorem closesAfter_replaceMatches {text : List Char} (finds : Finds find isMatch)
    (plainMatch : ∀ matched, isMatch matched → ∀ c ∈ matched, isPlain c = true)
    (plainReplacement : ∀ c ∈ replacement, isPlain c = true)
    (keeps : KeepsReading find replacement text) :
    closesAfter (replaceMatches find replacement 0 none text ++ ['\n']) =
      closesAfter (text ++ ['\n']) := by
  have plain : ∀ matched, .found matched ∈ pieces find 0 none text →
      (∀ c ∈ matched, isPlain c = true) ∧ ∀ c ∈ replacement, isPlain c = true := by
    intro matched mem
    exact ⟨plainMatch matched (isMatch_of_found finds mem), plainReplacement⟩
  obtain ⟨braces, ends⟩ := braces_of_readings keeps plain
  rw [flatMap_pieces, List.drop_zero, ← replaceMatches_eq_flatMap] at braces ends
  apply Bool.eq_iff_iff.mpr
  rw [closesAfter_line_iff, closesAfter_line_iff, braces, ends]

def bareBody (body : List Char) : List Char := replaceMatches contextWord [] 0 none body

def plainBody (body : List Char) : List Char :=
  replaceMatches objectAnnotation "obj".toList 0 none (bareBody body)

/-- No prefix stands between two characters that mean something together, and no annotation draws
what follows it into a line comment. -/
def cleansSafely (body : List Char) : Bool :=
  undisturbed completes .code (pieces contextWord 0 none body) &&
    undisturbed unendsLine .code (pieces objectAnnotation 0 none (bareBody body)) &&
    undisturbed unendsLine .code (pieces eventAnnotation 0 none (plainBody body))

/-- The condition is exact: it says that every character that is left is read as it was. -/
theorem cleansSafely_iff (body : List Char) :
    cleansSafely body = true ↔
      KeepsReading contextWord [] body ∧
        KeepsReading objectAnnotation "obj".toList (bareBody body) ∧
        KeepsReading eventAnnotation ['e'] (plainBody body) := by
  have context := keepsReading_iff erasure_detects contextWord_finds body
  have object := keepsReading_iff
    (annotation_detects (by decide) (plain_of_all (by decide)) (by decide))
    objectAnnotation_finds (bareBody body)
  have event := keepsReading_iff
    (annotation_detects (by decide) (plain_of_all (by decide)) (by decide))
    eventAnnotation_finds (plainBody body)
  rw [context, object, event, cleansSafely, Bool.and_eq_true_iff, Bool.and_eq_true_iff, and_assoc]

theorem plain_of_annotates {name text : List Char} (plain : ∀ c ∈ name, isPlain c = true)
    (annotates : Annotates name text) : ∀ c ∈ text, isPlain c = true := by
  obtain ⟨added, rfl, plainAdded⟩ := annotates
  intro c mem
  cases List.mem_append.mp mem with
  | inl mem => exact plain c mem
  | inr mem => exact plainAdded c mem

/-- A body that is cleaned safely closes its block where it did. -/
theorem closesAfter_cleanBody {body : List Char} (safe : cleansSafely body = true) :
    closesAfter (cleanBody body ++ ['\n']) = closesAfter (body ++ ['\n']) := by
  obtain ⟨context, object, event⟩ := (cleansSafely_iff body).mp safe
  have plainPrefix : ∀ matched, matched = contextText → ∀ c ∈ matched, isPlain c = true := by
    intro matched same
    rw [same]
    exact plain_of_all (by decide)
  have bare : closesAfter (bareBody body ++ ['\n']) = closesAfter (body ++ ['\n']) :=
    closesAfter_replaceMatches contextWord_finds plainPrefix (plain_of_all (by decide)) context
  have plain : closesAfter (plainBody body ++ ['\n']) = closesAfter (bareBody body ++ ['\n']) :=
    closesAfter_replaceMatches objectAnnotation_finds
      (fun _ => plain_of_annotates (plain_of_all (by decide))) (plain_of_all (by decide)) object
  have clean : closesAfter (cleanBody body ++ ['\n']) = closesAfter (plainBody body ++ ['\n']) :=
    closesAfter_replaceMatches eventAnnotation_finds
      (fun _ => plain_of_annotates (plain_of_all (by decide))) (plain_of_all (by decide)) event
  rw [clean, plain, bare]

end Formwright.Script
