import Formwright.Proofs.Script.Plain
import Formwright.Proofs.Text.Pieces

/-!
What a replacement does to the reading of a script. A match takes its characters away from between
two others, so that the character after it may be read in another mode than before.
-/

namespace Formwright.Script

open Text

def firstKept (cut : List Piece) : Option Char := cut.findSome? Piece.kept?

def readings (replace : List Char → List Char) : Mode → List Piece → List Mode
  | mode, [] => [mode.next '\n']
  | mode, .kept c :: rest => mode.next c :: readings replace (mode.next c) rest
  | mode, .found text :: rest => readings replace (mode.after (replace text)) rest

/-- No match stands before a kept character that the replacement would disturb. The mode is the one
in which a match begins in the text as it was. -/
def undisturbed (disturbs : Mode → List Char → Char → Bool) : Mode → List Piece → Bool
  | _, [] => true
  | mode, .kept c :: rest => undisturbed disturbs (mode.next c) rest
  | mode, .found text :: rest =>
    !(firstKept rest).any (disturbs mode text) && undisturbed disturbs (mode.after text) rest

/-- What a match leaves behind for the character after it, and for the matches that follow without
a kept character between: they leave both modes as they are. -/
structure Detects (replace : List Char → List Char) (disturbs : Mode → List Char → Char → Bool)
    (isMatch : List Char → Prop) : Prop where
  detects {text : List Char} (matched : isMatch text) (mode : Mode) (c : Char) :
    (mode.after text).next c = (mode.after (replace text)).next c ↔ disturbs mode text c = false
  lineFeed (mode : Mode) (text : List Char) : disturbs mode text '\n' = false
  settles {text later : List Char} (matched : isMatch text) (follows : isMatch later)
    (mode : Mode) :
    mode.after text = mode.after (replace text) ∨
      (mode.after text).after later = mode.after text ∧
        (mode.after text).after (replace later) = mode.after text ∧
        (mode.after (replace text)).after (replace later) = mode.after (replace text)

variable {replace : List Char → List Char} {disturbs : Mode → List Char → Char → Bool}
  {isMatch : List Char → Prop}

theorem firstKept_kept (c : Char) (rest : List Piece) : firstKept (.kept c :: rest) = some c := rfl

theorem firstKept_found (text : List Char) (rest : List Piece) :
    firstKept (.found text :: rest) = firstKept rest := rfl

theorem undisturbed_found (mode : Mode) (text : List Char) (rest : List Piece) :
    undisturbed disturbs mode (.found text :: rest) = true ↔
      (∀ c ∈ firstKept rest, disturbs mode text c = false) ∧
        undisturbed disturbs (mode.after text) rest = true := by
  rw [undisturbed]
  cases firstKept rest <;> simp

/-- Behind a match whose modes differ the readings meet again at the next kept character, or never:
the matches before that character leave both modes as they are. -/
theorem readings_alike (detection : Detects replace disturbs isMatch) (cut : List Piece)
    (all : ∀ text, .found text ∈ cut → isMatch text) :
    (∀ mode, readings id mode cut = readings replace mode cut ↔
      undisturbed disturbs mode cut = true) ∧
    ∀ text mode, isMatch text → mode.after text ≠ mode.after (replace text) →
      (readings id (mode.after text) cut = readings replace (mode.after (replace text)) cut ↔
        (∀ c ∈ firstKept cut, disturbs mode text c = false) ∧
          undisturbed disturbs (mode.after text) cut = true) := by
  -- One induction for both: a match leads from the first to the second if its modes differ, and a
  -- kept character leads back.
  induction cut with
  | nil =>
    refine ⟨fun mode => by simp [readings, undisturbed], ?_⟩
    intro text mode matched _
    have meets := (detection.detects matched mode '\n').mpr (detection.lineFeed mode text)
    simp [readings, undisturbed, firstKept, meets]
  | cons piece rest ih =>
    obtain ⟨same, differing⟩ := ih fun text mem => all text (List.mem_cons_of_mem _ mem)
    cases piece with
    | kept c =>
      constructor
      next =>
        intro mode
        rw [readings, readings, undisturbed, List.cons.injEq, ← same]
        exact and_iff_right rfl
      next =>
        intro text mode matched _
        have detects := detection.detects matched mode c
        simp only [readings, undisturbed, firstKept_kept, List.cons.injEq, Option.mem_some_iff,
          forall_eq']
        rw [detects]
        apply and_congr_right
        intro calm
        rw [← detects.mpr calm]
        exact same _
    | found later =>
      have follows : isMatch later := all later List.mem_cons_self
      constructor
      next =>
        intro mode
        rw [readings, readings, undisturbed_found, id_eq]
        by_cases alike : mode.after later = mode.after (replace later)
        next =>
          have calm (c : Char) : disturbs mode later c = false :=
            (detection.detects follows mode c).mp (by rw [alike])
          rw [← alike, same]
          simp only [calm, implies_true, true_and]
        next => exact differing later mode follows alike
      next =>
        intro text mode matched differ
        obtain ⟨first, second, third⟩ :=
          (detection.settles matched follows mode).resolve_left differ
        have calm (c : Char) : disturbs (mode.after text) later c = false :=
          (detection.detects follows _ c).mp (by rw [first, second])
        rw [readings, readings, undisturbed_found, firstKept_found, third, id_eq, first,
          differing text mode matched differ]
        simp only [calm, implies_true, true_and]

/-- Every kept character is read alike exactly when no match disturbs the one after it. -/
theorem readings_eq_iff (detection : Detects replace disturbs isMatch) {cut : List Piece}
    (all : ∀ text, .found text ∈ cut → isMatch text) (mode : Mode) :
    readings id mode cut = readings replace mode cut ↔ undisturbed disturbs mode cut = true :=
  (readings_alike detection cut all).1 mode

/-- Texts read alike have the same braces and end in the same mode. -/
theorem braces_of_readings {cut : List Piece} {mode start : Mode}
    (same : readings id mode cut = readings replace start cut)
    (plain : ∀ text, .found text ∈ cut →
      (∀ c ∈ text, isPlain c = true) ∧ ∀ c ∈ replace text, isPlain c = true) :
    mode.braces (cut.flatMap (Piece.written id)) =
        start.braces (cut.flatMap (Piece.written replace)) ∧
      (mode.after (cut.flatMap (Piece.written id))).next '\n' =
        (start.after (cut.flatMap (Piece.written replace))).next '\n' := by
  induction cut generalizing mode start with
  | nil =>
    injection same with same
    exact ⟨rfl, same⟩
  | cons piece rest ih =>
    have ih {mode start : Mode} (same : readings id mode rest = readings replace start rest) :=
      ih same fun text mem => plain text (List.mem_cons_of_mem _ mem)
    rw [List.flatMap_cons, List.flatMap_cons]
    cases piece with
    | kept c =>
      injection same with head tail
      obtain ⟨braces, ends⟩ := ih tail
      refine ⟨?_, ends⟩
      simp only [Piece.written, List.singleton_append]
      rw [Mode.braces_cons, Mode.braces_cons, braces]
      by_cases brace : c = '{' ∨ c = '}'
      next =>
        have reads : mode.readsCode = start.readsCode := by
          rw [← Mode.readsCode_next brace, head, Mode.readsCode_next brace]
        rw [reads]
      next => rw [if_neg (fun both => brace both.2), if_neg (fun both => brace both.2)]
    | found text =>
      obtain ⟨before, behind⟩ := plain text List.mem_cons_self
      obtain ⟨braces, ends⟩ := ih same
      rw [Mode.braces_append, Mode.braces_append, Mode.after_append, Mode.after_append]
      refine ⟨?_, ends⟩
      show mode.braces text ++ _ = start.braces (replace text) ++ _
      rw [Mode.braces_of_plain before, Mode.braces_of_plain behind]
      exact braces

end Formwright.Script
