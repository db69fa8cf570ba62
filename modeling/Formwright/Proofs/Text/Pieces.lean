import Formwright.Text.Substitution

/-!
A replacement seen as a cut of the text into what is kept, character by character, and the matches
that are found between.
-/

namespace Formwright.Text

inductive Piece
  | kept (c : Char)
  | found (text : List Char)
deriving DecidableEq, Repr

namespace Piece

def written (replace : List Char → List Char) : Piece → List Char
  | .kept c => [c]
  | .found text => replace text

def kept? : Piece → Option Char
  | .kept c => some c
  | .found _ => none

end Piece

/-- The cut of a text of which the first `skip` characters belong to a match already found. -/
def pieces (find : Matcher) : Nat → Option Char → List Char → List Piece
  | _, _, [] => []
  | skip + 1, _, c :: rest => pieces find skip (some c) rest
  | 0, previous, c :: rest =>
    match find previous (c :: rest) with
    | some (more + 1) => .found (c :: rest.take more) :: pieces find more (some c) rest
    | _ => .kept c :: pieces find 0 (some c) rest

variable (find : Matcher)

theorem replaceMatches_eq_flatMap (replacement : List Char) (skip : Nat) (previous : Option Char)
    (text : List Char) :
    replaceMatches find replacement skip previous text =
      (pieces find skip previous text).flatMap (Piece.written fun _ => replacement) := by
  fun_induction pieces find skip previous text with
  | case1 => rw [replaceMatches, List.flatMap_nil]
  | case2 previous skip c rest ih => rw [replaceMatches, ih]
  | case3 previous c rest more matched ih =>
    rw [replaceMatches, matched, List.flatMap_cons, ← ih]
    rfl
  | case4 previous c rest unmatched ih =>
    rw [replaceMatches, List.flatMap_cons, ← ih]
    split
    next more matched => exact absurd matched (unmatched more)
    next => rfl

/-- Put together again the pieces are the text. -/
theorem flatMap_pieces (skip : Nat) (previous : Option Char) (text : List Char) :
    (pieces find skip previous text).flatMap (Piece.written id) = text.drop skip := by
  fun_induction pieces find skip previous text with
  | case1 => simp
  | case2 previous skip c rest ih => rw [ih, List.drop_succ_cons]
  | case3 previous c rest more matched ih =>
    rw [List.flatMap_cons, ih]
    simp only [Piece.written, id_eq, List.cons_append, List.take_append_drop, List.drop_zero]
  | case4 previous c rest unmatched ih =>
    rw [List.flatMap_cons, ih]
    rfl

def Finds (find : Matcher) (isMatch : List Char → Prop) : Prop :=
  ∀ previous here size, find previous here = some size → isMatch (here.take size)

theorem isMatch_of_found {find : Matcher} {isMatch : List Char → Prop}
    (finds : Finds find isMatch) {skip : Nat} {previous : Option Char} {text matched : List Char}
    (mem : .found matched ∈ pieces find skip previous text) : isMatch matched := by
  fun_induction pieces find skip previous text with
  | case1 => cases mem
  | case2 previous skip c rest ih => exact ih mem
  | case3 previous c rest more success ih =>
    cases List.mem_cons.mp mem with
    | inl same =>
      injection same with same
      rw [same]
      exact finds previous (c :: rest) (more + 1) success
    | inr later => exact ih later
  | case4 previous c rest unmatched ih =>
    cases List.mem_cons.mp mem with
    | inl same => cases same
    | inr later => exact ih later

end Formwright.Text
