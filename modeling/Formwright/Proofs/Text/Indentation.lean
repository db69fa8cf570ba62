import Formwright.Text.Columns

/-!
Indentation moves lines and does not look into them. A part of a text that stands on one line is
the same before and after, and so is everything around it.
-/

namespace Formwright.Text

def OneLine (part : List Char) : Prop := part ≠ [] ∧ '\n' ∉ part ∧ '\r' ∉ part

def indent (leads : List (List Char)) (text : List Char) : List Char := leads.foldl shiftRight text

theorem joinLines_first (later : List (List Char)) :
    ∃ behind, ∀ line, joinLines (line :: later) = line ++ behind := by
  cases later with
  | nil => exact ⟨[], fun line => by simp [joinLines]⟩
  | cons next later => exact ⟨'\n' :: joinLines (next :: later), fun _ => rfl⟩

theorem joinLines_around (earlier later : List (List Char)) :
    ∃ before behind, ∀ line, joinLines (earlier ++ line :: later) = before ++ line ++ behind := by
  induction earlier with
  | nil =>
    obtain ⟨behind, joined⟩ := joinLines_first later
    exact ⟨[], behind, joined⟩
  | cons first earlier ih =>
    obtain ⟨before, behind, joined⟩ := ih
    refine ⟨first ++ '\n' :: before, behind, fun line => ?_⟩
    have split : joinLines (first :: earlier ++ line :: later) =
        first ++ '\n' :: joinLines (earlier ++ line :: later) := by
      cases earlier with
      | nil => rfl
      | cons second earlier => rfl
    rw [split, joined]
    simp only [List.append_assoc, List.cons_append]

theorem linesAfter_run (line : List Char) {run : List Char} (noFeed : '\n' ∉ run)
    (behind : List Char) :
    linesAfter line (run ++ behind) = linesAfter (run.reverse ++ line) behind := by
  induction run generalizing line with
  | nil => rfl
  | cons c run ih =>
    have other : c ≠ '\n' := fun same => noFeed (same ▸ List.mem_cons_self)
    have noneLater : '\n' ∉ run := fun mem => noFeed (List.mem_cons_of_mem _ mem)
    rw [List.cons_append, linesAfter, if_neg other, ih (c :: line) noneLater, List.reverse_cons,
      List.append_assoc]
    rfl

/-- What stands before in a text are whole lines and the start of one. -/
theorem linesAfter_append (start before : List Char) :
    ∃ earlier line, ∀ text,
      linesAfter start (before ++ text) = earlier ++ linesAfter line text := by
  induction before generalizing start with
  | nil => exact ⟨[], start, fun _ => rfl⟩
  | cons c before ih =>
    by_cases feed : c = '\n'
    · obtain ⟨earlier, line, split⟩ := ih []
      refine ⟨(dropReturn start).reverse :: earlier, line, fun text => ?_⟩
      rw [List.cons_append, linesAfter, if_pos feed, split, List.cons_append]
    · obtain ⟨earlier, line, split⟩ := ih (c :: start)
      refine ⟨earlier, line, fun text => ?_⟩
      rw [List.cons_append, linesAfter, if_neg feed, split]

theorem dropReturn_append (after : List Char) {line : List Char}
    (noReturn : line.head? ≠ some '\r') :
    dropReturn (after ++ line) = dropReturn after ++ line := by
  cases after with
  | nil =>
    cases line with
    | nil => rfl
    | cons c line =>
      have other : c ≠ '\r' := fun same => noReturn (congrArg some same)
      simp [dropReturn, other]
  | cons c after =>
    by_cases same : c = '\r'
    · rw [same]
      rfl
    · simp [dropReturn, same]

/-- A line that has begun with a part on one line is finished, whatever that part is. -/
theorem linesAfter_finish (after behind : List Char) :
    ∃ tail later, ∀ line, line ≠ [] → line.head? ≠ some '\r' →
      linesAfter (after ++ line) behind = (line.reverse ++ tail) :: later := by
  induction behind generalizing after with
  | nil =>
    refine ⟨after.reverse, [], fun line filled _ => ?_⟩
    have begun : ¬(after ++ line).isEmpty = true := by simp [filled]
    rw [linesAfter, if_neg begun, List.reverse_append]
  | cons c behind ih =>
    by_cases feed : c = '\n'
    · refine ⟨(dropReturn after).reverse, linesAfter [] behind, fun line _ noReturn => ?_⟩
      rw [linesAfter, if_pos feed, dropReturn_append after noReturn, List.reverse_append]
    · obtain ⟨tail, later, finish⟩ := ih (c :: after)
      refine ⟨tail, later, fun line filled noReturn => ?_⟩
      rw [linesAfter, if_neg feed]
      exact finish line filled noReturn

theorem linesAfter_part (behind : List Char) :
    ∃ tail later, ∀ line part, OneLine part →
      linesAfter line (part ++ behind) = (line.reverse ++ part ++ tail) :: later := by
  obtain ⟨tail, later, finish⟩ := linesAfter_finish [] behind
  refine ⟨tail, later, fun line part single => ?_⟩
  obtain ⟨filled, noFeed, noReturn⟩ := single
  have begun : part.reverse ++ line ≠ [] := by simp [filled]
  have ends : (part.reverse ++ line).head? ≠ some '\r' := by
    intro last
    rw [List.head?_append, List.head?_reverse, List.getLast?_eq_some_getLast filled] at last
    have same : part.getLast filled = '\r' := Option.some.inj last
    exact noReturn (same ▸ List.getLast_mem filled)
  rw [linesAfter_run line noFeed, ← List.nil_append (part.reverse ++ line),
    finish _ begun ends, List.reverse_append, List.reverse_reverse]

theorem lines_single {line : List Char} (filled : line ≠ []) (noFeed : '\n' ∉ line) :
    lines line = [line] := by
  have begun : ¬line.reverse.isEmpty = true := by simpa using filled
  have whole := linesAfter_run [] noFeed []
  rw [List.append_nil, List.append_nil] at whole
  rw [lines, whole, linesAfter, if_neg begun, List.reverse_reverse]

theorem shiftLine_filled {line : List Char} (filled : line ≠ []) (lead : List Char) :
    shiftLine lead line = lead ++ line :=
  if_neg fun empty => filled (List.isEmpty_iff.mp empty)

theorem shiftRight_oneLine {part : List Char} (single : OneLine part) (lead : List Char) :
    shiftRight part lead = lead ++ part := by
  rw [shiftRight, lines_single single.1 single.2.1, List.map_cons, shiftLine_filled single.1]
  simp [joinLines]

theorem shiftRight_first (behind lead : List Char) :
    ∃ after, ∀ part, OneLine part →
      shiftRight (part ++ behind) lead = lead ++ part ++ after := by
  obtain ⟨tail, later, split⟩ := linesAfter_part behind
  obtain ⟨rest, joined⟩ := joinLines_first (later.map (shiftLine lead))
  refine ⟨tail ++ rest, fun part single => ?_⟩
  have filled : part ++ tail ≠ [] := by simp [single.1]
  rw [shiftRight, lines, split [] part single, List.reverse_nil, List.nil_append, List.map_cons,
    shiftLine_filled filled, joined]
  simp only [List.append_assoc]

theorem shiftRight_around (before behind lead : List Char) :
    ∃ front after, ∀ part, OneLine part →
      shiftRight (before ++ part ++ behind) lead = front ++ part ++ after := by
  obtain ⟨earlier, line, splitBefore⟩ := linesAfter_append [] before
  obtain ⟨tail, later, splitBehind⟩ := linesAfter_part behind
  obtain ⟨front, after, joined⟩ :=
    joinLines_around (earlier.map (shiftLine lead)) (later.map (shiftLine lead))
  refine ⟨front ++ lead ++ line.reverse, tail ++ after, fun part single => ?_⟩
  have filled : line.reverse ++ part ++ tail ≠ [] := by simp [single.1]
  rw [shiftRight, lines, List.append_assoc, splitBefore, splitBehind line part single,
    List.map_append, List.map_cons, shiftLine_filled filled, joined]
  simp only [List.append_assoc]

/-- However often a text is indented, a part on one line and what surrounds it do not depend on each
other. -/
theorem indent_around (leads : List (List Char)) (before behind : List Char) :
    ∃ front after, ∀ part, OneLine part →
      indent leads (before ++ part ++ behind) = front ++ part ++ after := by
  induction leads generalizing before behind with
  | nil => exact ⟨before, behind, fun _ _ => rfl⟩
  | cons lead leads ih =>
    obtain ⟨front, after, shifted⟩ := shiftRight_around before behind lead
    obtain ⟨first, last, indented⟩ := ih front after
    refine ⟨first, last, fun part single => ?_⟩
    rw [indent, List.foldl_cons, shifted part single]
    exact indented part single

end Formwright.Text
