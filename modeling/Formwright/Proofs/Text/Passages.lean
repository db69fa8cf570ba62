import Formwright.Proofs.Text.Shifting
import Mathlib.Data.List.Infix

/-!
Indentation of texts over several lines. Where every line ends with a line feed alone, indentation
moves the lines and keeps all else, so that two indentations are one. A text inside of another one
is moved apart from what surrounds it.
-/

namespace Formwright.Text

/-! ## Lines and their shifts -/

structure LineFed (text : List Char) : Prop where
  noPair : ¬['\r', '\n'] <:+: text
  noEnd : text.getLast? ≠ some '\n'

theorem joinLines_singleton (line : List Char) : joinLines [line] = line := by simp [joinLines]

theorem joinLines_next (line : List Char) {later : List (List Char)} (filled : later ≠ []) :
    joinLines (line :: later) = line ++ '\n' :: joinLines later := by
  obtain ⟨next, later, rfl⟩ := List.exists_cons_of_ne_nil filled
  rfl

theorem joinLines_append {first second : List (List Char)} (filledFirst : first ≠ [])
    (filledSecond : second ≠ []) :
    joinLines (first ++ second) = joinLines first ++ '\n' :: joinLines second := by
  induction first with
  | nil => exact absurd rfl filledFirst
  | cons line first ih =>
    by_cases single : first = []
    · rw [single, List.singleton_append, joinLines_next line filledSecond, joinLines_singleton]
    · rw [List.cons_append, joinLines_next line (List.append_ne_nil_of_left_ne_nil single second),
        ih single, joinLines_next line single, List.append_assoc, List.cons_append]

theorem joinLines_after (earlier : List (List Char)) :
    ∃ front, ∀ later, later ≠ [] → joinLines (earlier ++ later) = front ++ joinLines later := by
  by_cases single : earlier = []
  · exact ⟨[], fun later _ => by rw [single]; rfl⟩
  · refine ⟨joinLines earlier ++ ['\n'], fun later filled => ?_⟩
    rw [joinLines_append single filled, List.append_assoc]
    rfl

theorem suffix_joinLines (earlier : List (List Char)) (last : List Char) :
    last <:+ joinLines (earlier ++ [last]) := by
  obtain ⟨front, joined⟩ := joinLines_after earlier
  rw [joined [last] (List.cons_ne_nil last []), joinLines_singleton]
  exact ⟨front, rfl⟩

theorem joinLines_cons_append (before line : List Char) (later : List (List Char)) :
    joinLines ((before ++ line) :: later) = before ++ joinLines (line :: later) := by
  cases later with
  | nil => simp [joinLines]
  | cons next later => exact List.append_assoc before line _

theorem shiftLine_shiftLine (inner outer line : List Char) :
    shiftLine outer (shiftLine inner line) = shiftLine (outer ++ inner) line := by
  cases line with
  | nil => rfl
  | cons c line =>
    have filled : inner ++ c :: line ≠ [] := by simp
    rw [shiftLine_filled (List.cons_ne_nil c line), shiftLine_filled filled,
      shiftLine_filled (List.cons_ne_nil c line), List.append_assoc]

theorem map_shiftLine (inner outer : List Char) (parts : List (List Char)) :
    (parts.map (shiftLine inner)).map (shiftLine outer) =
      parts.map (shiftLine (outer ++ inner)) := by
  rw [List.map_map]
  exact List.map_congr_left fun line _ => shiftLine_shiftLine inner outer line

theorem map_shiftLine_nil (parts : List (List Char)) : parts.map (shiftLine []) = parts := by
  refine (List.map_congr_left fun line _ => ?_).trans (List.map_id parts)
  cases line <;> rfl

theorem shiftLine_ne_nil {line : List Char} (filled : line ≠ []) (lead : List Char) :
    shiftLine lead line ≠ [] := by
  rw [shiftLine_filled filled]
  exact List.append_ne_nil_of_right_ne_nil lead filled

theorem lineFeed_notMem_shiftLine {lead line : List Char} (noLead : '\n' ∉ lead)
    (noFeed : '\n' ∉ line) : '\n' ∉ shiftLine lead line := by
  rw [shiftLine]
  split
  next => exact List.not_mem_nil
  next => exact fun mem => (List.mem_append.mp mem).elim noLead noFeed

theorem isLine_shiftLine {lead line : List Char} (noLead : '\n' ∉ lead) (isLine : IsLine line) :
    IsLine (shiftLine lead line) := by
  cases line with
  | nil => exact isLine
  | cons c line =>
    refine ⟨lineFeed_notMem_shiftLine noLead isLine.1, ?_⟩
    rw [shiftLine_filled (List.cons_ne_nil c line),
      List.getLast?_append_of_ne_nil lead (List.cons_ne_nil c line)]
    exact isLine.2

/-- A text that has begun with `line` is read as lines that make it up when they are joined. -/
theorem linesAfter_fed {line text : List Char} (noFeed : '\n' ∉ line)
    (noPair : ¬['\r', '\n'] <:+: line.reverse ++ text) (noEnd : text.getLast? ≠ some '\n')
    (filled : line ≠ [] ∨ text ≠ []) :
    ∃ earlier last, linesAfter line text = earlier ++ [last] ∧
      line.reverse ++ text = joinLines (earlier ++ [last]) ∧
      (∀ part ∈ earlier, IsLine part) ∧ last ≠ [] ∧ '\n' ∉ last := by
  fun_induction linesAfter line text with
  | case1 line empty => exact absurd (List.isEmpty_iff.mp empty) (filled.resolve_right (by simp))
  | case2 line begun =>
    have holds : line.reverse ≠ [] := by simpa using begun
    refine ⟨[], line.reverse, rfl, ?_, by simp, holds, by simpa using noFeed⟩
    rw [List.nil_append, joinLines_singleton, List.append_nil]
  | case3 line rest ih =>
    have goesOn : rest ≠ [] := by
      rintro rfl
      exact noEnd rfl
    have noReturn : line.head? ≠ some '\r' := by
      intro carriage
      obtain ⟨before, rfl⟩ := List.head?_eq_some_iff.mp carriage
      exact noPair ⟨before.reverse, rest, by simp⟩
    have kept : dropReturn line = line := dropReturn_append [] noReturn
    have behind : ¬['\r', '\n'] <:+: rest := fun found =>
      noPair (found.trans ((List.suffix_append (line.reverse ++ ['\n']) rest).isInfix.trans
        (by simp)))
    have ends : rest.getLast? ≠ some '\n' := by
      rwa [List.getLast?_cons_of_ne_nil goesOn] at noEnd
    obtain ⟨earlier, last, split, joined, isLine, holds, noFeedLast⟩ :=
      ih List.not_mem_nil behind ends (.inr goesOn)
    refine ⟨line.reverse :: earlier, last, ?_, ?_, ?_, holds, noFeedLast⟩
    · rw [kept, split, List.cons_append]
    · rw [List.cons_append, joinLines_next _ (by simp), ← joined]
      rfl
    · rw [List.forall_mem_cons]
      refine ⟨⟨by simpa using noFeed, ?_⟩, isLine⟩
      rwa [List.getLast?_reverse]
  | case4 line c rest other ih =>
    have noneSoFar : '\n' ∉ c :: line := fun mem =>
      (List.mem_cons.mp mem).elim (fun same => other same.symm) noFeed
    have whole : (c :: line).reverse ++ rest = line.reverse ++ c :: rest := by simp
    have ends : rest.getLast? ≠ some '\n' := by
      cases rest with
      | nil => simp
      | cons d rest => rwa [List.getLast?_cons_of_ne_nil (List.cons_ne_nil d rest)] at noEnd
    rw [← whole]
    exact ih noneSoFar (whole ▸ noPair) ends (.inl (List.cons_ne_nil c line))

namespace LineFed

variable {text : List Char}

theorem parts (fed : LineFed text) (filled : text ≠ []) :
    ∃ earlier last, lines text = earlier ++ [last] ∧ text = joinLines (earlier ++ [last]) ∧
      (∀ part ∈ earlier, IsLine part) ∧ last ≠ [] ∧ '\n' ∉ last :=
  linesAfter_fed List.not_mem_nil fed.noPair fed.noEnd (.inr filled)

theorem joinLines_lines (fed : LineFed text) : joinLines (lines text) = text := by
  by_cases filled : text = []
  · rw [filled]
    rfl
  · obtain ⟨earlier, last, split, joined, -⟩ := fed.parts filled
    rw [split, ← joined]

/-- Indentation moves every line and keeps its place. -/
theorem lines_shiftRight (fed : LineFed text) {lead : List Char} (noFeed : '\n' ∉ lead) :
    lines (shiftRight text lead) = (lines text).map (shiftLine lead) := by
  by_cases filled : text = []
  · rw [filled]
    rfl
  · obtain ⟨earlier, last, split, -, isLine, holds, noFeedLast⟩ := fed.parts filled
    rw [shiftRight, split, List.map_append, List.map_singleton]
    refine lines_joinLines (fun part mem => ?_) (shiftLine_ne_nil holds lead)
      (lineFeed_notMem_shiftLine noFeed noFeedLast)
    obtain ⟨line, before, rfl⟩ := List.mem_map.mp mem
    exact isLine_shiftLine noFeed (isLine line before)

/-- Two indentations are one. -/
theorem shiftRight_shiftRight (fed : LineFed text) {inner : List Char} (noFeed : '\n' ∉ inner)
    (outer : List Char) :
    shiftRight (shiftRight text inner) outer = shiftRight text (outer ++ inner) := by
  rw [shiftRight, fed.lines_shiftRight noFeed, map_shiftLine, shiftRight]

/-- A text that ends in no carriage return either is made of lines. -/
theorem exists_isLine (fed : LineFed text) (noReturn : text.getLast? ≠ some '\r') :
    ∃ parts, parts ≠ [] ∧ (∀ part ∈ parts, IsLine part) ∧ text = joinLines parts ∧
      ∀ lead, shiftRight text lead = joinLines (parts.map (shiftLine lead)) := by
  by_cases filled : text = []
  · refine ⟨[[]], by simp, ?_, filled, fun lead => ?_⟩
    · rintro part (_ | ⟨_, ⟨⟩⟩)
      exact ⟨List.not_mem_nil, by simp⟩
    · rw [filled]
      rfl
  · obtain ⟨earlier, last, split, joined, isLine, holds, noFeed⟩ := fed.parts filled
    refine ⟨earlier ++ [last], by simp, ?_, joined, fun lead => by rw [shiftRight, split]⟩
    rw [List.forall_mem_append, List.forall_mem_singleton]
    refine ⟨isLine, noFeed, fun ends => noReturn ?_⟩
    obtain ⟨before, whole⟩ := suffix_joinLines earlier last
    rw [joined, ← whole, List.getLast?_append_of_ne_nil before holds]
    exact ends

end LineFed

/-! ## Inside of another text -/

theorem linesAfter_ne_nil {line text : List Char} (filled : line ≠ [] ∨ text ≠ []) :
    linesAfter line text ≠ [] := by
  fun_induction linesAfter line text with
  | case1 line empty => exact absurd (List.isEmpty_iff.mp empty) (filled.resolve_right (by simp))
  | case2 line _ => exact List.cons_ne_nil _ _
  | case3 line rest _ => exact List.cons_ne_nil _ _
  | case4 line c rest _ ih => exact ih (.inl (List.cons_ne_nil c line))

def LineStart (before : List Char) : Prop := before = [] ∨ ∃ front, before = front ++ ['\n']

theorem LineStart.append {first second : List Char} (starts : LineStart first)
    (goesOn : LineStart second) : LineStart (first ++ second) := by
  obtain rfl | ⟨front, rfl⟩ := goesOn
  · rwa [List.append_nil]
  · exact .inr ⟨first ++ front, (List.append_assoc first front ['\n']).symm⟩

/-- From the start of a line a text is moved apart from what comes before it. -/
theorem LineStart.shiftRight {before : List Char} (starts : LineStart before) (lead : List Char) :
    ∃ front, LineStart front ∧ ∀ text, text ≠ [] →
      shiftRight (before ++ text) lead = front ++ shiftRight text lead := by
  obtain rfl | ⟨before, rfl⟩ := starts
  · exact ⟨[], .inl rfl, fun text _ => rfl⟩
  · obtain ⟨earlier, line, split⟩ := linesAfter_append [] before
    let rows := earlier ++ [(dropReturn line).reverse]
    have whole (text : List Char) : lines (before ++ ['\n'] ++ text) = rows ++ lines text := by
      rw [lines, List.append_assoc, split, List.singleton_append, linesAfter, if_pos rfl,
        List.append_assoc]
      rfl
    have begun : rows.map (shiftLine lead) ≠ [] := by simp [rows]
    refine ⟨joinLines (rows.map (shiftLine lead)) ++ ['\n'], .inr ⟨_, rfl⟩, fun text filled => ?_⟩
    have read : lines text ≠ [] := linesAfter_ne_nil (.inr filled)
    rw [Text.shiftRight, whole, List.map_append, joinLines_append begun (by simpa using read),
      List.append_assoc]
    rfl

theorem lines_whole {parts : List (List Char)} (isLine : ∀ part ∈ parts, IsLine part)
    (filled : parts ≠ []) (behind : List Char) :
    lines (joinLines parts ++ '\n' :: behind) = parts ++ lines behind := by
  induction parts with
  | nil => exact absurd rfl filled
  | cons line parts ih =>
    rw [List.forall_mem_cons] at isLine
    by_cases single : parts = []
    · rw [single, List.singleton_append, ← lines_cons isLine.1 behind, joinLines_singleton]
    · rw [joinLines_next line single, List.append_assoc, List.cons_append, lines_cons isLine.1,
        ih isLine.2 single, List.cons_append]

theorem shiftRight_whole {parts : List (List Char)} (isLine : ∀ part ∈ parts, IsLine part)
    (filled : parts ≠ []) (lead : List Char) {back : List Char} (goesOn : back ≠ []) :
    shiftRight (joinLines parts ++ '\n' :: back) lead =
      joinLines (parts.map (shiftLine lead)) ++ '\n' :: shiftRight back lead := by
  have read : lines back ≠ [] := linesAfter_ne_nil (.inr goesOn)
  rw [shiftRight, lines_whole isLine filled, List.map_append,
    joinLines_append (by simpa using filled) (by simpa using read)]
  rfl

structure Passage (parts : List (List Char)) : Prop where
  filled : parts ≠ []
  isLine : ∀ part ∈ parts, IsLine part
  ends : ∀ part ∈ parts.getLast?, part ≠ []

theorem Passage.map_shiftLine {parts : List (List Char)} (passage : Passage parts)
    {lead : List Char} (noFeed : '\n' ∉ lead) : Passage (parts.map (shiftLine lead)) := by
  refine ⟨by simpa using passage.filled, fun part mem => ?_, fun part last => ?_⟩
  · obtain ⟨line, before, rfl⟩ := List.mem_map.mp mem
    exact isLine_shiftLine noFeed (passage.isLine line before)
  · rw [List.getLast?_map] at last
    obtain ⟨line, before, rfl⟩ := Option.map_eq_some_iff.mp last
    exact shiftLine_ne_nil (passage.ends line before) lead

theorem Passage.joinLines_ne_nil {parts : List (List Char)} (passage : Passage parts) :
    joinLines parts ≠ [] := by
  intro empty
  have last := suffix_joinLines parts.dropLast (parts.getLast passage.filled)
  rw [List.dropLast_append_getLast passage.filled, empty, List.suffix_nil] at last
  exact passage.ends _ (List.getLast?_eq_some_getLast passage.filled) last

/-- The lines of a passage are moved one by one, whatever comes behind it. -/
theorem shiftRight_passage (behind lead : List Char) :
    ∃ after, ∀ parts, Passage parts →
      shiftRight (joinLines parts ++ behind) lead =
        joinLines (parts.map (shiftLine lead)) ++ after := by
  obtain ⟨tail, others, finish⟩ := linesAfter_finish [] behind
  obtain ⟨rest, joined⟩ := joinLines_first (others.map (shiftLine lead))
  refine ⟨tail ++ rest, fun parts passage => ?_⟩
  induction parts with
  | nil => exact absurd rfl passage.filled
  | cons line parts ih =>
    obtain ⟨-, isLine, ends⟩ := passage
    rw [List.forall_mem_cons] at isLine
    by_cases last : parts = []
    · subst last
      have filled : line ≠ [] := ends line rfl
      have longer : line.reverse.reverse ++ tail ≠ [] := by simp [filled]
      have noReturn : line.reverse.head? ≠ some '\r' := by
        rw [List.head?_reverse]
        exact isLine.1.2
      have read := finish line.reverse (by simpa using filled) noReturn
      rw [List.nil_append] at read
      rw [joinLines_singleton, shiftRight, lines, linesAfter_run [] isLine.1.1, List.append_nil,
        read, List.map_cons, joined, shiftLine_filled longer, List.map_singleton, joinLines_singleton,
        shiftLine_filled filled]
      simp only [List.reverse_reverse, List.append_assoc]
    · obtain ⟨next, later, rfl⟩ := List.exists_cons_of_ne_nil last
      rw [List.getLast?_cons_cons] at ends
      have goesOn : Passage (next :: later) := ⟨last, isLine.2, ends⟩
      have text : joinLines (next :: later) ++ behind ≠ [] :=
        List.append_ne_nil_of_left_ne_nil goesOn.joinLines_ne_nil behind
      have whole : joinLines (line :: next :: later) ++ behind =
          joinLines [line] ++ '\n' :: (joinLines (next :: later) ++ behind) := by
        rw [joinLines_next line last, joinLines_singleton, List.append_assoc, List.cons_append]
      have moved : joinLines ((line :: next :: later).map (shiftLine lead)) =
          joinLines ([line].map (shiftLine lead)) ++
            '\n' :: joinLines ((next :: later).map (shiftLine lead)) := by
        rw [List.map_singleton, joinLines_singleton]
        rfl
      rw [whole, shiftRight_whole (by simpa using isLine.1) (List.cons_ne_nil line []) lead text,
        ih goesOn, moved, List.append_assoc, List.cons_append]

/-- A passage is moved with its lines, and what surrounds it does not depend on it. -/
theorem LineStart.shiftRight_passage {before : List Char} (starts : LineStart before)
    (behind lead : List Char) :
    ∃ front after, LineStart front ∧ ∀ parts, Passage parts →
      Text.shiftRight (before ++ (joinLines parts ++ behind)) lead =
        front ++ (joinLines (parts.map (shiftLine lead)) ++ after) := by
  obtain ⟨front, moved, apart⟩ := starts.shiftRight lead
  obtain ⟨after, shifted⟩ := Text.shiftRight_passage behind lead
  refine ⟨front, after, moved, fun parts passage => ?_⟩
  rw [apart _ (List.append_ne_nil_of_left_ne_nil passage.joinLines_ne_nil behind),
    shifted parts passage]

theorem exists_lineStart (text : List Char) :
    ∃ before start, text = before ++ start ∧ LineStart before ∧ '\n' ∉ start := by
  induction text using List.reverseRecOn with
  | nil => exact ⟨[], [], rfl, .inl rfl, List.not_mem_nil⟩
  | append_singleton text c ih =>
    by_cases feed : c = '\n'
    · exact ⟨text ++ [c], [], (List.append_nil _).symm, .inr ⟨text, feed ▸ rfl⟩, List.not_mem_nil⟩
    · obtain ⟨before, start, rfl, starts, noFeed⟩ := ih
      refine ⟨before, start ++ [c], List.append_assoc before start [c], starts, fun mem => ?_⟩
      exact (List.mem_append.mp mem).elim noFeed fun last => feed (List.mem_singleton.mp last).symm

theorem joinLines_modifyHead (start : List Char) {parts : List (List Char)} (filled : parts ≠ []) :
    joinLines (parts.modifyHead (start ++ ·)) = start ++ joinLines parts := by
  obtain ⟨line, later, rfl⟩ := List.exists_cons_of_ne_nil filled
  exact joinLines_cons_append start line later

/-- A passage goes on as one behind the start of its first line. -/
theorem Passage.modifyHead {parts : List (List Char)} (passage : Passage parts)
    (begins : ∀ part ∈ parts.head?, part ≠ []) {start : List Char} (noFeed : '\n' ∉ start) :
    Passage (parts.modifyHead (start ++ ·)) := by
  obtain ⟨filled, isLine, ends⟩ := passage
  obtain ⟨line, later, rfl⟩ := List.exists_cons_of_ne_nil filled
  have begun : line ≠ [] := begins line rfl
  rw [List.forall_mem_cons] at isLine
  refine ⟨List.cons_ne_nil _ _, List.forall_mem_cons.mpr ⟨⟨?_, ?_⟩, isLine.2⟩, ?_⟩
  · exact fun mem => (List.mem_append.mp mem).elim noFeed isLine.1.1
  · rw [List.getLast?_append_of_ne_nil start begun]
    exact isLine.1.2
  · cases later with
    | nil =>
      rintro part ⟨⟩
      exact List.append_ne_nil_of_right_ne_nil start begun
    | cons next later =>
      rw [List.getLast?_cons_cons] at ends
      rwa [List.modifyHead_cons, List.getLast?_cons_cons]

/-- What is behind the start of the last line is not moved apart from it. -/
theorem shiftRight_before (before lead : List Char) :
    ∃ front, ∀ close, OneLine close → shiftRight (before ++ close) lead = front ++ close := by
  obtain ⟨earlier, line, split⟩ := linesAfter_append [] before
  obtain ⟨front, joined⟩ := joinLines_after (earlier.map (shiftLine lead))
  refine ⟨front ++ (lead ++ line.reverse), fun close single => ?_⟩
  have begun : ¬(close.reverse ++ line).isEmpty = true := by simp [single.1]
  have last : linesAfter line close = [line.reverse ++ close] := by
    have run := linesAfter_run line single.2.1 []
    rw [List.append_nil] at run
    rw [run, linesAfter, if_neg begun, List.reverse_append, List.reverse_reverse]
  have filled : line.reverse ++ close ≠ [] := List.append_ne_nil_of_right_ne_nil _ single.1
  rw [shiftRight, lines, split, last, List.map_append, List.map_singleton,
    joined _ (List.cons_ne_nil _ _), joinLines_singleton, shiftLine_filled filled]
  simp only [List.append_assoc]

/-! ## What lines hold -/

/-- A character that a pattern does not hold parts a text for it. -/
theorem infix_around {needle before behind : List Char} {c : Char} (absent : c ∉ needle)
    (found : needle <:+: before ++ c :: behind) : needle <:+: before ∨ needle <:+: behind := by
  obtain ⟨front, rest, whole⟩ := found
  rw [List.append_assoc] at whole
  obtain ⟨later, rfl, split⟩ | ⟨later, rfl, split⟩ := List.append_eq_append_iff.mp whole
  · obtain ⟨more, rfl, ends⟩ | ⟨more, rfl, ends⟩ := List.append_eq_append_iff.mp split
    · exact .inl ⟨front, more, (List.append_assoc _ _ _).symm ▸ rfl⟩
    · cases more with
      | nil => exact .inl ⟨front, [], by simp⟩
      | cons d more =>
        obtain ⟨rfl, -⟩ := List.cons.inj ends
        exact (absent (List.mem_append_right _ List.mem_cons_self)).elim
  · cases later with
    | nil =>
      cases needle with
      | nil => exact .inl List.nil_infix
      | cons d needle =>
        obtain ⟨rfl, -⟩ := List.cons.inj split
        exact (absent List.mem_cons_self).elim
    | cons d later =>
      obtain ⟨-, same⟩ := List.cons.inj split
      exact .inr ⟨later, rest, by rw [List.append_assoc]; exact same.symm⟩

theorem infix_of_infix_append {needle before text : List Char}
    (absent : ∀ c ∈ before, c ∉ needle) (found : needle <:+: before ++ text) :
    needle <:+: text := by
  induction before with
  | nil => exact found
  | cons c before ih =>
    rw [List.forall_mem_cons] at absent
    have parted : needle <:+: [] ++ c :: (before ++ text) := found
    obtain empty | behind := infix_around absent.1 parted
    · rw [List.infix_nil.mp empty]
      exact List.nil_infix
    · exact ih absent.2 behind

theorem infix_of_mem_lines {line : List Char} (start text : List Char)
    (mem : line ∈ linesAfter start text) : line <:+: start.reverse ++ text := by
  fun_induction linesAfter start text with
  | case1 => cases mem
  | case2 start _ =>
    rw [List.mem_singleton.mp mem]
    exact (List.prefix_append _ _).isInfix
  | case3 start rest ih =>
    obtain rfl | later := List.mem_cons.mp mem
    · obtain ⟨behind, split, -⟩ := dropReturn_split start
      rw [split, List.append_assoc]
      exact (List.prefix_append _ _).isInfix
    · have inRest : line <:+: rest := ih later
      exact inRest.trans ((List.suffix_cons '\n' rest).trans (List.suffix_append _ _)).isInfix
  | case4 start c rest _ ih =>
    have inside := ih mem
    rwa [List.reverse_cons, List.append_assoc] at inside

theorem infix_of_infix_joinLines {needle : List Char} (noFeed : '\n' ∉ needle)
    {parts : List (List Char)} (found : needle <:+: joinLines parts) :
    needle = [] ∨ ∃ part ∈ parts, needle <:+: part := by
  induction parts with
  | nil => exact .inl (List.infix_nil.mp found)
  | cons line parts ih =>
    by_cases single : parts = []
    · rw [single, joinLines_singleton] at found
      exact .inr ⟨line, List.mem_cons_self, found⟩
    · rw [joinLines_next line single] at found
      obtain here | later := infix_around noFeed found
      · exact .inr ⟨line, List.mem_cons_self, here⟩
      · obtain empty | ⟨part, mem, inside⟩ := ih later
        · exact .inl empty
        · exact .inr ⟨part, List.mem_cons_of_mem line mem, inside⟩

/-- Indentation writes nothing but line feeds and the lead. -/
theorem infix_of_infix_shiftRight {needle lead text : List Char} (noFeed : '\n' ∉ needle)
    (noLead : ∀ c ∈ lead, c ∉ needle) (found : needle <:+: shiftRight text lead) :
    needle <:+: text := by
  obtain rfl | ⟨part, mem, inside⟩ := infix_of_infix_joinLines noFeed found
  · exact List.nil_infix
  · obtain ⟨line, read, rfl⟩ := List.mem_map.mp mem
    refine List.IsInfix.trans ?_ (infix_of_mem_lines [] text read)
    cases line with
    | nil => exact inside
    | cons c line =>
      rw [shiftLine_filled (List.cons_ne_nil c line)] at inside
      exact infix_of_infix_append noLead inside

end Formwright.Text
