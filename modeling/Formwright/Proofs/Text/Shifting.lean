import Formwright.Proofs.Text.Blanks
import Formwright.Proofs.Text.Indentation
import Mathlib.Data.List.Forall2

/-!
Shifting a text back loses nothing but blanks. Every line keeps its place and what is on it: behind
its last character blanks are cut off, and before its first one a part of the blanks.
-/

namespace Formwright.Text

def dark (text : List Char) : List Char := text.filter fun c => !isBlank c

theorem dark_append (first second : List Char) : dark (first ++ second) = dark first ++ dark second :=
  List.filter_append first second

theorem dark_blank {text : List Char} (blank : Blank text) : dark text = [] := by
  rw [dark, List.filter_eq_nil_iff]
  intro c mem
  rw [blank c mem]
  decide

theorem dark_trimEnd (text : List Char) : dark (trimEnd text) = dark text := by
  obtain ⟨behind, split, blank⟩ := trimEnd_split text
  conv_rhs => rw [split]
  rw [dark_append, dark_blank blank, List.append_nil]

theorem dark_trim (text : List Char) : dark (trim text) = dark text := by
  obtain ⟨before, split, blank⟩ := trimStart_split text
  conv_rhs => rw [split]
  rw [trim, dark_trimEnd, dark_append, dark_blank blank, List.nil_append]

/-- What ends lines is blank. -/
theorem dark_linesAfter (line text : List Char) :
    dark (linesAfter line text).flatten = dark (line.reverse ++ text) := by
  fun_induction linesAfter line text with
  | case1 line empty =>
    rw [List.isEmpty_iff.mp empty]
    rfl
  | case2 line filled => rw [List.flatten_singleton, List.append_nil]
  | case3 line rest ih =>
    obtain ⟨behind, split, blank, _⟩ := dropReturn_split line
    have kept : dark line.reverse = dark (dropReturn line).reverse := by
      rw [split, dark_append, dark_blank blank, List.append_nil]
    have feed : dark ('\n' :: rest) = dark rest := List.filter_cons_of_neg (by decide)
    rw [List.flatten_cons, dark_append, ih, dark_append line.reverse, kept, feed]
    rfl
  | case4 line c rest other ih =>
    rw [ih, List.reverse_cons, List.append_assoc]
    rfl

def CutTo (line part : List Char) : Prop := ∃ before, trimEnd line = before ++ part ∧ Blank before

theorem CutTo.dark_eq {line part : List Char} (cut : CutTo line part) : dark part = dark line := by
  obtain ⟨before, split, blank⟩ := cut
  rw [← dark_trimEnd line, split, dark_append, dark_blank blank, List.nil_append]

theorem dark_flatten {lines parts : List (List Char)} (cut : List.Forall₂ CutTo lines parts) :
    dark parts.flatten = dark lines.flatten := by
  induction cut with
  | nil => rfl
  | cons here _ ih =>
    rw [List.flatten_cons, List.flatten_cons, dark_append, dark_append, here.dark_eq, ih]

/-- A line is never cut behind its blanks: the shared margin is no wider than its own, and where it
would end inside of a character all blanks are cut off. -/
theorem cutTo_dropMargin {later : List (List Char)} {line : List Char} (mem : line ∈ later) :
    CutTo line (dropMargin (commonMargin (later.map trimEnd)) (trimEnd line)) := by
  by_cases filled : trimEnd line = []
  · exact ⟨[], by rw [filled]; rfl, blank_nil⟩
  · exact dropMargin_split (commonMargin_le (List.mem_map_of_mem mem) filled)

/-- The lines of a text are shifted one by one, the first of them not at all. -/
theorem shiftLeft_lines (text : List Char) :
    (shiftLeft text).head? = (lines (trim text)).head?.map trimEnd ∧
      List.Forall₂ CutTo (lines (trim text)) (shiftLeft text) := by
  rw [shiftLeft]
  cases lines (trim text) with
  | nil => exact ⟨rfl, .nil⟩
  | cons first later =>
    refine ⟨rfl, .cons ⟨[], rfl, blank_nil⟩ ?_⟩
    rw [List.map_map, List.forall₂_map_right_iff, List.forall₂_same]
    exact fun line mem => cutTo_dropMargin mem

/-- The shared margin of two bytes ends inside of the em quad. -/
example : shiftLeft "a\n\u2001b\n  c".toList = ["a".toList, "b".toList, "c".toList] := by
  decide +kernel

theorem dark_shiftLeft (text : List Char) : dark (shiftLeft text).flatten = dark text := by
  rw [dark_flatten (shiftLeft_lines text).2, lines, dark_linesAfter, List.reverse_nil,
    List.nil_append, dark_trim]

/-! ## Writing lines -/

/-- A line as it can be read back: it holds no line feed and ends in no carriage return. -/
def IsLine (line : List Char) : Prop := '\n' ∉ line ∧ line.getLast? ≠ some '\r'

theorem CutTo.isLine {line part : List Char} (cut : CutTo line part) (noFeed : '\n' ∉ line) :
    IsLine part := by
  obtain ⟨before, split, _⟩ := cut
  obtain ⟨behind, whole, _⟩ := trimEnd_split line
  constructor
  · intro mem
    apply noFeed
    rw [whole, split]
    exact List.mem_append_left _ (List.mem_append_right _ mem)
  · intro last
    have same : (trimEnd line).getLast? = some '\r' := by
      rw [split, List.getLast?_append, last]
      rfl
    exact absurd (last_of_trimEnd line '\r' same) (by decide)

theorem isLine_of_cuts {lines parts : List (List Char)} (cuts : List.Forall₂ CutTo lines parts)
    (noFeed : ∀ line ∈ lines, '\n' ∉ line) : ∀ part ∈ parts, IsLine part := by
  induction cuts with
  | nil => rintro _ ⟨⟩
  | cons cut _ ih =>
    rw [List.forall_mem_cons] at noFeed ⊢
    exact ⟨cut.isLine noFeed.1, ih noFeed.2⟩

theorem isLine_shiftLeft (text : List Char) : ∀ line ∈ shiftLeft text, IsLine line :=
  isLine_of_cuts (shiftLeft_lines text).2 fun _ mem => lineFeed_notMem_lines List.not_mem_nil mem

theorem lines_cons {line : List Char} (isLine : IsLine line) (rest : List Char) :
    lines (line ++ '\n' :: rest) = line :: lines rest := by
  have ends : line.reverse.head? ≠ some '\r' := by
    rw [List.head?_reverse]
    exact isLine.2
  have kept : dropReturn line.reverse = line.reverse := dropReturn_append [] ends
  rw [lines, linesAfter_run [] isLine.1, List.append_nil, linesAfter, if_pos rfl, kept,
    List.reverse_reverse]
  rfl

/-- Joined lines are read back as they were. -/
theorem lines_joinLines {parts : List (List Char)} {last : List Char}
    (isLine : ∀ part ∈ parts, IsLine part) (filled : last ≠ []) (noFeed : '\n' ∉ last) :
    lines (joinLines (parts ++ [last])) = parts ++ [last] := by
  induction parts with
  | nil => simpa [joinLines] using lines_single filled noFeed
  | cons part parts ih =>
    have split : joinLines (part :: parts ++ [last]) =
        part ++ '\n' :: joinLines (parts ++ [last]) := by
      cases parts <;> rfl
    rw [split, lines_cons (isLine part List.mem_cons_self),
      ih fun other mem => isLine other (List.mem_cons_of_mem _ mem)]
    rfl

end Formwright.Text
