import Formwright.Component.Conversion
import Formwright.Proofs.Component.Bodies
import Formwright.Proofs.Component.Fragment
import Formwright.Proofs.Text.Passages

/-!
Fragments deep inside of generated markup. Every element around a fragment moves its lines by one
indentation and leaves what is on them as it is, so that a fragment looks the same at every depth.
-/

namespace Formwright.Component

open Mapping Text

def spaces (width : Nat) : List Char := List.replicate width ' '

theorem spaces_add (first second : Nat) : spaces (first + second) = spaces first ++ spaces second :=
  List.replicate_add first second ' '

theorem lineFeed_notMem_spaces (width : Nat) : '\n' ∉ spaces width := fun mem =>
  absurd (List.eq_of_mem_replicate mem) (by decide)

/-! ## Elements around a fragment -/

theorem nestedLines_append (first second : List String) :
    nestedLines (first ++ second) = nestedLines first ++ nestedLines second := by
  rw [nestedLines, List.map_append, String.join_append]
  rfl

theorem toList_shiftFragment (fragment : String) (lead : List Char) :
    (shiftFragment fragment lead).toList = shiftRight fragment.toList lead :=
  String.toList_ofList

theorem toList_nestedLines_cons (fragment : String) (later : List String) :
    (nestedLines (fragment :: later)).toList =
      shiftRight fragment.toList indentation ++ '\n' :: (nestedLines later).toList := by
  rw [nestedLines, List.map_cons, String.join_cons, String.toList_append, String.toList_append,
    toList_shiftFragment, List.append_assoc]
  rfl

theorem lineStart_nestedLines (nested : List String) : LineStart (nestedLines nested).toList := by
  induction nested with
  | nil => exact .inl rfl
  | cons fragment later ih =>
    rw [toList_nestedLines_cons, ← List.singleton_append, ← List.append_assoc]
    exact LineStart.append (.inr ⟨_, rfl⟩) ih

/-- An element whose start tag and siblings stand around a fragment. -/
structure Level where
  component : String
  properties : Entries Value
  earlier : List String
  later : List String

def Level.render (level : Level) (fragment : String) : String :=
  renderTag level.component level.properties (level.earlier ++ fragment :: level.later)

def within (levels : List Level) (fragment : String) : String := levels.foldr Level.render fragment

theorem within_cons (level : Level) (levels : List Level) (fragment : String) :
    within (level :: levels) fragment = level.render (within levels fragment) := rfl

/-- An element puts a fragment on lines of its own. -/
theorem Level.render_around (level : Level) :
    ∃ front back, LineStart front ∧ back ≠ [] ∧ ∀ fragment,
      (level.render fragment).toList =
        front ++ (shiftRight fragment.toList indentation ++ '\n' :: back) := by
  obtain ⟨component, properties, earlier, later⟩ := level
  let text := (Entries.find? properties "children").map contentText
  let start := openTag component (Entries.erase properties "children") ++ ">\n"
  let before := nestedLines (text.toList ++ earlier)
  let after := nestedLines later ++ ("</" ++ component ++ ">")
  refine ⟨start.toList ++ before.toList, after.toList, ?_, ?_, fun fragment => ?_⟩
  · refine LineStart.append (.inr ?_) (lineStart_nestedLines _)
    refine ⟨(openTag component (Entries.erase properties "children")).toList ++ ['>'], ?_⟩
    rw [String.toList_append, List.append_assoc]
    rfl
  · simp [after, String.toList_append]
  · rw [Level.render, renderTag_eq, tagRest_filled _ _ (by simp), ← List.append_assoc,
      nestedLines_append]
    simp only [String.toList_append, toList_nestedLines_cons, start, before, after,
      List.append_assoc, List.cons_append]
    rfl

theorem spaces_level (depth : Nat) :
    spaces (2 * (depth + 1)) = indentation ++ spaces (2 * depth) := by
  rw [Nat.mul_succ, Nat.add_comm, spaces_add]
  rfl

/-- The lines of a fragment inside of elements. -/
theorem within_text {levels : List Level} (deep : levels ≠ []) :
    ∃ front back, LineStart front ∧ back ≠ [] ∧ ∀ fragment : String, LineFed fragment.toList →
      (levels.length ≤ 1 ∨ fragment.toList.getLast? ≠ some '\r') →
      (within levels fragment).toList =
        front ++ (shiftRight fragment.toList (spaces (2 * levels.length)) ++ '\n' :: back) := by
  induction levels with
  | nil => exact absurd rfl deep
  | cons outer inner ih =>
    obtain ⟨first, last, begins, filled, rendered⟩ := outer.render_around
    by_cases single : inner = []
    · rw [single]
      exact ⟨first, last, begins, filled, fun fragment _ _ => rendered fragment⟩
    · obtain ⟨front, back, starts, goesOn, placed⟩ := ih single
      obtain ⟨moved, stays, shifted⟩ := starts.shiftRight indentation
      refine ⟨first ++ moved, shiftRight back indentation ++ '\n' :: last, begins.append stays,
        by simp, fun fragment fed shallow => ?_⟩
      have noReturn : fragment.toList.getLast? ≠ some '\r' := by
        refine shallow.resolve_left fun few => single ?_
        simpa using few
      obtain ⟨parts, some, isLine, -, moves⟩ := fed.exists_isLine noReturn
      have still (part : List Char)
          (mem : part ∈ parts.map (shiftLine (spaces (2 * inner.length)))) : IsLine part := by
        obtain ⟨line, before, rfl⟩ := List.mem_map.mp mem
        exact isLine_shiftLine (lineFeed_notMem_spaces _) (isLine line before)
      rw [within_cons, rendered, placed fragment fed (.inr noReturn), shifted _ (by simp), moves,
        shiftRight_whole still (by simpa using some) indentation goesOn, map_shiftLine,
        List.length_cons, spaces_level, moves]
      simp only [List.append_assoc, List.cons_append]

/-! ## Callbacks -/

structure CodeLines (parts : List (List Char)) : Prop extends Passage parts where
  begins : ∀ part ∈ parts.head?, part ≠ []

theorem codeLines_inlineFunction (body : String) :
    CodeLines (lines (inlineFunction body).toList) := by
  rw [lines_inlineFunction]
  obtain ⟨earlier, last, split, brace, -⟩ := inlineLines_end (bodyLines body)
  refine ⟨⟨by simp [split], isLine_inlineLines (isLine_shiftLeft _), fun part ends => ?_⟩,
    head_inlineLines _⟩
  rw [split, List.getLast?_concat] at ends
  obtain rfl := Option.some.inj ends
  rintro rfl
  cases brace

/-- What `write` makes of code holds its lines, the first behind `start`, with this width in front
of each, and what is around them does not depend on the code. -/
def HoldsCode (start : List Char) (width : Nat) (write : String → String) : Prop :=
  ∃ before behind, LineStart before ∧ ∀ (code : String) parts, CodeLines parts →
    code.toList = joinLines parts →
    (write code).toList = before ++
      (joinLines ((parts.modifyHead (start ++ ·)).map (shiftLine (spaces width))) ++ behind)

/-- Where nothing is indented, the code begins behind the last line feed before it. -/
theorem holdsCode_inside {write : String → String} {around behind : List Char}
    (written : ∀ code, (write code).toList = around ++ (code.toList ++ behind)) :
    ∃ start, '\n' ∉ start ∧ HoldsCode start 0 write := by
  obtain ⟨before, start, rfl, starts, noFeed⟩ := exists_lineStart around
  refine ⟨start, noFeed, before, behind, starts, fun code parts codeLines joined => ?_⟩
  have still : (parts.modifyHead (start ++ ·)).map (shiftLine (spaces 0)) =
      parts.modifyHead (start ++ ·) := map_shiftLine_nil _
  rw [written, still, joinLines_modifyHead start codeLines.filled, joined]
  simp only [List.append_assoc]

/-- Indentation moves all lines of the code alike. -/
theorem HoldsCode.shift {start : List Char} {width : Nat} {write outer : String → String}
    (holds : HoldsCode start width write) (noFeed : '\n' ∉ start) {lead : Nat}
    {front back : List Char} (begins : LineStart front)
    (written : ∀ code, (outer code).toList =
      front ++ (shiftRight (write code).toList (spaces lead) ++ back)) :
    HoldsCode start (lead + width) outer := by
  obtain ⟨before, behind, starts, held⟩ := holds
  obtain ⟨moved, after, stays, shifted⟩ := starts.shiftRight_passage behind (spaces lead)
  refine ⟨front ++ moved, after ++ back, begins.append stays, fun code parts codeLines joined => ?_⟩
  have passage := (codeLines.toPassage.modifyHead codeLines.begins noFeed).map_shiftLine
    (lineFeed_notMem_spaces width)
  rw [written, held code parts codeLines joined, shifted _ passage, map_shiftLine, spaces_add]
  simp only [List.append_assoc]

theorem openTag_around (component name : String) (earlier later : Entries Value) :
    ∃ before behind, ∀ value, openTag component (earlier ++ (name, value) :: later) =
      before ++ renderAttribute name value ++ behind := by
  let written (properties : Entries Value) :=
    String.join (properties.map fun item => " " ++ renderAttribute item.1 item.2)
  refine ⟨"<" ++ component ++ written earlier ++ " ", written later, fun value => ?_⟩
  rw [openTag, List.map_append, List.map_cons, String.join_cons, String.join_append,
    String.join_cons]
  simp only [written, String.append_assoc]

/-- A callback among the attributes of an element. -/
theorem renderTag_attribute (component : String) (properties : Entries Value) {name : String}
    (other : name ≠ "children") (nested : List String) :
    ∃ around behind, ∀ code : String,
      (renderTag component (Entries.insert properties name (.callback code)) nested).toList =
        around ++ (code.toList ++ behind) := by
  obtain ⟨earlier, later, inserted⟩ := Entries.insert_around properties name
  obtain ⟨before, behind, written⟩ := openTag_around component name
    (Entries.erase earlier "children") (Entries.erase later "children")
  let text := (Entries.find? properties "children").map contentText
  refine ⟨(before ++ name ++ "=" ++ "\x7b").toList,
    ("\x7d" ++ behind ++ tagRest component text nested).toList, fun code => ?_⟩
  have shown : renderAttribute name (.callback code) = name ++ "=" ++ braced code := rfl
  have found : Entries.find? (Entries.insert properties name (.callback code)) "children" =
      Entries.find? properties "children" := by
    rw [Entries.find?_insert, if_neg other.symm]
  have erased : Entries.erase (Entries.insert properties name (.callback code)) "children" =
      Entries.erase earlier "children" ++ (name, .callback code) ::
        Entries.erase later "children" := by
    rw [inserted, Entries.erase, List.filter_append, List.filter_cons_of_pos (by simpa using other)]
    rfl
  rw [renderTag_eq, found, erased, written, shown, braced]
  simp only [String.toList_append, List.append_assoc, text]

/-- A callback that is the content of an element. -/
theorem renderTag_content (component : String) (properties : Entries Value) (nested : List String)
    (code : String) :
    renderTag component (Entries.insert properties "children" (.callback code)) nested =
      openTag component (Entries.erase properties "children") ++
        tagRest component (some (braced code)) nested := by
  have content : contentText (.callback code) = braced code := rfl
  rw [renderTag_eq, Entries.find?_insert, if_pos rfl, Entries.erase_insert, Option.map_some,
    content]

def propertyDepth (name : String) (nested : List String) : Nat :=
  if name = "children" ∧ nested ≠ [] then 1 else 0

/-- A callback as a property of an element. -/
theorem holdsCode_renderTag (component : String) (properties : Entries Value) (name : String)
    (nested : List String) :
    ∃ start, '\n' ∉ start ∧ HoldsCode start (2 * propertyDepth name nested) fun code =>
      renderTag component (Entries.insert properties name (.callback code)) nested := by
  let start := openTag component (Entries.erase properties "children")
  let close := "</" ++ component ++ ">"
  have bracedAt (code : String) : (braced code).toList = ['{'] ++ (code.toList ++ ['}']) :=
    toList_braced code
  by_cases content : name = "children"
  · subst content
    by_cases alone : nested = []
    · subst alone
      have written (code : String) :
          (renderTag component (Entries.insert properties "children" (.callback code)) []).toList =
            ((start ++ ">").toList ++ ['{']) ++ (code.toList ++ '}' :: close.toList) := by
        rw [renderTag_content, tagRest]
        simp only [String.toList_append, bracedAt, start, close, List.append_assoc]
        rfl
      exact holdsCode_inside written
    · obtain ⟨first, noFeed, holds⟩ := holdsCode_inside bracedAt
      have deeper : 2 * propertyDepth "children" nested = 2 + 0 := by
        rw [propertyDepth, if_pos ⟨rfl, alone⟩]
      have begins : LineStart ((start ++ ">").toList ++ ['\n']) := .inr ⟨_, rfl⟩
      have written (code : String) :
          (renderTag component (Entries.insert properties "children" (.callback code))
            nested).toList = ((start ++ ">").toList ++ ['\n']) ++
              (shiftRight (braced code).toList (spaces 2) ++
                '\n' :: ((nestedLines nested).toList ++ close.toList)) := by
        rw [renderTag_content, tagRest_filled _ _ alone, Option.toList_some, List.singleton_append]
        simp only [String.toList_append, toList_nestedLines_cons, start, close, List.append_assoc,
          List.cons_append]
        rfl
      rw [deeper]
      exact ⟨first, noFeed, holds.shift noFeed begins written⟩
  · have flat : 2 * propertyDepth name nested = 0 := by
      rw [propertyDepth, if_neg fun both => content both.1]
    obtain ⟨around, behind, written⟩ := renderTag_attribute component properties content nested
    rw [flat]
    exact holdsCode_inside written

theorem HoldsCode.within {start : List Char} {width : Nat} {write : String → String}
    (holds : HoldsCode start width write) (noFeed : '\n' ∉ start) (levels : List Level) :
    HoldsCode start (2 * levels.length + width) fun code => within levels (write code) := by
  induction levels with
  | nil =>
    rw [List.length_nil, Nat.mul_zero, Nat.zero_add]
    exact holds
  | cons outer inner ih =>
    obtain ⟨front, back, begins, -, rendered⟩ := outer.render_around
    have deeper : 2 * (outer :: inner).length + width = 2 + (2 * inner.length + width) := by
      rw [List.length_cons]
      omega
    rw [deeper]
    exact ih.shift noFeed begins fun code => rendered _

theorem HoldsCode.unitCode {start : List Char} {width : Nat} {write : String → String}
    (holds : HoldsCode start width write) (noFeed : '\n' ∉ start) (format : Format)
    (handlers : Entries String) (imports : List String) (name : String) :
    HoldsCode start (4 + width) fun code =>
      unitCode format handlers imports name (write code) := by
  let head := "import React from 'react';\n" ++
    String.join ((imports.filter (· != "React")).map importLine) ++ "\n" ++
    componentHead format name ++ String.join (handlers.map (handlerBlock format))
  let foot := "\n  );\n" ++ ("\x7d;\n\n" ++ ("export default " ++ (name ++ ";\n")))
  have begins : LineStart (head.toList ++ "  return (\n".toList) := by
    refine .inr ⟨head.toList ++ "  return (".toList, ?_⟩
    rw [List.append_assoc]
    rfl
  have written (code : String) :
      (Component.unitCode format handlers imports name (write code)).toList =
        (head.toList ++ "  return (\n".toList) ++
          (shiftRight (write code).toList (spaces 4) ++ foot.toList) := by
    delta Component.unitCode
    simp only [toList_shiftFragment, String.toList_append, head, foot, List.append_assoc]
    rfl
  exact holds.shift noFeed begins written

/-! ## Every depth -/

/-- Indentation composes. In a text whose lines end with line feeds alone and that does not end with
one, two indentations are the same as one with both leads, and an indentation keeps all lines in
their places and all that is on them. So the lines of a fragment stand below elements with two
spaces in front of them for each level, if the line feeds that elements add behind a fragment do not
meet a carriage return at its end. The code of a callback, such as the function for a handler, keeps
the form of its lines at every depth and in the unit: the line on which it begins and those that
follow are moved alike. -/
theorem indentation_composes :
    (∀ text inner outer, LineFed text → '\n' ∉ inner →
      shiftRight (shiftRight text inner) outer = shiftRight text (outer ++ inner)) ∧
    (∀ text lead, LineFed text → '\n' ∉ lead → joinLines (lines text) = text ∧
      lines (shiftRight text lead) = (lines text).map (shiftLine lead)) ∧
    (∀ levels : List Level, levels ≠ [] → ∃ front back, LineStart front ∧
      ∀ fragment : String, LineFed fragment.toList →
        (levels.length ≤ 1 ∨ fragment.toList.getLast? ≠ some '\r') →
        (within levels fragment).toList =
          front ++ (joinLines ((lines fragment.toList).map
            (shiftLine (spaces (2 * levels.length)))) ++ '\n' :: back)) ∧
    (∀ body, CodeLines (lines (inlineFunction body).toList) ∧
      (inlineFunction body).toList = joinLines (lines (inlineFunction body).toList)) ∧
    ∀ component properties name nested, ∃ start, '\n' ∉ start ∧ ∀ levels : List Level,
      HoldsCode start (2 * (levels.length + propertyDepth name nested)) (fun code =>
        within levels
          (renderTag component (Entries.insert properties name (.callback code)) nested)) ∧
      ∀ format handlers imports unit,
        HoldsCode start (4 + 2 * (levels.length + propertyDepth name nested)) fun code =>
          unitCode format handlers imports unit (within levels
            (renderTag component (Entries.insert properties name (.callback code)) nested)) := by
  refine ⟨fun text inner outer fed noFeed => fed.shiftRight_shiftRight noFeed outer,
    fun text lead fed noFeed => ⟨fed.joinLines_lines, fed.lines_shiftRight noFeed⟩,
    fun levels deep => ?_, fun body => ⟨codeLines_inlineFunction body, ?_⟩,
    fun component properties name nested => ?_⟩
  · obtain ⟨front, back, starts, -, placed⟩ := within_text deep
    exact ⟨front, back, starts, placed⟩
  · rw [lines_inlineFunction, ← toList_inlineFunction]
  · obtain ⟨start, noFeed, holds⟩ := holdsCode_renderTag component properties name nested
    refine ⟨start, noFeed, fun levels => ?_⟩
    have inside := holds.within noFeed levels
    rw [← Nat.mul_add] at inside
    exact ⟨inside, fun format handlers imports unit =>
      inside.unitCode noFeed format handlers imports unit⟩

/-- Below two elements an empty line stays empty, and the others keep their distance. -/
theorem indentation_composes_below_two :
    shiftRight (shiftRight "a\n\n  b".toList ['\t']) [' '] =
      shiftRight "a\n\n  b".toList [' ', '\t'] ∧
    lines (shiftRight "a\n\n  b".toList [' ']) = [" a".toList, [], "   b".toList] ∧
    ∃ front back, (within [⟨"div", [], [], []⟩, ⟨"p", [], [], []⟩] "a\n\n  b").toList =
      front ++ ("    a\n\n      b".toList ++ '\n' :: back) := by
  have fed : LineFed "a\n\n  b".toList := ⟨by decide, by decide⟩
  refine ⟨indentation_composes.1 _ _ _ fed (by decide), ?_, ?_⟩
  · exact (indentation_composes.2.1 _ [' '] fed (by decide)).2
  · obtain ⟨front, back, -, placed⟩ :=
      indentation_composes.2.2.1 [⟨"div", [], [], []⟩, ⟨"p", [], [], []⟩] (by simp)
    exact ⟨front, back, placed _ fed (.inr (by decide))⟩

/-- The line feed behind the inner element ends the line with the carriage return. -/
theorem carriage_return_lost_below_two :
    LineFed "a\r".toList ∧
    within [⟨"div", [], [], []⟩, ⟨"div", [], [], []⟩] "a\r" =
      "<div>\n  <div>\n    a\n  </div>\n</div>" ∧
    ¬shiftRight "a\r".toList (spaces (2 * 2)) <:+:
      (within [⟨"div", [], [], []⟩, ⟨"div", [], [], []⟩] "a\r").toList := by
  have written : within [⟨"div", [], [], []⟩, ⟨"div", [], [], []⟩] "a\r" =
      "<div>\n  <div>\n    a\n  </div>\n</div>" := rfl
  refine ⟨⟨by decide, by decide⟩, written, ?_⟩
  rw [written]
  decide

end Formwright.Component
