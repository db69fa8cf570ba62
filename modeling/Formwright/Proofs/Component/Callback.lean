import Formwright.Component.Callback
import Formwright.Proofs.Script.Cleanup
import Formwright.Proofs.Script.Layout

/-!
The functions that are written for a handler. Their blocks end with the brace that is written for
the purpose when the body, cleaned, does not close its block before.
-/

namespace Formwright.Component

open Script Text

def WritesBlock (head text behind : List Char) : Prop :=
  ∃ inside, text = head ++ '{' :: (inside ++ '}' :: behind) ∧ closesAfter inside = true

theorem toList_join_lines (lines : List (List Char)) :
    (String.join (lines.map fun line => String.ofList line ++ "\n")).toList =
      linesWritten lines := by
  rw [String.toList_join, linesWritten, List.flatMap_map]
  congr 1
  funext line
  rw [String.toList_append, String.toList_ofList]
  rfl

theorem joinLines_cons (line : List Char) (later : List (List Char)) (last : List Char) :
    joinLines (line :: later ++ [last]) = line ++ '\n' :: (linesWritten later ++ last) := by
  induction later generalizing line with
  | nil => simp [joinLines, List.intercalate, linesWritten]
  | cons next later ih =>
    have step : joinLines (line :: next :: later ++ [last]) =
        line ++ '\n' :: joinLines (next :: later ++ [last]) := rfl
    rw [step, ih, linesWritten_cons, List.append_assoc]
    rfl

theorem blank_of_all {text : List Char} (blank : text.all isBlank = true) : Blank text :=
  List.all_eq_true.mp blank

/-- Indented lines behind a line feed close a block as the body does. -/
theorem closesAfter_indentedLines {text : List Char}
    (closes : closesAfter (text ++ ['\n']) = true) :
    closesAfter ('\n' :: linesWritten (indentedLines (shiftLeft text))) = true := by
  have shifted : SameText (linesWritten (indentedLines (shiftLeft text)))
      (linesWritten (shiftLeft text)) := by
    apply sameText_map
    intro line _
    obtain ⟨before, split, blank⟩ :
        ∃ before, shiftLine indentation line = before ++ line ∧ Blank before :=
      shiftLine_split (blank_of_all (by decide))
    rw [split]
    exact sameLine_blankBefore blank line
  have lineFeed : SameText (['\n'] ++ linesWritten (indentedLines (shiftLeft text)))
      (linesWritten (indentedLines (shiftLeft text))) :=
    sameText_blankBefore (blank_of_all (by decide)) _
  have whole := lineFeed.trans (shifted.trans (sameText_shiftLeft text))
  obtain ⟨braces, ends⟩ := whole .code rfl
  obtain ⟨nests, reads⟩ := (closesAfter_iff _).mp (closesAfter_trim closes)
  rw [← braces] at nests
  rw [← ends] at reads
  exact (closesAfter_iff _).mpr ⟨nests, reads⟩

/-- A single line without a line comment closes a block between spaces as it does between line
feeds. -/
theorem closesAfter_spaced {text line : List Char} (single : shiftLeft text = [line])
    (noSlashes : occursIn ['/', '/'] line = false) (closes : closesAfter (text ++ ['\n']) = true) :
    closesAfter (' ' :: (line ++ [' '])) = true := by
  obtain ⟨nests, reads⟩ := (closesAfter_iff _).mp (closesAfter_trim closes)
  have same := sameText_shiftLeft text .code rfl
  rw [single] at same
  rw [← same.1] at nests
  rw [← same.2] at reads
  have lines : linesWritten [line] = line ++ ['\n'] := linesWritten_cons line []
  rw [lines] at nests reads
  obtain ⟨nests, reads⟩ := (closesAfter_line_iff line).mp ((closesAfter_iff _).mpr ⟨nests, reads⟩)
  have notIn : Mode.code.after line ≠ .lineComment :=
    Mode.after_ne_lineComment noSlashes (by simp) (by simp)
  have space : (Mode.code.after line).next ' ' = (Mode.code.after line).next '\n' := by
    rw [Mode.next_plain (by decide) (fun line => absurd line notIn),
      Mode.next_plain (by decide) (fun line => absurd line notIn)]
  have blank : Blank [' '] := blank_of_all (by decide)
  obtain ⟨braces, ends⟩ := sameText_blankBefore blank (line ++ [' ']) .code rfl
  apply (closesAfter_iff _).mpr
  show Mode.nesting 0 (Mode.code.braces ([' '] ++ (line ++ [' ']))) = some 0 ∧
    (Mode.code.after ([' '] ++ (line ++ [' ']))).readsCode = true
  rw [braces, ends, Mode.braces_append, braces_blank blank, List.append_nil, Mode.after_append]
  rw [← space] at reads
  exact ⟨nests, reads⟩

theorem block_writes {text : List Char} (closes : closesAfter (text ++ ['\n']) = true) :
    WritesBlock "(e) => ".toList (inlineFunction.block (shiftLeft text)).toList [] := by
  refine ⟨_, ?_, closesAfter_indentedLines closes⟩
  rw [inlineFunction.block, String.toList_append, String.toList_append, toList_join_lines]
  rfl

/-- The function in an attribute ends with its last brace. -/
theorem inlineFunction_writes {body : String}
    (closes : closesAfter (cleanBody body.toList ++ ['\n']) = true) :
    ∃ head ∈ ["() => ", "(e) => "], WritesBlock head.toList (inlineFunction body).toList [] := by
  rw [inlineFunction]
  split
  next => exact ⟨"() => ", List.mem_cons_self, [], rfl, by decide +kernel⟩
  next line single =>
    refine ⟨"(e) => ", List.mem_cons_of_mem _ List.mem_cons_self, ?_⟩
    split
    next =>
      rw [← single]
      exact block_writes closes
    next noSlashes =>
      refine ⟨_, ?_, closesAfter_spaced single (Bool.eq_false_iff.mpr noSlashes) closes⟩
      rw [String.toList_append, String.toList_append, String.toList_ofList]
      simp
  next => exact ⟨"(e) => ", List.mem_cons_of_mem _ List.mem_cons_self, block_writes closes⟩

/-- The function of a constant ends with its last brace, before the semicolon. -/
theorem namedFunction_writes {body : String} (handler : String) (format : Format)
    (closes : closesAfter (cleanBody body.toList ++ ['\n']) = true) :
    WritesBlock ("const " ++ handlerName handler ++ " = (" ++ parameter format ++ ") => ").toList
      (joinLines ((namedFunction handler body format).map String.toList)) [';'] := by
  have opens :
      ("const " ++ handlerName handler ++ " = (" ++ parameter format ++ ") => \x7b").toList =
        ("const " ++ handlerName handler ++ " = (" ++ parameter format ++ ") => ").toList ++
          ['{'] := by
    simp [String.toList_append]
  unfold namedFunction
  split
  next =>
    refine ⟨[], ?_, by decide +kernel⟩
    show joinLines [String.toList (_ ++ "\x7d;")] = _
    rw [String.toList_append, opens]
    simp [joinLines, List.intercalate]
  next =>
    refine ⟨_, ?_, closesAfter_indentedLines closes⟩
    have back : ∀ lines : List (List Char),
        (lines.map String.ofList).map String.toList = lines := by
      intro lines
      simp [List.map_map, Function.comp_def]
    rw [List.map_append, List.map_cons, back]
    show joinLines (_ :: _ ++ ["\x7d;".toList]) = _
    rw [joinLines_cons, opens]
    simp [bodyLines]

/-- Every body that a declaration has closes its block. A body that closes its block still does when
it is cleaned, and so do the functions written for it, if no character that is left is read in
another way than before. Which bodies these are can be seen from the matches: none may part two
characters that mean something together, or take the end of a line comment away from what
follows. -/
theorem functions_of_closed_body (body : String) :
    (∀ declaration : Declaration, declaration.body = some body.toList →
      closesAfter (body.toList ++ ['\n']) = true) ∧
    (cleansSafely body.toList = true ↔
      KeepsReading contextWord [] body.toList ∧
        KeepsReading objectAnnotation "obj".toList (bareBody body.toList) ∧
        KeepsReading eventAnnotation ['e'] (plainBody body.toList)) ∧
    (cleansSafely body.toList = true → closesAfter (body.toList ++ ['\n']) = true →
      closesAfter (cleanBody body.toList ++ ['\n']) = true ∧
        (∃ head ∈ ["() => ", "(e) => "],
          WritesBlock head.toList (inlineFunction body).toList []) ∧
        ∀ handler format,
          WritesBlock
            ("const " ++ handlerName handler ++ " = (" ++ parameter format ++ ") => ").toList
            (joinLines ((namedFunction handler body format).map String.toList)) [';']) := by
  refine ⟨fun _ found => closesAfter_body found, cleansSafely_iff body.toList, ?_⟩
  intro safe closes
  have cleaned : closesAfter (cleanBody body.toList ++ ['\n']) = true := by
    rw [closesAfter_cleanBody safe]
    exact closes
  refine ⟨cleaned, inlineFunction_writes cleaned, ?_⟩
  intro handler format
  exact namedFunction_writes handler format cleaned

def nestedBody : String :=
  "if (this.ok) \x7b on(function(obj: Button) \x7b '\x7d' \x7d); // this. \x7d\n\x7d"

theorem functions_of_nestedBody :
    (⟨['f'], nestedBody.toList ++ ['}']⟩ : Declaration).body = some nestedBody.toList ∧
      cleansSafely nestedBody.toList = true ∧
      closesAfter (cleanBody nestedBody.toList ++ ['\n']) = true := by
  have declared : (⟨['f'], nestedBody.toList ++ ['}']⟩ : Declaration).body =
      some nestedBody.toList := by
    decide +kernel
  have safe : cleansSafely nestedBody.toList = true := by decide +kernel
  obtain ⟨closes, _, cleaned⟩ := functions_of_closed_body nestedBody
  exact ⟨declared, safe, (cleaned safe (closes _ declared)).1⟩

/-- Without the prefix two slashes become a line comment, and without the line feed of an
annotation a line comment goes on. Both hide a brace. -/
theorem cleaning_hides_brace :
    ((Declaration.all "this.f = function() \x7b \x7b /this./ \x7d \x7d".toList).map
          Declaration.body = [some "\x7b /this./ \x7d".toList] ∧
      closesAfter ("\x7b /this./ \x7d".toList ++ ['\n']) = true ∧
      closesAfter (cleanBody "\x7b /this./ \x7d".toList ++ ['\n']) = false) ∧
    closesAfter ("\x7b // obj:\nButton \x7d".toList ++ ['\n']) = true ∧
      closesAfter (cleanBody "\x7b // obj:\nButton \x7d".toList ++ ['\n']) = false := by
  decide +kernel

end Formwright.Component
