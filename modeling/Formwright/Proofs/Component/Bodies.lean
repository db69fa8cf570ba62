import Formwright.Proofs.Component.Callback
import Formwright.Proofs.Text.Reading
import Formwright.Proofs.Text.Passages

/-!
The lines of a handler body in the functions written for it. The function in an attribute and the
one of a constant hold the same lines, and these hold every character of the cleaned body that is
no blank.
-/

namespace Formwright.Component

open Script Text

/-! ## Lines of functions -/

def spaced (line : List Char) : List Char := if line = [] then [] else ' ' :: ' ' :: line

def blockLines (head last : List Char) (body : List (List Char)) : List (List Char) :=
  head :: body.map spaced ++ [last]

def lineComment : List Char := ['/', '/']

def inlineHead : List Char := ['(', 'e', ')', ' ', '=', '>', ' ', '{']

def inlineLines : List (List Char) → List (List Char)
  | [] => ["() => \x7b\x7d".toList]
  | [line] =>
    if lineComment <:+: line then blockLines inlineHead ['}'] [line]
    else [inlineHead ++ ' ' :: (line ++ [' ', '}'])]
  | body => blockLines inlineHead ['}'] body

def namedLines (head : List Char) : List (List Char) → List (List Char)
  | [] => [head ++ ['}', ';']]
  | body => blockLines head ['}', ';'] body

theorem indentedLines_eq (body : List (List Char)) : indentedLines body = body.map spaced := by
  apply List.map_congr_left
  intro line _
  cases line <;> rfl

theorem map_toList_namedFunction (handler body : String) (format : Format) :
    (namedFunction handler body format).map String.toList =
      namedLines ("const " ++ handlerName handler ++ " = (" ++ parameter format ++ ") => \x7b").toList
        (bodyLines body) := by
  have back (parts : List (List Char)) : (parts.map String.ofList).map String.toList = parts := by
    simp [List.map_map, Function.comp_def]
  rw [namedFunction]
  cases bodyLines body with
  | nil => rw [List.map_singleton, String.toList_append, namedLines]; rfl
  | cons line later =>
    rw [namedLines, blockLines, List.map_append, List.map_cons, back, indentedLines_eq]
    · rfl
    · exact List.cons_ne_nil line later

theorem toList_block (body : List (List Char)) :
    (inlineFunction.block body).toList = joinLines (blockLines inlineHead ['}'] body) := by
  rw [inlineFunction.block, String.toList_append, String.toList_append, toList_join_lines,
    blockLines, joinLines_cons, indentedLines_eq]
  rfl

theorem toList_inlineFunction (body : String) :
    (inlineFunction body).toList = joinLines (inlineLines (bodyLines body)) := by
  rw [inlineFunction]
  cases bodyLines body with
  | nil => rfl
  | cons line later =>
    cases later with
    | cons next others => exact toList_block _
    | nil =>
      have asked : occursIn ['/', '/'] line = true ↔ lineComment <:+: line :=
        occursIn_iff lineComment line
      rw [inlineLines]
      dsimp only
      by_cases comment : lineComment <:+: line
      · rw [if_pos comment, if_pos (asked.mpr comment)]
        exact toList_block [line]
      · rw [if_neg comment, if_neg (mt asked.mp comment)]
        simp [joinLines, inlineHead]

theorem isLine_spaced {line : List Char} (isLine : IsLine line) : IsLine (spaced line) := by
  obtain ⟨noFeed, noReturn⟩ := isLine
  rw [spaced]
  split
  next => exact ⟨List.not_mem_nil, by simp⟩
  next filled =>
    refine ⟨by simpa using noFeed, ?_⟩
    rw [List.getLast?_eq_some_getLast filled] at noReturn
    simpa [List.getLast?_cons, List.getLast?_eq_some_getLast filled] using noReturn

theorem isLine_inlineLines {body : List (List Char)} (isLine : ∀ line ∈ body, IsLine line) :
    ∀ part ∈ inlineLines body, IsLine part := by
  have block : ∀ part ∈ blockLines inlineHead ['}'] body, IsLine part := by
    rw [blockLines, List.cons_append, List.forall_mem_cons, List.forall_mem_append,
      List.forall_mem_singleton]
    refine ⟨⟨by decide, by decide⟩, fun part mem => ?_, ⟨by decide, by decide⟩⟩
    obtain ⟨line, inside, rfl⟩ := List.mem_map.mp mem
    exact isLine_spaced (isLine line inside)
  unfold inlineLines
  split
  next =>
    rw [List.forall_mem_singleton]
    exact ⟨by decide, by decide⟩
  next line =>
    split
    next => exact block
    next =>
      have noFeed : '\n' ∉ line := (isLine line List.mem_cons_self).1
      rw [List.forall_mem_singleton]
      refine ⟨by simpa [inlineHead] using noFeed, ?_⟩
      simp [List.getLast?_cons]
  next => exact block

theorem head_inlineLines (body : List (List Char)) :
    ∀ part ∈ (inlineLines body).head?, part ≠ [] := by
  unfold inlineLines
  split
  next =>
    rintro part ⟨⟩
    decide
  next line =>
    split
    · rintro part ⟨⟩
      decide
    · rintro part ⟨⟩
      simp [inlineHead]
  next =>
    rintro part ⟨⟩
    decide

/-! ## The brace at the end -/

/-- A text without a line comment has none when it is put between spaces. -/
theorem noComment_between {line : List Char} (noComment : ¬lineComment <:+: line) :
    ¬lineComment <:+: inlineHead ++ ' ' :: (line ++ [' ', '}']) := by
  intro found
  obtain inHead | behind := infix_around (by decide) found
  · exact absurd inHead (by decide)
  · obtain inLine | inEnd := infix_around (by decide) behind
    · exact noComment inLine
    · exact absurd inEnd (by decide)

/-- The line with the brace at the end holds no line comment. -/
theorem inlineLines_end (body : List (List Char)) :
    ∃ earlier last, inlineLines body = earlier ++ [last] ∧ last.getLast? = some '}' ∧
      ¬lineComment <:+: last := by
  have block : ∃ earlier last, blockLines inlineHead ['}'] body = earlier ++ [last] ∧
      last.getLast? = some '}' ∧ ¬lineComment <:+: last :=
    ⟨inlineHead :: body.map spaced, ['}'], rfl, rfl, by decide⟩
  unfold inlineLines
  split
  next => exact ⟨[], _, (List.nil_append _).symm, by decide +kernel, by decide +kernel⟩
  next line =>
    split
    next => exact block
    next noComment =>
      refine ⟨[], _, (List.nil_append _).symm, ?_, noComment_between noComment⟩
      simp [List.getLast?_cons]
  next => exact block

/-- A function over several lines is read as these lines. -/
theorem lines_inlineLines {body : List (List Char)} (isLine : ∀ line ∈ body, IsLine line) :
    lines (joinLines (inlineLines body)) = inlineLines body := by
  have parts := isLine_inlineLines isLine
  obtain ⟨earlier, last, split, brace, -⟩ := inlineLines_end body
  rw [split, List.forall_mem_append, List.forall_mem_singleton] at parts
  have filled : last ≠ [] := by
    rintro rfl
    cases brace
  rw [split]
  exact lines_joinLines parts.1 filled parts.2.1

theorem lines_inlineFunction (body : String) :
    lines (inlineFunction body).toList = inlineLines (bodyLines body) := by
  rw [toList_inlineFunction]
  exact lines_inlineLines (isLine_shiftLeft _)

/-- The functions of a handler hold the lines of its cleaned body, the one in an attribute on a line
of its own if nothing can hide the brace behind it. There is one line for each line of the body: the
first as it is, the others without some of the blanks in front of them, all without the blanks
behind them. Every other character is kept, in its order. -/
theorem functions_carry_lines (body : String) :
    let source := cleanBody body.toList
    let kept := bodyLines body
    (∀ handler format, (namedFunction handler body format).map String.toList =
      namedLines ("const " ++ handlerName handler ++ " = (" ++ parameter format ++ ") => \x7b").toList
        kept) ∧
    (inlineFunction body).toList = joinLines (inlineLines kept) ∧
    lines (inlineFunction body).toList = inlineLines kept ∧
    (∃ earlier last, inlineLines kept = earlier ++ [last] ∧ last.getLast? = some '}' ∧
      ¬lineComment <:+: last) ∧
    kept.length = (lines (trim source)).length ∧
    kept.head? = (lines (trim source)).head?.map trimEnd ∧
    List.Forall₂ CutTo (lines (trim source)) kept ∧
    dark kept.flatten = dark source := by
  intro source kept
  obtain ⟨first, cuts⟩ := shiftLeft_lines source
  have isLine : ∀ line ∈ kept, IsLine line := isLine_shiftLeft source
  refine ⟨fun handler format => map_toList_namedFunction handler body format,
    toList_inlineFunction body, ?_, inlineLines_end kept, cuts.length_eq.symm, first, cuts,
    dark_shiftLeft source⟩
  rw [toList_inlineFunction]
  exact lines_inlineLines isLine

end Formwright.Component
