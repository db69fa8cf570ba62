import Formwright.Proofs.Entries
import Formwright.Proofs.Script.Layout

/-!
The bodies that are found in a script can be read on their own. On a line of its own such a body
opens and closes nothing in what surrounds it, so that the search for a brace passes over it.
-/

namespace Formwright.Script

open Text

namespace Mode

theorem nesting_add {depth inner : Nat} {text : List Char} (ends : nesting depth text = some inner)
    (more : Nat) : nesting (depth + more) text = some (inner + more) := by
  fun_induction nesting depth text with
  | case1 depth =>
    injection ends with same
    rw [nesting, same]
  | case2 depth rest ih =>
    have deeper : depth + more + 1 = depth + 1 + more := Nat.add_right_comm depth more 1
    unfold nesting
    rw [if_pos rfl, deeper]
    exact ih ends
  | case3 => cases ends
  | case4 rest outer _ ih =>
    have outside : outer + 1 + more = outer + more + 1 := Nat.add_right_comm outer 1 more
    rw [outside]
    exact ih ends
  | case5 depth c rest noOpen noClose ih =>
    unfold nesting
    rw [if_neg noOpen, if_neg noClose]
    exact ih ends

theorem code_of_lineFeed {mode : Mode} (reads : (mode.next '\n').readsCode = true) :
    mode.next '\n' = .code := by
  have resting := rests_next_lineFeed mode
  cases ends : mode.next '\n' with
  | code => rfl
  | slash =>
    rw [ends] at resting
    cases resting
  | _ =>
    rw [ends] at reads
    cases reads

end Mode

section Closed

variable {body : List Char} (closes : closesAfter (body ++ ['\n']) = true)

include closes

theorem level_of_closed : Mode.nesting 0 (Mode.code.braces body) = some 0 :=
  ((closesAfter_line_iff body).mp closes).1

theorem code_of_closed : Mode.code.after (body ++ ['\n']) = .code := by
  rw [Mode.after_append]
  exact Mode.code_of_lineFeed ((closesAfter_line_iff body).mp closes).2

/-- The search for a closing brace passes over the line that holds the body. -/
theorem closingBrace_behind (depth : Nat) (later : List Char) :
    closingBrace depth (body ++ '\n' :: later) = closingBrace depth later := by
  have line : body ++ '\n' :: later = (body ++ ['\n']) ++ later :=
    (List.append_assoc body ['\n'] later).symm
  have noBrace : (Mode.code.after body).braces ['\n'] = [] :=
    Mode.braces_of_plain (plain_of_all (by decide)) _
  have level : Mode.nesting depth (Mode.code.braces (body ++ ['\n'])) = some depth := by
    have shifted := Mode.nesting_add (level_of_closed closes) depth
    rw [Nat.zero_add] at shifted
    rw [Mode.braces_append, noBrace, List.append_nil, shifted]
  rw [line, Mode.closingBrace_eq_closing, Mode.closing_append, level, code_of_closed closes,
    Mode.closingBrace_eq_closing]

theorem blockEnd_behind (later : List Char) :
    blockEnd (body ++ '\n' :: '}' :: later) = some (body.length + 1) := by
  have brace : closingBrace 0 ('}' :: later) = some ('}' :: later) := by
    rw [closingBrace, if_neg (by decide), if_pos rfl]
  rw [blockEnd, closingBrace_behind closes, brace, Option.map_some, List.length_append,
    List.length_cons]
  congr 1
  omega

end Closed

theorem declaration_of_handler {script : String} {name body : String}
    (mem : (name, body) ∈ handlers script) :
    ∃ declaration ∈ Declaration.all script.toList,
      declaration.body = some body.toList ∧ String.ofList declaration.name = name := by
  obtain ⟨declaration, declared, found⟩ := List.mem_filterMap.mp (Entries.mem_of_mem_ofPairs mem)
  obtain ⟨inside, ends, same⟩ := Option.map_eq_some_iff.mp found
  injection same with named written
  refine ⟨declaration, declared, ?_, named⟩
  rw [ends, ← written, String.toList_ofList]

theorem isTrimmed_body {declaration : Declaration} {body : List Char}
    (found : declaration.body = some body) : isTrimmed body = true := by
  obtain ⟨length, _, rfl⟩ := Option.map_eq_some_iff.mp found
  exact isTrimmed_trim _

/-- The body of a handler is trimmed, closes its block with the brace that is put on the line behind
it and not before, and ends outside of strings, comments and inner blocks. Whatever surrounds it,
a closing brace is found behind it exactly as if it were not there. -/
theorem handler_bodies_stand_alone (script : String) {name body : String}
    (mem : (name, body) ∈ handlers script) :
    isTrimmed body.toList = true ∧
      blockEnd (body.toList ++ ['\n', '}']) = some (body.toList.length + 1) ∧
      Mode.nesting 0 (Mode.code.braces body.toList) = some 0 ∧
      Mode.code.after (body.toList ++ ['\n']) = .code ∧
      ∀ depth later,
        closingBrace depth (body.toList ++ '\n' :: later) = closingBrace depth later := by
  obtain ⟨declaration, _, found, _⟩ := declaration_of_handler mem
  have closes := closesAfter_body found
  exact ⟨isTrimmed_body found, blockEnd_behind closes [], level_of_closed closes,
    code_of_closed closes, closingBrace_behind closes⟩

def commentedScript : String :=
  "this.lost = function() \x7b\nfunction this.go(obj, e) \x7b\n  if (a) \x7b b(\"\x7d\"); \x7d\n" ++
    "  // stray \x7d  \n\x7d"

def commentedBody : String := "if (a) \x7b b(\"\x7d\"); \x7d\n  // stray \x7d"

theorem commentedBody_stands_alone :
    ("go", commentedBody) ∈ handlers commentedScript ∧
      blockEnd (commentedBody.toList ++ ['\n', '}']) = some (commentedBody.toList.length + 1) := by
  have mem : ("go", commentedBody) ∈ handlers commentedScript := by decide +kernel
  exact ⟨mem, (handler_bodies_stand_alone commentedScript mem).2.1⟩

end Formwright.Script
