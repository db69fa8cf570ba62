import Formwright.Script.Block

/-!
A script read character by character. The mode says how the next character is read, and the search
for a closing brace is the same whether it jumps over strings and comments or walks through them.
-/

namespace Formwright.Script

abbrev Quote := { c : Char // isQuote c = true }

/-- How a character is read. After a slash in code, a backslash in a string and an asterisk in a
block comment the next character decides what it means. -/
inductive Mode
  | code
  | slash
  | string (quote : Quote)
  | escape (quote : Quote)
  | lineComment
  | blockComment
  | star
deriving DecidableEq

namespace Mode

def ofCode (c : Char) : Mode :=
  if quoted : isQuote c = true then .string ⟨c, quoted⟩ else if c = '/' then .slash else .code

def next : Mode → Char → Mode
  | .code, c => ofCode c
  | .slash, c => if c = '/' then .lineComment else if c = '*' then .blockComment else ofCode c
  | .string quote, c =>
    if c = quote.val then .code else if c = '\\' then .escape quote else .string quote
  | .escape quote, _ => .string quote
  | .lineComment, c => if c = '\n' then .code else .lineComment
  | .blockComment, c => if c = '*' then .star else .blockComment
  | .star, c => if c = '/' then .code else if c = '*' then .star else .blockComment

def after (mode : Mode) (text : List Char) : Mode := text.foldl next mode

def readsCode : Mode → Bool
  | .code | .slash => true
  | _ => false

def braces (mode : Mode) : List Char → List Char
  | [] => []
  | c :: rest =>
    if mode.readsCode && (c = '{' || c = '}') then c :: braces (mode.next c) rest
    else braces (mode.next c) rest

theorem after_cons (mode : Mode) (c : Char) (rest : List Char) :
    mode.after (c :: rest) = (mode.next c).after rest := rfl

theorem after_append (mode : Mode) (first second : List Char) :
    mode.after (first ++ second) = (mode.after first).after second := List.foldl_append

theorem braces_append (mode : Mode) (first second : List Char) :
    mode.braces (first ++ second) = mode.braces first ++ (mode.after first).braces second := by
  induction first generalizing mode with
  | nil => rfl
  | cons c first ih =>
    simp only [List.cons_append, braces, ih]
    split <;> rfl

theorem braces_cons (mode : Mode) (c : Char) (rest : List Char) :
    mode.braces (c :: rest) =
      if mode.readsCode = true ∧ (c = '{' ∨ c = '}') then c :: (mode.next c).braces rest
      else (mode.next c).braces rest := by
  simp [braces]

theorem braces_open {mode : Mode} (reads : mode.readsCode = true) (rest : List Char) :
    mode.braces ('{' :: rest) = '{' :: (mode.next '{').braces rest := by
  simp [braces, reads]

theorem braces_close {mode : Mode} (reads : mode.readsCode = true) (rest : List Char) :
    mode.braces ('}' :: rest) = '}' :: (mode.next '}').braces rest := by
  simp [braces, reads]

theorem braces_other {mode : Mode} {c : Char} (noOpen : ¬(mode.readsCode = true ∧ c = '{'))
    (noClose : ¬(mode.readsCode = true ∧ c = '}')) (rest : List Char) :
    mode.braces (c :: rest) = (mode.next c).braces rest := by
  have plain : ¬(mode.readsCode = true ∧ (c = '{' ∨ c = '}')) := fun brace =>
    brace.2.elim (fun same => noOpen ⟨brace.1, same⟩) (fun same => noClose ⟨brace.1, same⟩)
  simp [braces, plain]

def closing (mode : Mode) (depth : Nat) : List Char → Option (List Char)
  | [] => none
  | c :: rest =>
    if mode.readsCode && c = '{' then closing (mode.next c) (depth + 1) rest
    else if mode.readsCode && c = '}' then
      match depth with
      | 0 => some (c :: rest)
      | outer + 1 => closing (mode.next c) outer rest
    else closing (mode.next c) depth rest

theorem closing_open {mode : Mode} (reads : mode.readsCode = true) (depth : Nat)
    (rest : List Char) :
    mode.closing depth ('{' :: rest) = (mode.next '{').closing (depth + 1) rest := by
  simp [closing, reads]

theorem closing_close {mode : Mode} (reads : mode.readsCode = true) (depth : Nat)
    (rest : List Char) :
    mode.closing depth ('}' :: rest) =
      match depth with
      | 0 => some ('}' :: rest)
      | outer + 1 => (mode.next '}').closing outer rest := by
  simp [closing, reads]

theorem closing_other {mode : Mode} {c : Char} (noOpen : ¬(mode.readsCode = true ∧ c = '{'))
    (noClose : ¬(mode.readsCode = true ∧ c = '}')) (depth : Nat) (rest : List Char) :
    mode.closing depth (c :: rest) = (mode.next c).closing depth rest := by
  simp [closing, noOpen, noClose]

theorem closing_outside {mode : Mode} (outside : mode.readsCode = false) (depth : Nat) (c : Char)
    (rest : List Char) : mode.closing depth (c :: rest) = (mode.next c).closing depth rest := by
  simp [closing, outside]

theorem closing_lineComment (depth : Nat) (text : List Char) :
    lineComment.closing depth text = code.closing depth (afterLineComment text) := by
  induction text with
  | nil => rfl
  | cons c text ih =>
    rw [closing_outside rfl, next, afterLineComment]
    split
    next => rfl
    next => exact ih

theorem closing_string (quote : Quote) (depth : Nat) (text : List Char) :
    (string quote).closing depth text = code.closing depth (afterString quote.val text) := by
  fun_induction afterString quote.val text with
  | case1 => rfl
  | case2 rest => rw [closing_outside rfl, next, if_pos rfl]
  | case3 differs =>
    rw [closing_outside rfl, next, if_neg differs, if_pos rfl]
    rfl
  | case4 c later differs ih =>
    rw [closing_outside rfl, next, if_neg differs, if_pos rfl, closing_outside rfl, ← ih]
    rfl
  | case5 c rest differs plain ih =>
    rw [closing_outside rfl, next, if_neg differs, if_neg plain, ih]

theorem closing_star (depth : Nat) (c : Char) (text : List Char) :
    star.closing depth (c :: text) =
      if c = '/' then code.closing depth text else blockComment.closing depth (c :: text) := by
  rw [closing_outside rfl, closing_outside rfl, next, next]
  split <;> rfl

theorem closing_blockComment (depth : Nat) (text : List Char) :
    blockComment.closing depth text = code.closing depth (afterBlockComment text) := by
  fun_induction afterBlockComment text with
  | case1 => rfl
  | case2 later =>
    rw [closing_outside rfl, next, if_pos rfl, closing_outside rfl, next, if_pos rfl]
  | case3 c later differs ih => rw [← ih, closing_outside rfl, next, if_neg differs]
  | case4 c rest open_ ih =>
    rw [← ih, closing_outside rfl, next]
    split
    next =>
      cases rest with
      | nil => rfl
      | cons d rest =>
        have noEnd : d ≠ '/' := fun same => open_ rest (same ▸ rfl)
        rw [closing_star, if_neg noEnd]
    next => rfl

/-- After a slash that begins no comment code goes on. -/
theorem closing_slash (depth : Nat) (text : List Char) (noLine : text.head? ≠ some '/')
    (noBlock : text.head? ≠ some '*') : slash.closing depth text = code.closing depth text := by
  cases text with
  | nil => rfl
  | cons c text =>
    have line : c ≠ '/' := fun same => noLine (congrArg some same)
    have block : c ≠ '*' := fun same => noBlock (congrArg some same)
    simp only [closing, readsCode, next, line, block, if_false]
    rfl

theorem ofCode_quote {c : Char} (quoted : isQuote c = true) : ofCode c = .string ⟨c, quoted⟩ := by
  simp only [ofCode, quoted, dite_true]

theorem ofCode_plain {c : Char} (noQuote : ¬isQuote c = true) (noSlash : c ≠ '/') :
    ofCode c = .code := by
  rw [ofCode, dif_neg noQuote, if_neg noSlash]

theorem readsCode_next {c : Char} (brace : c = '{' ∨ c = '}') (mode : Mode) :
    (mode.next c).readsCode = mode.readsCode := by
  have noQuote : ¬isQuote c = true := by
    obtain rfl | rfl := brace <;> decide
  have others : c ≠ '/' ∧ c ≠ '*' ∧ c ≠ '\\' ∧ c ≠ '\n' := by
    obtain rfl | rfl := brace <;> decide
  obtain ⟨noSlash, noStar, noEscape, noFeed⟩ := others
  cases mode with
  | string quote =>
    have other : c ≠ quote.val := fun same => noQuote (same ▸ quote.property)
    simp only [next, readsCode, other, noEscape, if_false]
  | _ =>
    simp only [next, readsCode, ofCode_plain noQuote noSlash, noSlash, noStar,
      noFeed, if_false]

theorem closing_code {c : Char} (noOpen : c ≠ '{') (noClose : c ≠ '}') (depth : Nat)
    (rest : List Char) : code.closing depth (c :: rest) = (ofCode c).closing depth rest := by
  simp only [closing, noOpen, noClose, decide_false, Bool.and_false, Bool.false_eq_true, if_false]
  rfl

/-- Both searches find the same brace. -/
theorem closingBrace_eq_closing (depth : Nat) (text : List Char) :
    closingBrace depth text = code.closing depth text := by
  fun_induction closingBrace depth text with
  | case1 => rfl
  | case2 depth rest ih => exact ih
  | case3 => rfl
  | case4 rest outer _ ih => exact ih
  | case5 depth c rest noOpen noClose quoted ih =>
    rw [ih, closing_code noOpen noClose, ofCode_quote quoted, closing_string]
  | case6 depth c rest noOpen noClose _ begins ih =>
    simp only [Bool.and_eq_true, decide_eq_true_eq, beq_iff_eq] at begins
    obtain ⟨rfl, second⟩ := begins
    obtain ⟨rest, rfl⟩ := List.head?_eq_some_iff.mp second
    rw [ih, afterLineComment, if_neg (by decide), ← closing_lineComment]
    rfl
  | case7 depth c rest noOpen noClose _ _ begins ih =>
    simp only [Bool.and_eq_true, decide_eq_true_eq, beq_iff_eq] at begins
    obtain ⟨rfl, second⟩ := begins
    obtain ⟨rest, rfl⟩ := List.head?_eq_some_iff.mp second
    rw [ih, List.tail_cons, ← closing_blockComment]
    rfl
  | case8 depth c rest noOpen noClose noQuote noLine noBlock ih =>
    -- A slash that begins no comment is read in a mode of its own, but finds the same brace.
    rw [ih, closing_code noOpen noClose]
    by_cases slash : c = '/'
    next =>
      subst slash
      have noLine : rest.head? ≠ some '/' := by simpa using noLine
      have noBlock : rest.head? ≠ some '*' := by simpa using noBlock
      exact (closing_slash depth rest noLine noBlock).symm
    next => rw [ofCode_plain noQuote slash]

/-- How deep a text of braces ends, unless it closes the block in which it begins. -/
def nesting : Nat → List Char → Option Nat
  | depth, [] => some depth
  | depth, c :: rest =>
    if c = '{' then nesting (depth + 1) rest
    else if c = '}' then
      match depth with
      | 0 => none
      | outer + 1 => nesting outer rest
    else nesting depth rest

/-- A block that its inside does not close is closed by what follows. -/
theorem closing_append (mode : Mode) (depth : Nat) (inside later : List Char) :
    mode.closing depth (inside ++ later) =
      match nesting depth (mode.braces inside) with
      | some inner => (mode.after inside).closing inner later
      | none => (mode.closing depth inside).map (· ++ later) := by
  induction inside generalizing mode depth with
  | nil => rfl
  | cons c inside ih =>
    rw [after_cons, List.cons_append]
    by_cases opened : mode.readsCode = true ∧ c = '{'
    next =>
      obtain ⟨reads, rfl⟩ := opened
      rw [closing_open reads, closing_open reads, braces_open reads]
      exact ih _ _
    next =>
      by_cases closed : mode.readsCode = true ∧ c = '}'
      next =>
        obtain ⟨reads, rfl⟩ := closed
        cases depth with
        | zero =>
          rw [braces_close reads, closing_close reads, closing_close reads]
          rfl
        | succ outer =>
          rw [closing_close reads, closing_close reads, braces_close reads]
          exact ih _ _
      next =>
        rw [closing_other opened closed, closing_other opened closed, braces_other opened closed]
        exact ih _ _

/-- What is found begins with the closing brace, and nothing behind that brace matters. -/
theorem closing_split {mode : Mode} {depth : Nat} {text rest : List Char}
    (found : mode.closing depth text = some rest) :
    ∃ inside later, rest = '}' :: later ∧ text = inside ++ rest ∧
      mode.closing depth (inside ++ ['}']) = some ['}'] := by
  induction text generalizing mode depth with
  | nil => cases found
  | cons c text ih =>
    by_cases opened : mode.readsCode = true ∧ c = '{'
    next =>
      obtain ⟨reads, rfl⟩ := opened
      rw [closing_open reads] at found
      obtain ⟨inside, later, begins, split, closes⟩ := ih found
      refine ⟨'{' :: inside, later, begins, congrArg _ split, ?_⟩
      rw [List.cons_append, closing_open reads, closes]
    next =>
      by_cases closed : mode.readsCode = true ∧ c = '}'
      next =>
        obtain ⟨reads, rfl⟩ := closed
        rw [closing_close reads] at found
        cases depth with
        | zero =>
          injection found with same
          exact ⟨[], text, same.symm, same, closing_close reads 0 []⟩
        | succ outer =>
          obtain ⟨inside, later, begins, split, closes⟩ := ih found
          refine ⟨'}' :: inside, later, begins, congrArg _ split, ?_⟩
          rw [List.cons_append, closing_close reads]
          exact closes
      next =>
        rw [closing_other opened closed] at found
        obtain ⟨inside, later, begins, split, closes⟩ := ih found
        refine ⟨c :: inside, later, begins, congrArg _ split, ?_⟩
        rw [List.cons_append, closing_other opened closed, closes]

theorem closing_brace (mode : Mode) (depth : Nat) :
    mode.closing depth ['}'] = if mode.readsCode = true ∧ depth = 0 then some ['}'] else none := by
  by_cases reads : mode.readsCode = true
  next =>
    cases depth with
    | zero => simp [closing, reads]
    | succ outer => simp [closing, reads]
  next => simp [closing, reads]

end Mode

def closesAfter (inside : List Char) : Bool := blockEnd (inside ++ ['}']) == some inside.length

theorem closesAfter_of_blockEnd {text : List Char} {length : Nat}
    (ends : blockEnd text = some length) : closesAfter (text.take length) = true := by
  obtain ⟨rest, found, rfl⟩ := Option.map_eq_some_iff.mp ends
  rw [Mode.closingBrace_eq_closing] at found
  obtain ⟨inside, later, _, rfl, closes⟩ := Mode.closing_split found
  rw [List.length_append, Nat.add_sub_cancel, List.take_left, closesAfter, blockEnd,
    Mode.closingBrace_eq_closing, closes, beq_iff_eq]
  simp

theorem closesAfter_iff (inside : List Char) :
    closesAfter inside = true ↔
      Mode.nesting 0 (Mode.code.braces inside) = some 0 ∧
        (Mode.code.after inside).readsCode = true := by
  rw [closesAfter, blockEnd, Mode.closingBrace_eq_closing, Mode.closing_append, beq_iff_eq]
  cases level : Mode.nesting 0 (Mode.code.braces inside) with
  | none =>
    simp only [reduceCtorEq, false_and, iff_false, Option.map_map, Option.map_eq_some_iff]
    rintro ⟨rest, found, size⟩
    obtain ⟨before, later, begins, split, _⟩ := Mode.closing_split found
    have whole := congrArg List.length split
    rw [begins] at whole size
    simp only [Function.comp_apply, List.length_append, List.length_cons,
      List.length_nil] at size whole
    omega
  | some depth =>
    simp only [Mode.closing_brace, Option.some.injEq]
    by_cases closes : (Mode.code.after inside).readsCode = true ∧ depth = 0
    next => simp [closes]
    next =>
      rw [if_neg closes]
      simp only [Option.map_none, reduceCtorEq, false_iff]
      exact fun both => closes ⟨both.2, both.1⟩

/-- The same with the line feed that the closing brace gets before it. -/
theorem closesAfter_line_iff (body : List Char) :
    closesAfter (body ++ ['\n']) = true ↔
      Mode.nesting 0 (Mode.code.braces body) = some 0 ∧
        ((Mode.code.after body).next '\n').readsCode = true := by
  have noBrace (mode : Mode) : mode.braces ['\n'] = [] := by simp [Mode.braces]
  rw [closesAfter_iff, Mode.braces_append, noBrace, List.append_nil, Mode.after_append]
  rfl

end Formwright.Script
