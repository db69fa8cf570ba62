import Formwright.Proofs.Script.Modes
import Formwright.Script.Identifier

/-!
Characters that begin and end nothing. Between two others they only settle what a slash, a backslash
or an asterisk has left open.
-/

namespace Formwright.Script

open Text

def marks : List Char := ['"', '\'', '\x60', '/', '*', '\\', '{', '}']

def isPlain (c : Char) : Bool := !marks.contains c

theorem plain_of_class {inClass : Char → Bool} (marksOutside : marks.any inClass = false)
    {c : Char} (member : inClass c = true) : isPlain c = true := by
  rw [isPlain, Bool.not_eq_true']
  apply Bool.eq_false_iff.mpr
  intro mark
  have outside := List.any_eq_false.mp marksOutside c (List.contains_iff_mem.mp mark)
  exact outside member

theorem plain_of_all {text : List Char} (plain : text.all isPlain = true) :
    ∀ c ∈ text, isPlain c = true := List.all_eq_true.mp plain

theorem marks_outside :
    marks.any isWordCharacter = false ∧ marks.any isBlank = false ∧
      marks.any startsIdentifier = false ∧ marks.any continuesIdentifier = false := by
  decide +kernel

theorem isPlain_of_word {c : Char} (word : isWordCharacter c = true) : isPlain c = true :=
  plain_of_class marks_outside.1 word

theorem isPlain_of_blank {c : Char} (blank : isBlank c = true) : isPlain c = true :=
  plain_of_class marks_outside.2.1 blank

theorem isPlain_of_start {c : Char} (starts : startsIdentifier c = true) : isPlain c = true :=
  plain_of_class marks_outside.2.2.1 starts

theorem isPlain_of_continuation {c : Char} (continues : continuesIdentifier c = true) :
    isPlain c = true :=
  plain_of_class marks_outside.2.2.2 continues

theorem ne_of_plain {c mark : Char} (plain : isPlain c = true) (isMark : isPlain mark = false) :
    c ≠ mark := by
  intro same
  rw [same, isMark] at plain
  exact Bool.false_ne_true plain

theorem noQuote_of_plain {c : Char} (plain : isPlain c = true) : ¬isQuote c = true := by
  have double : c ≠ '"' := ne_of_plain plain (by decide)
  have single : c ≠ '\'' := ne_of_plain plain (by decide)
  have back : c ≠ '\x60' := ne_of_plain plain (by decide)
  simp [isQuote, double, single, back]

namespace Mode

def settled : Mode → Mode
  | .slash => .code
  | .escape quote => .string quote
  | .star => .blockComment
  | mode => mode

def catches : Mode → Char → Bool
  | .slash, c => c = '/' || c = '*'
  | .escape quote, c => c = quote.val || c = '\\'
  | .star, c => c = '/'
  | _, _ => false

theorem settled_settled (mode : Mode) : mode.settled.settled = mode.settled := by
  cases mode <;> rfl

theorem eq_of_settled_lineComment {mode : Mode} (line : mode.settled = .lineComment) :
    mode = .lineComment := by
  cases mode <;> first | rfl | cases line

/-- What is left open matters for the characters it waits for and for no others. -/
theorem next_settled (mode : Mode) (c : Char) :
    mode.settled.next c = mode.next c ↔ mode.catches c = false := by
  cases mode with
  | slash =>
    simp only [settled, next, catches, Bool.or_eq_false_iff, decide_eq_false_iff_not]
    by_cases line : c = '/'
    next => simp [line, ofCode, isQuote]
    next =>
      by_cases block : c = '*'
      next => simp [block, ofCode, isQuote]
      next => simp [line, block]
  | escape quote =>
    simp only [settled, next, catches, Bool.or_eq_false_iff, decide_eq_false_iff_not]
    by_cases ends : c = quote.val
    next => simp [ends]
    next =>
      by_cases escapes : c = '\\'
      next =>
        rw [if_neg ends, if_pos escapes]
        simp [escapes]
      next => simp [ends, escapes]
  | star =>
    simp only [settled, next, catches, decide_eq_false_iff_not]
    by_cases ends : c = '/'
    next => simp [ends]
    next => simp [ends]
  | _ => simp [settled, catches]

theorem catches_lineFeed (mode : Mode) : mode.catches '\n' = false := by
  cases mode with
  | escape quote =>
    have noQuote : '\n' ≠ quote.val := fun same => absurd quote.property (same ▸ by decide)
    simp [catches, noQuote]
  | _ => rfl

theorem next_lineComment_alike (c : Char) :
    Mode.code.next c = Mode.lineComment.next c ↔ c = '\n' := by
  by_cases lineFeed : c = '\n'
  next => simp [next, lineFeed, ofCode, isQuote]
  next =>
    simp only [next, lineFeed, if_false, iff_false, ofCode]
    split
    next => simp
    next => split <;> simp

theorem next_plain {c : Char} (plain : isPlain c = true) {mode : Mode}
    (noEnd : mode = .lineComment → c ≠ '\n') : mode.next c = mode.settled := by
  have noSlash : c ≠ '/' := ne_of_plain plain (by decide)
  have noStar : c ≠ '*' := ne_of_plain plain (by decide)
  have noEscape : c ≠ '\\' := ne_of_plain plain (by decide)
  have inCode : ofCode c = .code := ofCode_plain (noQuote_of_plain plain) noSlash
  cases mode with
  | string quote =>
    have other : c ≠ quote.val := fun same => noQuote_of_plain plain (same ▸ quote.property)
    rw [next, if_neg other, if_neg noEscape]
    rfl
  | lineComment =>
    rw [next, if_neg (noEnd rfl)]
    rfl
  | _ => simp only [next, settled, inCode, noSlash, noStar, if_false]

theorem braces_of_plain {text : List Char} (plain : ∀ c ∈ text, isPlain c = true) (mode : Mode) :
    mode.braces text = [] := by
  induction text generalizing mode with
  | nil => rfl
  | cons c rest ih =>
    have here : isPlain c = true := plain c List.mem_cons_self
    have noOpen : c ≠ '{' := ne_of_plain here (by decide)
    have noClose : c ≠ '}' := ne_of_plain here (by decide)
    rw [braces_cons, if_neg (fun brace => brace.2.elim noOpen noClose)]
    exact ih (fun d mem => plain d (List.mem_cons_of_mem _ mem)) _

theorem after_plain {text : List Char} (plain : ∀ c ∈ text, isPlain c = true) {mode : Mode}
    (settled : mode.settled = mode) (noEnd : mode = .lineComment → '\n' ∉ text) :
    mode.after text = mode := by
  induction text with
  | nil => rfl
  | cons c rest ih =>
    have stays : mode.next c = mode := by
      rw [next_plain (plain c List.mem_cons_self), settled]
      intro line same
      exact noEnd line (same ▸ List.mem_cons_self)
    rw [after_cons, stays]
    apply ih (fun d mem => plain d (List.mem_cons_of_mem _ mem))
    exact fun line mem => noEnd line (List.mem_cons_of_mem _ mem)

theorem after_plain_cons {c : Char} {text : List Char} (plain : ∀ d ∈ c :: text, isPlain d = true)
    {mode : Mode} (noEnd : mode = .lineComment → '\n' ∉ c :: text) :
    mode.after (c :: text) = mode.settled := by
  have first : mode.next c = mode.settled := by
    apply next_plain (plain c List.mem_cons_self)
    exact fun line same => noEnd line (same ▸ List.mem_cons_self)
  rw [after_cons, first]
  apply after_plain (fun d mem => plain d (List.mem_cons_of_mem _ mem)) (settled_settled mode)
  intro line mem
  exact noEnd (eq_of_settled_lineComment line) (List.mem_cons_of_mem _ mem)

/-- A line feed among plain characters ends a line comment. -/
theorem after_plain_lineFeed {text : List Char} (plain : ∀ c ∈ text, isPlain c = true)
    (lineFeed : '\n' ∈ text) : lineComment.after text = .code := by
  induction text with
  | nil => cases lineFeed
  | cons c rest ih =>
    have plainRest : ∀ d ∈ rest, isPlain d = true := fun d mem =>
      plain d (List.mem_cons_of_mem _ mem)
    rw [after_cons, next]
    split
    next => exact after_plain plainRest rfl (by simp)
    next other =>
      have later : '\n' ∈ rest :=
        (List.mem_cons.mp lineFeed).resolve_left fun same => other same.symm
      exact ih plainRest later

end Mode
end Formwright.Script
