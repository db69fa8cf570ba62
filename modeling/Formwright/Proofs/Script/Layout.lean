import Formwright.Proofs.Script.Plain
import Formwright.Proofs.Text.Blanks
import Formwright.Script.Declaration
import Formwright.Text.Substitution

/-!
A script laid out anew. Blanks at the ends of a line are plain, so lines that are trimmed or shifted
are read as they were.
-/

namespace Formwright.Script

open Text

def Mode.rests : Mode → Bool
  | .code | .string _ | .blockComment => true
  | _ => false

namespace Mode

theorem rests_next_lineFeed (mode : Mode) : (mode.next '\n').rests = true := by
  cases mode with
  | string quote =>
    have noQuote : '\n' ≠ quote.val := fun same => absurd quote.property (same ▸ by decide)
    simp [next, rests, noQuote]
  | _ => rfl

theorem settled_of_rests {mode : Mode} (resting : mode.rests = true) : mode.settled = mode := by
  cases mode <;> first | rfl | cases resting

theorem ne_lineComment_of_rests {mode : Mode} (resting : mode.rests = true) :
    mode ≠ .lineComment := by
  intro line
  rw [line] at resting
  cases resting

theorem next_lineFeed_of_rests {mode : Mode} (resting : mode.rests = true) :
    mode.next '\n' = mode := by
  rw [next_plain (by decide) (fun line => absurd line (ne_lineComment_of_rests resting)),
    settled_of_rests resting]

theorem next_lineFeed_settled (mode : Mode) : mode.settled.next '\n' = mode.next '\n' :=
  (next_settled mode '\n').mpr (catches_lineFeed mode)

theorem slash_of_ofCode {c : Char} (slash : ofCode c = .slash) : c = '/' := by
  rw [ofCode] at slash
  split at slash
  next => cases slash
  next =>
    split at slash
    next same => exact same
    next => cases slash

theorem ofCode_ne_lineComment (c : Char) : ofCode c ≠ .lineComment := by
  rw [ofCode]
  split
  next => simp
  next => split <;> simp

theorem slash_of_next {mode : Mode} {c : Char} (slash : mode.next c = .slash) : c = '/' := by
  cases mode with
  | code => exact slash_of_ofCode slash
  | slash =>
    rw [next] at slash
    split at slash
    next => cases slash
    next =>
      split at slash
      next => cases slash
      next => exact slash_of_ofCode slash
  | _ =>
    simp only [next] at slash
    repeat' split at slash
    all_goals cases slash

theorem next_ne_lineComment {mode : Mode} {c : Char} (notIn : mode ≠ .lineComment)
    (noSlash : mode = .slash → c ≠ '/') : mode.next c ≠ .lineComment := by
  cases mode with
  | code => exact ofCode_ne_lineComment c
  | slash =>
    rw [next, if_neg (noSlash rfl)]
    split
    next => simp
    next => exact ofCode_ne_lineComment c
  | lineComment => exact absurd rfl notIn
  | _ =>
    simp only [next]
    repeat' split
    all_goals simp

/-- Without two slashes in a row no line comment begins. -/
theorem after_ne_lineComment {line : List Char} (noSlashes : occursIn ['/', '/'] line = false)
    {mode : Mode} (notIn : mode ≠ .lineComment)
    (noSlash : mode = .slash → line.head? ≠ some '/') : mode.after line ≠ .lineComment := by
  induction line generalizing mode with
  | nil => exact notIn
  | cons c rest ih =>
    rw [occursIn, Bool.or_eq_false_iff] at noSlashes
    obtain ⟨notHere, notLater⟩ := noSlashes
    rw [after_cons]
    apply ih notLater
    next =>
      apply next_ne_lineComment notIn
      exact fun slash same => noSlash slash (congrArg some same)
    next =>
      intro slash second
      obtain ⟨later, rfl⟩ := List.head?_eq_some_iff.mp second
      rw [slash_of_next slash] at notHere
      simp at notHere

end Mode

def SameLine (first second : List Char) : Prop :=
  ∀ mode : Mode, mode.rests = true →
    mode.braces first = mode.braces second ∧
      (mode.after first).next '\n' = (mode.after second).next '\n'

theorem SameLine.refl (line : List Char) : SameLine line line := fun _ _ => ⟨rfl, rfl⟩

theorem SameLine.symm {first second : List Char} (same : SameLine first second) :
    SameLine second first := fun mode resting =>
  ⟨(same mode resting).1.symm, (same mode resting).2.symm⟩

theorem after_blank {text : List Char} (blank : Blank text) {mode : Mode}
    (resting : mode.rests = true) : mode.after text = mode := by
  apply Mode.after_plain (fun c mem => isPlain_of_blank (blank c mem))
    (Mode.settled_of_rests resting)
  exact fun line => absurd line (Mode.ne_lineComment_of_rests resting)

theorem braces_blank {text : List Char} (blank : Blank text) (mode : Mode) :
    mode.braces text = [] :=
  Mode.braces_of_plain (fun c mem => isPlain_of_blank (blank c mem)) mode

/-- Blanks leave open what comes before them, or settle it as a line feed does. -/
theorem next_after_blank {behind : List Char} (blank : Blank behind) {mode : Mode}
    (noEnd : mode = .lineComment → '\n' ∉ behind) :
    (mode.after behind).next '\n' = mode.next '\n' := by
  cases behind with
  | nil => rfl
  | cons c behind =>
    rw [Mode.after_plain_cons (fun d mem => isPlain_of_blank (blank d mem)) noEnd,
      Mode.next_lineFeed_settled]

theorem sameLine_blankBehind {behind : List Char} (blank : Blank behind)
    (oneLine : '\n' ∉ behind) (line : List Char) : SameLine (line ++ behind) line := by
  intro mode _
  rw [Mode.braces_append, Mode.after_append, braces_blank blank, List.append_nil,
    next_after_blank blank (fun _ => oneLine)]
  exact ⟨rfl, rfl⟩

def linesWritten (lines : List (List Char)) : List Char := lines.flatMap (· ++ ['\n'])

def SameText (first second : List Char) : Prop :=
  ∀ mode : Mode, mode.rests = true →
    mode.braces first = mode.braces second ∧ mode.after first = mode.after second

theorem SameText.trans {first second third : List Char} (before : SameText first second)
    (behind : SameText second third) : SameText first third := by
  intro mode resting
  obtain ⟨braces, ends⟩ := before mode resting
  obtain ⟨bracesBehind, endsBehind⟩ := behind mode resting
  exact ⟨braces.trans bracesBehind, ends.trans endsBehind⟩

theorem sameText_blankBefore {before : List Char} (blank : Blank before) (text : List Char) :
    SameText (before ++ text) text := by
  intro mode resting
  rw [Mode.braces_append, Mode.after_append, after_blank blank resting, braces_blank blank]
  exact ⟨rfl, rfl⟩

theorem sameLine_blankBefore {before : List Char} (blank : Blank before) (line : List Char) :
    SameLine (before ++ line) line := by
  intro mode resting
  obtain ⟨braces, ends⟩ := sameText_blankBefore blank line mode resting
  exact ⟨braces, congrArg (Mode.next · '\n') ends⟩

theorem braces_lineFeed (mode : Mode) (line later : List Char) :
    mode.braces (line ++ '\n' :: later) =
      mode.braces line ++ ((mode.after line).next '\n').braces later := by
  rw [Mode.braces_append, Mode.braces_cons, if_neg (fun brace => absurd brace.2 (by decide))]

theorem after_lineFeed (mode : Mode) (line later : List Char) :
    mode.after (line ++ '\n' :: later) = ((mode.after line).next '\n').after later := by
  rw [Mode.after_append, Mode.after_cons]

theorem sameText_line {first second later laterSecond : List Char}
    (line : SameLine first second) (text : SameText later laterSecond) :
    SameText (first ++ '\n' :: later) (second ++ '\n' :: laterSecond) := by
  intro mode resting
  obtain ⟨braces, ends⟩ := line mode resting
  obtain ⟨bracesLater, endsLater⟩ := text _ (Mode.rests_next_lineFeed (mode.after second))
  rw [braces_lineFeed, braces_lineFeed, after_lineFeed, after_lineFeed, braces, ends, bracesLater,
    endsLater]
  exact ⟨rfl, rfl⟩

theorem linesWritten_cons (line : List Char) (later : List (List Char)) :
    linesWritten (line :: later) = line ++ '\n' :: linesWritten later := by
  rw [linesWritten, List.flatMap_cons, List.append_assoc]
  rfl

theorem sameText_map {change : List Char → List Char} {lines : List (List Char)}
    (same : ∀ line ∈ lines, SameLine (change line) line) :
    SameText (linesWritten (lines.map change)) (linesWritten lines) := by
  induction lines with
  | nil => exact fun _ _ => ⟨rfl, rfl⟩
  | cons line later ih =>
    rw [List.map_cons, linesWritten_cons, linesWritten_cons]
    apply sameText_line (same line List.mem_cons_self)
    exact ih fun other mem => same other (List.mem_cons_of_mem _ mem)

/-- The lines of a text, each with its line feed, are read as the text is. -/
theorem sameText_linesAfter (line text : List Char) :
    SameText (linesWritten (linesAfter line text)) (line.reverse ++ text ++ ['\n']) := by
  fun_induction linesAfter line text with
  | case1 line empty =>
    intro mode resting
    rw [List.isEmpty_iff.mp empty]
    show mode.braces [] = mode.braces ([] ++ '\n' :: []) ∧ mode = mode.next '\n'
    rw [braces_lineFeed, Mode.next_lineFeed_of_rests resting]
    exact ⟨rfl, rfl⟩
  | case2 line filled =>
    rw [linesWritten_cons, List.append_nil]
    exact fun _ _ => ⟨rfl, rfl⟩
  | case3 line rest ih =>
    obtain ⟨behind, split, blank, oneLine⟩ := dropReturn_split line
    have same : SameLine (dropReturn line).reverse line.reverse := by
      rw [split]
      exact (sameLine_blankBehind blank oneLine _).symm
    rw [linesWritten_cons, List.append_assoc]
    exact sameText_line same ih
  | case4 line c rest other ih =>
    rw [List.reverse_cons, List.append_assoc line.reverse [c] rest] at ih
    exact ih

/-- Shifting the lines of a trimmed text back and giving them new margins changes nothing. -/
theorem sameText_shiftLeft (text : List Char) :
    SameText (linesWritten (shiftLeft text)) (trim text ++ ['\n']) := by
  have whole : SameText (linesWritten (lines (trim text))) (trim text ++ ['\n']) :=
    sameText_linesAfter [] (trim text)
  have ends : SameText (linesWritten ((lines (trim text)).map trimEnd))
      (linesWritten (lines (trim text))) := by
    apply sameText_map
    intro line mem
    obtain ⟨behind, split, blank⟩ := trimEnd_split line
    have oneLine : '\n' ∉ line := lineFeed_notMem_lines List.not_mem_nil mem
    rw [split] at oneLine
    have noFeed : '\n' ∉ behind := fun lineFeed => oneLine (List.mem_append_right _ lineFeed)
    have same := sameLine_blankBehind blank noFeed (trimEnd line)
    rw [← split] at same
    exact same.symm
  have trimmed := ends.trans whole
  rw [shiftLeft]
  split
  next none =>
    rw [none] at trimmed
    exact trimmed
  next first later split =>
    rw [split] at trimmed
    apply SameText.trans _ trimmed
    rw [linesWritten_cons, linesWritten_cons]
    apply sameText_line (SameLine.refl first)
    apply sameText_map
    intro line mem
    by_cases filled : line = []
    next =>
      rw [filled]
      exact SameLine.refl []
    next =>
      obtain ⟨before, split, blank⟩ := dropMargin_split (commonMargin_le mem filled)
      have same := sameLine_blankBefore blank (dropMargin (commonMargin later) line)
      rw [← split] at same
      exact same.symm

/-- Blanks at the end of a text do not bring it back to code. -/
theorem readsCode_of_blank {behind : List Char} (blank : Blank behind) {mode : Mode}
    (reads : ((mode.after behind).next '\n').readsCode = true) :
    (mode.next '\n').readsCode = true := by
  by_cases line : mode = .lineComment
  next => rw [line]; rfl
  next =>
    rw [next_after_blank blank (fun same => absurd same line)] at reads
    exact reads

theorem closesAfter_trim {text : List Char} (closes : closesAfter (text ++ ['\n']) = true) :
    closesAfter (trim text ++ ['\n']) = true := by
  obtain ⟨before, start, blankBefore⟩ := trimStart_split text
  obtain ⟨behind, ends, blankBehind⟩ := trimEnd_split (trimStart text)
  have split : text = before ++ (trim text ++ behind) := by
    rw [trim, ← ends]
    exact start
  obtain ⟨nests, reads⟩ := (closesAfter_line_iff text).mp closes
  apply (closesAfter_line_iff (trim text)).mpr
  rw [split, Mode.braces_append, Mode.braces_append, braces_blank blankBefore,
    braces_blank blankBehind, after_blank blankBefore rfl, List.append_nil] at nests
  rw [split, Mode.after_append, Mode.after_append, after_blank blankBefore rfl] at reads
  exact ⟨nests, readsCode_of_blank blankBehind reads⟩

theorem readsCode_next_lineFeed {mode : Mode} (reads : mode.readsCode = true) :
    (mode.next '\n').readsCode = true := by
  cases mode <;> first | rfl | cases reads

/-- The body of a declaration closes its block with the brace that is put behind it. -/
theorem closesAfter_body {declaration : Declaration} {body : List Char}
    (found : declaration.body = some body) : closesAfter (body ++ ['\n']) = true := by
  obtain ⟨length, ends, rfl⟩ := Option.map_eq_some_iff.mp found
  apply closesAfter_trim
  obtain ⟨nests, reads⟩ := (closesAfter_iff _).mp (closesAfter_of_blockEnd ends)
  apply (closesAfter_line_iff _).mpr
  exact ⟨nests, readsCode_next_lineFeed reads⟩

end Formwright.Script
