import Formwright.Proofs.Text.Blanks
import Formwright.Proofs.Text.Literal
import Mathlib.Data.List.DropRight

/-!
Readers of generated markup. They are other programs, so what is known of them is a few laws. They
differ most in the white space between tags: which characters end a line, which blanks are dropped
next to the end of a line, and whether a tab is kept.
-/

namespace Formwright.Component

open Text

def endsRun (c : Char) : Bool := c = '<' || c = '>' || c = '{' || c = '}'

/-! ## White space -/

/-- How a reader shows a run of text: it drops the blanks next to the end of a line and the lines that
hold nothing, and puts a space between the others. -/
structure SpaceRule where
  breaks : Char → Bool
  /-- Blanks that are dropped next to the end of a line. -/
  blank : Char → Bool
  /-- What stands for a character in what is shown. -/
  write : Char → Char

namespace SpaceRule

variable (rule : SpaceRule)

/-- Lines behind the end of another one. The last one runs on to a tag, and nothing is dropped there. -/
def trimLater : List (List Char) → List (List Char)
  | [] => []
  | [last] => [last.dropWhile rule.blank]
  | line :: later => (line.dropWhile rule.blank).rdropWhile rule.blank :: trimLater later

def trimLines : List (List Char) → List (List Char)
  | [] => []
  | [only] => [only]
  | first :: later => first.rdropWhile rule.blank :: rule.trimLater later

def shown (run : List Char) : List Char :=
  let filled := (rule.trimLines (run.splitOnP rule.breaks)).filter (!·.isEmpty)
  ([' '].intercalate filled).map rule.write

/-- A line feed ends a line and spaces are dropped next to it. Readers may know further line ends and
blanks, and they may write a space for a tab. -/
structure Lawful : Prop where
  feed : rule.breaks '\n' = true
  space : rule.blank ' ' = true
  breaks (c : Char) : rule.breaks c = true → c = '\n' ∨ c = '\r' ∨ c = '\u2028' ∨ c = '\u2029'
  blank (c : Char) : rule.blank c = true → isBlank c = true ∨ c = '\u200B' ∨ c = '\uFEFF'
  write (c : Char) : c ≠ '\t' → rule.write c = c

def Keeps (text : List Char) : Prop := ∀ c ∈ text, rule.breaks c = false ∧ rule.write c = c

variable {rule}

theorem trimLines_pair (first last : List Char) : rule.trimLines [first, last] =
    [first.rdropWhile rule.blank, last.dropWhile rule.blank] := rfl

theorem trimLines_triple (first line last : List Char) : rule.trimLines [first, line, last] =
    [first.rdropWhile rule.blank, (line.dropWhile rule.blank).rdropWhile rule.blank,
      last.dropWhile rule.blank] := rfl

theorem Keeps.map_write {text : List Char} (keeps : rule.Keeps text) :
    text.map rule.write = text := by
  rw [List.map_congr_left fun c mem => (keeps c mem).2, List.map_id']

theorem shown_line {text : List Char} (filled : text ≠ []) (keeps : rule.Keeps text) :
    rule.shown text = text := by
  have line : text.splitOnP rule.breaks = [text] :=
    List.splitOnP_eq_singleton fun c mem => (keeps c mem).1
  rw [shown, line, trimLines]
  simp [filled, keeps.map_write]

section Margin

variable (lawful : rule.Lawful) {pad : List Char} (spaces : ∀ c ∈ pad, c = ' ')

include lawful spaces

theorem breaks_spaces : ∀ c ∈ pad, rule.breaks c = false := by
  intro c mem
  rw [Bool.eq_false_iff, spaces c mem]
  intro ends
  exact absurd (lawful.breaks ' ' ends) (by decide)

theorem dropWhile_spaces (text : List Char) :
    (pad ++ text).dropWhile rule.blank = text.dropWhile rule.blank :=
  List.dropWhile_append_of_pos fun c mem => spaces c mem ▸ lawful.space

/-- Nothing is shown of a line feed and the spaces behind it. -/
theorem shown_margin : rule.shown ('\n' :: pad) = [] := by
  have split : ('\n' :: pad).splitOnP rule.breaks = [[], pad] := by
    have single := List.splitOnP_eq_singleton (breaks_spaces lawful spaces)
    rw [← List.nil_append ('\n' :: pad),
      List.splitOnP_append_cons_of_forall_mem (by simp) '\n' lawful.feed, single]
  have empty : pad.dropWhile rule.blank = [] := by
    simpa using dropWhile_spaces lawful spaces []
  rw [shown, split, trimLines_pair, empty]
  rfl

/-- A text on a line of its own is shown without the spaces around it. -/
theorem shown_between {text : List Char} (filled : text ≠ []) (keeps : rule.Keeps text)
    (first : ∀ c ∈ text.head?, rule.blank c = false)
    (last : ∀ c ∈ text.getLast?, rule.blank c = false) :
    rule.shown ('\n' :: pad ++ text ++ '\n' :: pad) = text := by
  have split : ('\n' :: pad ++ text ++ '\n' :: pad).splitOnP rule.breaks =
      [[], pad ++ text, pad] := by
    have line : ∀ c ∈ pad ++ text, rule.breaks c = false := by
      intro c mem
      cases List.mem_append.mp mem with
      | inl space => exact breaks_spaces lawful spaces c space
      | inr inside => exact (keeps c inside).1
    have whole : '\n' :: pad ++ text ++ '\n' :: pad =
        [] ++ '\n' :: ((pad ++ text) ++ '\n' :: pad) := by simp
    rw [whole, List.splitOnP_append_cons_of_forall_mem (by simp) '\n' lawful.feed,
      List.splitOnP_append_cons_of_forall_mem line '\n' lawful.feed,
      List.splitOnP_eq_singleton (breaks_spaces lawful spaces)]
  have start : text.dropWhile rule.blank = text := by
    obtain ⟨c, rest, rfl⟩ := List.exists_cons_of_ne_nil filled
    exact List.dropWhile_cons_of_neg (by rw [first c rfl]; simp)
  have stop : text.rdropWhile rule.blank = text := by
    rw [List.rdropWhile_eq_self_iff]
    intro nonempty
    rw [last _ (List.getLast?_eq_getLast_of_ne_nil nonempty)]
    simp
  have empty : pad.dropWhile rule.blank = [] := by
    simpa using dropWhile_spaces lawful spaces []
  rw [shown, split, trimLines_triple, dropWhile_spaces lawful spaces, start, stop, empty]
  simp [filled, keeps.map_write]

end Margin

end SpaceRule

/-! ## Readers -/

/-- What a reader finds at the front of a text, and what it leaves: the value of an attribute, and
the first child of an element if it is a text. -/
structure MarkupReader where
  value : List Char → Option (List Char × List Char)
  child : List Char → Option (List Char × List Char)
  space : SpaceRule

structure MarkupReader.Conforms (reader : MarkupReader) : Prop where
  space : reader.space.Lawful
  /-- In quotes a text stands for itself where no reference to a character begins. -/
  quoted (text rest : List Char) : (∀ c ∈ text, c ≠ '"' ∧ c ≠ '&' ∧ c ≠ '\n' ∧ c ≠ '\r') →
    reader.value ('"' :: (text ++ '"' :: rest)) = some (text, rest)
  /-- In braces a literal of a script stands for its text. -/
  bracedValue (text code rest : List Char) :
    (∀ rest, readLiteral (code ++ rest) = some (text, rest)) →
    reader.value ('{' :: (code ++ '}' :: rest)) = some (text, rest)
  bracedChild (text code rest : List Char) :
    (∀ rest, readLiteral (code ++ rest) = some (text, rest)) →
    reader.child ('{' :: (code ++ '}' :: rest)) = some (text, rest)
  /-- Between tags a run goes on to the next tag or brace, and is no child if nothing of it is
  shown. -/
  run (run rest : List Char) : (∀ c ∈ run, endsRun c = false ∧ c ≠ '&') →
    rest.head? = some '<' ∨ rest.head? = some '{' →
    reader.child (run ++ rest) =
      if (reader.space.shown run).isEmpty then reader.child rest
      else some (reader.space.shown run, rest)

/-! ## Two readers -/

def readBraced (text : List Char) : Option (List Char × List Char) :=
  (readLiteral text).bind fun read => (afterStart ['}'] read.2).map (read.1, ·)

/-- A text in quotes that holds a reference to a character or a line break is refused. -/
def readAttribute : List Char → Option (List Char × List Char)
  | '"' :: rest =>
    let inside := rest.takeWhile (· != '"')
    if inside.any fun c => c = '&' || c = '\n' || c = '\r' then none
    else (afterStart ['"'] (rest.dropWhile (· != '"'))).map (inside, ·)
  | '{' :: rest => readBraced rest
  | _ => none

namespace SpaceRule

def readChild (rule : SpaceRule) (text : List Char) : Option (List Char × List Char) :=
  let run := text.takeWhile (!endsRun ·)
  let rest := text.dropWhile (!endsRun ·)
  if run.contains '&' then none
  else if (rule.shown run).isEmpty then (afterStart ['{'] rest).bind readBraced
  else some (rule.shown run, rest)

def reader (rule : SpaceRule) : MarkupReader := ⟨readAttribute, rule.readChild, rule⟩

theorem readBraced_literal {text code : List Char}
    (reads : ∀ rest, readLiteral (code ++ rest) = some (text, rest)) (rest : List Char) :
    readBraced (code ++ '}' :: rest) = some (text, rest) := by
  rw [readBraced, reads]
  rfl

theorem readAttribute_quoted {text : List Char}
    (calm : ∀ c ∈ text, c ≠ '"' ∧ c ≠ '&' ∧ c ≠ '\n' ∧ c ≠ '\r') (rest : List Char) :
    readAttribute ('"' :: (text ++ '"' :: rest)) = some (text, rest) := by
  have inside : ∀ c ∈ text, (c != '"') = true := fun c mem => bne_iff_ne.mpr (calm c mem).1
  have stops : ∀ c ∈ ('"' :: rest).head?, (c != '"') = false := by
    rintro c ⟨⟩
    rfl
  have plain : ¬(text.any fun c => c = '&' || c = '\n' || c = '\r') = true := by
    simp only [List.any_eq_true, not_exists, not_and]
    intro c mem
    obtain ⟨_, noReference, noFeed, noReturn⟩ := calm c mem
    simp [noReference, noFeed, noReturn]
  rw [readAttribute, takeWhile_run inside stops, dropWhile_run inside stops, if_neg plain]
  rfl

theorem readChild_run (rule : SpaceRule) {run rest : List Char}
    (calm : ∀ c ∈ run, endsRun c = false ∧ c ≠ '&')
    (stops : rest.head? = some '<' ∨ rest.head? = some '{') :
    rule.readChild (run ++ rest) =
      if (rule.shown run).isEmpty then (afterStart ['{'] rest).bind readBraced
      else some (rule.shown run, rest) := by
  have inside : ∀ c ∈ run, (!endsRun c) = true := fun c mem => by rw [(calm c mem).1]; rfl
  have ends : ∀ c ∈ rest.head?, (!endsRun c) = false := by
    intro c first
    obtain less | brace := stops
    · rw [less] at first
      cases first
      rfl
    · rw [brace] at first
      cases first
      rfl
  have plain : ¬run.contains '&' = true := by
    rw [List.contains_iff_mem]
    exact fun mem => (calm _ mem).2 rfl
  rw [readChild, takeWhile_run inside ends, dropWhile_run inside ends, if_neg plain]

theorem readChild_tag (rule : SpaceRule) {rest : List Char}
    (stops : rest.head? = some '<' ∨ rest.head? = some '{') :
    rule.readChild rest = (afterStart ['{'] rest).bind readBraced := by
  have nothing : (rule.shown []).isEmpty = true := rfl
  have read : rule.readChild ([] ++ rest) = _ :=
    readChild_run rule (fun c mem => by cases mem) stops
  rwa [if_pos nothing] at read

theorem conforms_reader {rule : SpaceRule} (lawful : rule.Lawful) : rule.reader.Conforms where
  space := lawful
  quoted text rest calm := readAttribute_quoted calm rest
  bracedValue text code rest reads := readBraced_literal reads rest
  bracedChild text code rest reads := by
    have opened : rule.readChild ('{' :: (code ++ '}' :: rest)) = _ := readChild_tag rule (.inr rfl)
    exact opened.trans (readBraced_literal reads rest)
  run run rest calm stops := by
    show rule.readChild _ = if _ then rule.readChild rest else _
    rw [readChild_run rule calm stops, readChild_tag rule stops]
    rfl

end SpaceRule

/-- Two line ends are known, and a space is written for a tab. -/
def plainSpace : SpaceRule where
  breaks c := c = '\n' || c = '\r'
  blank c := c = ' ' || c = '\t'
  write c := if c = '\t' then ' ' else c

/-- All line ends of a script are known, and all its blanks. -/
def scriptSpace : SpaceRule where
  breaks c := c = '\n' || c = '\r' || c = '\u2028' || c = '\u2029'
  blank c := isBlank c || c = '\u200B' || c = '\uFEFF'
  write c := c

theorem lawful_plainSpace : plainSpace.Lawful where
  feed := rfl
  space := rfl
  breaks c ends := by
    simp only [plainSpace, Bool.or_eq_true, decide_eq_true_eq] at ends
    exact ends.imp_right .inl
  blank c dropped := by
    simp only [plainSpace, Bool.or_eq_true, decide_eq_true_eq] at dropped
    obtain rfl | rfl := dropped
    · exact .inl (by decide)
    · exact .inl (by decide)
  write c other := if_neg other

theorem lawful_scriptSpace : scriptSpace.Lawful where
  feed := rfl
  space := by decide
  breaks c ends := by
    simpa only [scriptSpace, Bool.or_eq_true, decide_eq_true_eq, or_assoc] using ends
  blank c dropped := by
    simpa only [scriptSpace, Bool.or_eq_true, decide_eq_true_eq, or_assoc] using dropped
  write c other := rfl

end Formwright.Component
