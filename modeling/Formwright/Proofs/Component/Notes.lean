import Formwright.Proofs.Component.Levels
import Formwright.Proofs.Text.Replacement

/-!
Notes on elements without a component. Whatever the kind and the id of an element hold, its note is
one comment, and it still is when the code around it has been indented.
-/

namespace Formwright.Component

open Text

def commentEnd : List Char := ['*', '/']

def IsComment (text : List Char) : Prop :=
  ∃ inside, text = ['{', '/', '*'] ++ inside ++ (commentEnd ++ ['}']) ∧
    ∀ before behind, inside ++ (commentEnd ++ ['}']) = before ++ commentEnd ++ behind →
      before = inside

/-- The end of a comment does not begin inside of it, also not with its last character. -/
theorem isComment_of_noEnd {inside : List Char} (noEnd : ¬commentEnd <:+: inside) :
    IsComment (['{', '/', '*'] ++ inside ++ (commentEnd ++ ['}'])) := by
  refine ⟨inside, rfl, fun before behind split => ?_⟩
  rw [List.append_assoc] at split
  obtain ⟨later, rfl, ends⟩ | ⟨later, rfl, ends⟩ := List.append_eq_append_iff.mp split
  · obtain _ | ⟨c, _ | ⟨d, later⟩⟩ := later
    · rw [List.append_nil]
    · simp [commentEnd] at ends
    · have lengths := congrArg List.length ends
      simp only [commentEnd, List.length_append, List.length_cons, List.length_nil] at lengths
      omega
  · obtain _ | ⟨c, _ | ⟨d, later⟩⟩ := later
    · rw [List.append_nil]
    · simp [commentEnd] at ends
    · obtain ⟨rfl, rfl, -⟩ : '*' = c ∧ '/' = d ∧ _ := by simpa [commentEnd] using ends
      exact absurd ⟨before, later, by simp [commentEnd]⟩ noEnd

/-! ## Labels -/

def pulledApart : List Char → List Char
  | '*' :: '/' :: rest => '*' :: ' ' :: '/' :: pulledApart rest
  | c :: rest => c :: pulledApart rest
  | [] => []

theorem escapeLabel_eq (label : List Char) : escapeLabel label = pulledApart label := by
  fun_induction pulledApart label with
  | case1 rest ih =>
    rw [← ih]
    exact replaceAll_append (List.cons_ne_nil _ _) _ rest
  | case2 c rest other ih =>
    rw [← ih]
    refine replaceAll_cons _ fun starts => ?_
    obtain ⟨rfl, later⟩ := List.cons_prefix_cons.mp starts
    obtain ⟨behind, rfl⟩ := later
    exact other behind rfl rfl
  | case3 => rfl

theorem head_pulledApart (label : List Char) : (pulledApart label).head? = label.head? := by
  fun_cases pulledApart label <;> rfl

theorem noEnd_pulledApart (label : List Char) : ¬commentEnd <:+: pulledApart label := by
  fun_induction pulledApart label with
  | case1 rest ih =>
    intro found
    rw [List.infix_cons_iff, List.infix_cons_iff, List.infix_cons_iff] at found
    obtain here | here | here | later := found
    · simp [commentEnd] at here
    · simp [commentEnd] at here
    · simp [commentEnd] at here
    · exact ih later
  | case2 c rest other ih =>
    intro found
    obtain here | later := List.infix_cons_iff.mp found
    · obtain ⟨rfl, slash⟩ := List.cons_prefix_cons.mp here
      have next : rest.head? = some '/' := by
        rw [← head_pulledApart]
        obtain ⟨later, split⟩ := slash
        rw [← split]
        rfl
      obtain ⟨behind, rfl⟩ := List.head?_eq_some_iff.mp next
      exact other behind rfl rfl
    · exact ih later
  | case3 => decide

theorem noEnd_escapeLabel (label : List Char) : ¬commentEnd <:+: escapeLabel label := by
  rw [escapeLabel_eq]
  exact noEnd_pulledApart label

/-! ## Indentation -/

structure OpenNote (width : Nat) (text : List Char) : Prop where
  opens : spaces width ++ ['{', '/', '*', ' '] <+: text
  noEnd : ¬commentEnd <:+: text

theorem OpenNote.isComment {width : Nat} {text : List Char} (opened : OpenNote width text) :
    ∃ comment, IsComment comment ∧
      text ++ (commentEnd ++ ['}']) = spaces width ++ comment := by
  obtain ⟨⟨rest, rfl⟩, noEnd⟩ := opened
  have inside : ¬commentEnd <:+: ' ' :: rest := fun found =>
    noEnd (found.trans ⟨spaces width ++ ['{', '/', '*'], [], by simp⟩)
  refine ⟨_, isComment_of_noEnd inside, ?_⟩
  simp

theorem OpenNote.shift {width : Nat} {text : List Char} (opened : OpenNote width text)
    (lead : Nat) :
    ∃ moved, OpenNote (lead + width) moved ∧
      shiftRight (text ++ (commentEnd ++ ['}'])) (spaces lead) =
        moved ++ (commentEnd ++ ['}']) := by
  obtain ⟨⟨rest, rfl⟩, noEnd⟩ := opened
  obtain ⟨moved, closes⟩ :=
    shiftRight_before (spaces width ++ ['{', '/', '*', ' '] ++ rest) (spaces lead)
  have star : OneLine ['*'] := ⟨by decide, by decide, by decide⟩
  have space : OneLine [' '] := ⟨by decide, by decide, by decide⟩
  refine ⟨moved, ⟨?_, fun found => ?_⟩, closes _ ⟨by decide, by decide, by decide⟩⟩
  · obtain ⟨after, begins⟩ := shiftRight_first (rest ++ ['*']) (spaces lead)
    have single : OneLine (spaces width ++ ['{', '/', '*', ' ']) := by
      refine ⟨by simp, ?_, ?_⟩ <;> simp [spaces]
    have whole : spaces (lead + width) ++ ['{', '/', '*', ' '] <+: moved ++ ['*'] := by
      rw [← closes ['*'] star, List.append_assoc _ rest, begins _ single, spaces_add,
        List.append_assoc]
      exact List.prefix_append _ _
    -- the opening does not end with the character that stands for what follows it
    refine (List.prefix_concat_iff.mp whole).resolve_left fun same => ?_
    have last := congrArg List.getLast? same
    simp at last
  · have later : commentEnd <:+: shiftRight
        (spaces width ++ ['{', '/', '*', ' '] ++ rest ++ [' ']) (spaces lead) := by
      rw [closes [' '] space]
      exact found.trans (List.prefix_append moved [' ']).isInfix
    have noSpace : ∀ c ∈ spaces lead, c ∉ commentEnd := fun c mem =>
      List.eq_of_mem_replicate mem ▸ by decide
    have before := infix_of_infix_shiftRight (by decide) noSpace later
    obtain inside | behind := infix_around (by decide) before
    · exact noEnd inside
    · exact absurd behind (by decide)

/-- However often a note is indented, it goes on as one. -/
theorem OpenNote.indent {width : Nat} {text : List Char} (opened : OpenNote width text)
    (leads : List Nat) :
    ∃ moved, OpenNote (leads.foldl (· + ·) width) moved ∧
      indent (leads.map spaces) (text ++ (commentEnd ++ ['}'])) =
        moved ++ (commentEnd ++ ['}']) := by
  induction leads generalizing width text with
  | nil => exact ⟨text, opened, rfl⟩
  | cons lead leads ih =>
    obtain ⟨moved, goesOn, shifted⟩ := opened.shift lead
    rw [Nat.add_comm] at goesOn
    obtain ⟨last, ends, indented⟩ := ih goesOn
    refine ⟨last, ends, ?_⟩
    rw [List.map_cons, Text.indent, List.foldl_cons, shifted]
    exact indented

theorem openNote_unsupported (kind : Kind) (id : String) :
    ∃ text, OpenNote 0 text ∧
      (unsupportedNote kind id).toList = text ++ (commentEnd ++ ['}']) := by
  let label := escapeLabel (unsupportedLabel kind id).toList
  let words := "\x7b/* unsupported component:".toList
  have written : (unsupportedNote kind id).toList =
      words ++ ' ' :: label ++ [' '] ++ (commentEnd ++ ['}']) := by
    have opening : "\x7b/* unsupported component: ".toList = words ++ [' '] := rfl
    have closing : " */\x7d".toList = [' '] ++ (commentEnd ++ ['}']) := rfl
    have inside : (String.ofList label).toList = label := String.toList_ofList
    delta unsupportedNote
    rw [String.toList_append, String.toList_append, inside, opening, closing]
    simp only [List.append_assoc, List.cons_append, List.nil_append]
  refine ⟨words ++ ' ' :: label ++ [' '], ⟨⟨_, rfl⟩, fun found => ?_⟩, written⟩
  obtain before | behind := infix_around (by decide) found
  · obtain inWords | inLabel := infix_around (by decide) before
    · exact absurd inWords (by decide)
    · exact noEnd_escapeLabel _ inLabel
  · exact absurd behind (by decide)

/-- The note for an element without a rule is one comment, whatever the kind and the id of the
element hold, and it is one behind spaces however often it is indented with spaces. -/
theorem note_is_one_comment (kind : Kind) (id : String) :
    IsComment (unsupportedNote kind id).toList ∧
      ∀ leads : List Nat, ∃ comment, IsComment comment ∧
        indent (leads.map spaces) (unsupportedNote kind id).toList =
          spaces (leads.foldl (· + ·) 0) ++ comment := by
  obtain ⟨text, opened, written⟩ := openNote_unsupported kind id
  rw [written]
  refine ⟨?_, fun leads => ?_⟩
  · obtain ⟨comment, isComment, whole⟩ := opened.isComment
    rw [whole]
    exact isComment
  · obtain ⟨moved, goesOn, indented⟩ := opened.indent leads
    obtain ⟨comment, isComment, whole⟩ := goesOn.isComment
    exact ⟨comment, isComment, indented.trans whole⟩

end Formwright.Component
