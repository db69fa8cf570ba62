import Formwright.Proofs.Markup.Steps
import Formwright.Proofs.Text.Reading

/-!
The exact written form of each token: what the lexing functions take is what they find again. It
depends neither on where the token stands nor on what follows it; only a text and the start of a tag
end where the next character ends them.
-/

namespace Formwright.Markup

open Text (takeWhile_run dropWhile_run)

def Leaves {α : Type} (ended : Except Fault (α × Cursor)) (value : α) (rest : List Char) : Prop :=
  ∃ after, ended = .ok (value, after) ∧ after.rest = rest

/-- A text in which a terminator is not met before its end, also not one that begins in it. -/
structure RunsTo (terminator run : List Char) : Prop where
  legal : ∀ c ∈ run, isDocumentCharacter c = true
  unstopped : Unstopped (terminator.isPrefixOf ·) terminator run

theorem isPrefixOf_append {word text : List Char} (enough : word.length ≤ text.length)
    (rest : List Char) : word.isPrefixOf (text ++ rest) = word.isPrefixOf text := by
  rw [Bool.eq_iff_iff, List.isPrefixOf_iff_prefix, List.isPrefixOf_iff_prefix]
  constructor
  · exact fun starts => List.prefix_of_prefix_length_le starts (List.prefix_append ..) enough
  · exact fun starts => starts.trans (List.prefix_append ..)

/-- What follows a terminator has no part in where it is met. -/
theorem unstopped_terminator (terminator rest run : List Char) :
    Unstopped (terminator.isPrefixOf ·) (terminator ++ rest) run ↔
      Unstopped (terminator.isPrefixOf ·) terminator run := by
  induction run with
  | nil => exact Iff.rfl
  | cons c run ih =>
    have enough : terminator.length ≤ (c :: run ++ terminator).length := by
      rw [List.length_append]
      omega
    simp only [Unstopped, ih, ← isPrefixOf_append enough rest, List.append_assoc]

/-- Where a word is met does not depend on what follows a character that is not in the word. -/
theorem isPrefixOf_sentinel {word : List Char} {c : Char} (absent : c ∉ word)
    (text rest : List Char) : word.isPrefixOf (text ++ c :: rest) = word.isPrefixOf text := by
  induction text generalizing word with
  | nil =>
    cases word with
    | nil => rfl
    | cons d word =>
      have differs : d ≠ c := fun same => absent (same ▸ List.mem_cons_self)
      simp [List.isPrefixOf, differs]
  | cons e text ih =>
    cases word with
    | nil => rfl
    | cons d word =>
      simp only [List.cons_append, List.isPrefixOf]
      rw [ih fun mem => absent (List.mem_cons_of_mem d mem)]

theorem stopped_dropWhile (keep : Char → Bool) (text : List Char) :
    ∀ c ∈ (text.dropWhile keep).head?, keep c = false := by
  intro c first
  have stops := List.head?_dropWhile_not keep text
  rw [Option.mem_def.mp first] at stops
  exact stops

theorem unstopped_of_head (stop : Option Char → Bool) {run : List Char}
    (inside : ∀ c ∈ run, stop (some c) = false) (rest : List Char) :
    Unstopped (fun text => stop text.head?) rest run := by
  induction run with
  | nil => trivial
  | cons c run ih =>
    exact ⟨inside c List.mem_cons_self, ih fun d mem => inside d (List.mem_cons_of_mem c mem)⟩

namespace Cursor

variable {cursor : Cursor} {rest : List Char}

theorem skipSpaces_run {spaces : List Char} (split : cursor.rest = spaces ++ rest)
    (spaced : ∀ c ∈ spaces, isSpace c = true) (stops : ∀ c ∈ rest.head?, isSpace c = false) :
    cursor.skipSpaces.rest = rest := by
  rw [skipSpaces, skipWhile_rest, split, dropWhile_run spaced stops]

theorem skipSpaces_stopped (cursor : Cursor) :
    ∀ c ∈ cursor.skipSpaces.rest.head?, isSpace c = false := by
  rw [skipSpaces, skipWhile_rest]
  exact stopped_dropWhile isSpace cursor.rest

theorem expect_of_rest {c : Char} (split : cursor.rest = c :: rest) :
    ∃ after, cursor.expect c = .ok after ∧ after.rest = rest := by
  refine ⟨cursor.skip 1, ?_, by rw [skip_rest, split]; rfl⟩
  simp [expect, split]

theorem skip_of_rest (run : List Char) (split : cursor.rest = run ++ rest) :
    (cursor.skip run.length).rest = rest := by
  rw [skip_rest, split, List.drop_left]

theorem expectText_of_rest {text : String} (split : cursor.rest = text.toList ++ rest) :
    ∃ after, cursor.expectText text = .ok after ∧ after.rest = rest := by
  refine ⟨cursor.skip text.toList.length, ?_, skip_of_rest _ split⟩
  rw [expectText, if_pos (startsWith_of_rest split)]

theorem runUntil_stops {stop : List Char → Bool} {position : Position} {text run : List Char}
    {after : Cursor} (found : runUntil stop position text = .ok (run, after)) :
    (∀ c ∈ run, isDocumentCharacter c = true) ∧ (after.rest ≠ [] → stop after.rest = true) := by
  induction text generalizing position run with
  | nil =>
    cases found
    exact ⟨nofun, fun more => absurd rfl more⟩
  | cons c text ih =>
    unfold runUntil at found
    split at found
    next => cases found
    next known =>
      split at found
      next stopped =>
        cases found
        exact ⟨nofun, fun _ => stopped⟩
      next =>
        obtain ⟨⟨later, cursor⟩, inner, same⟩ := exists_ok_of_map found
        cases same
        obtain ⟨legal, ends⟩ := ih inner
        refine ⟨fun d mem => ?_, ends⟩
        cases List.mem_cons.mp mem with
        | inl here => simpa [here] using known
        | inr behind => exact legal d behind

theorem runUntil_run {stop : List Char → Bool} {run rest : List Char}
    (legal : ∀ c ∈ run, isDocumentCharacter c = true) (unstopped : Unstopped stop rest run)
    (ends : ∀ c later, rest = c :: later → isDocumentCharacter c = true ∧ stop rest = true)
    (position : Position) : Leaves (runUntil stop position (run ++ rest)) run rest := by
  induction run generalizing position with
  | nil =>
    cases rest with
    | nil => exact ⟨⟨position, []⟩, rfl, rfl⟩
    | cons c later =>
      obtain ⟨known, stopped⟩ := ends c later rfl
      refine ⟨⟨position, c :: later⟩, ?_, rfl⟩
      rw [List.nil_append, runUntil, known, if_neg (by decide), if_pos stopped]
  | cons c run ih =>
    obtain ⟨after, done, left⟩ := ih (fun d mem => legal d (List.mem_cons_of_mem c mem))
      unstopped.2 (position.after c)
    have goesOn : stop (c :: (run ++ rest)) = false := unstopped.1
    refine ⟨after, ?_, left⟩
    rw [List.cons_append, runUntil, legal c List.mem_cons_self, if_neg (by decide), goesOn, done]
    rfl

/-- A text up to a terminator that is passed with it. -/
theorem runsTo_of_takeUntilText {terminator : String} {middle after : Cursor} {run : List Char}
    (found : cursor.takeUntilText terminator = .ok (run, middle))
    (ended : middle.expectText terminator = .ok after) :
    cursor.rest = run ++ (terminator.toList ++ after.rest) ∧ RunsTo terminator.toList run := by
  obtain ⟨split, unstopped⟩ := takeUntilText_split found ended
  exact ⟨split, (runUntil_stops found).1, (unstopped_terminator _ _ _).mp unstopped⟩

theorem takeUntilText_run {terminator : String} {run : List Char}
    (split : cursor.rest = run ++ (terminator.toList ++ rest)) (runs : RunsTo terminator.toList run)
    (known : ∀ c ∈ terminator.toList.head?, isDocumentCharacter c = true)
    (filled : terminator.toList ≠ []) :
    ∃ middle after, cursor.takeUntilText terminator = .ok (run, middle) ∧
      middle.expectText terminator = .ok after ∧ after.rest = rest := by
  have ends : ∀ c later, terminator.toList ++ rest = c :: later → isDocumentCharacter c = true ∧
      terminator.toList.isPrefixOf (terminator.toList ++ rest) = true := by
    intro c later opened
    refine ⟨known c ?_, List.isPrefixOf_iff_prefix.mpr (List.prefix_append ..)⟩
    cases begins : terminator.toList with
    | nil => exact absurd begins filled
    | cons d more =>
      rw [begins] at opened
      cases opened
      rfl
  obtain ⟨middle, taken, left⟩ := runUntil_run runs.legal
    ((unstopped_terminator _ rest _).mpr runs.unstopped) ends cursor.position
  obtain ⟨after, ended, behind⟩ := expectText_of_rest left
  refine ⟨middle, after, ?_, ended, behind⟩
  rw [takeUntilText, takeUntil, split]
  exact taken

theorem name_stops {after : Cursor} {run : List Char} (found : cursor.name = .ok (run, after)) :
    run.head?.any isNameStart = true ∧ ∀ c ∈ after.rest.head?, isNameCharacter c = false := by
  unfold name at found
  split at found
  next => cases found
  next c later split =>
    split at found
    next starts =>
      cases found
      constructor
      · simp [split, isNameCharacter, starts]
      · rw [← skipWhile, skipWhile_rest]
        exact stopped_dropWhile isNameCharacter cursor.rest
    next => cases found

theorem name_run {run : List Char} (split : cursor.rest = run ++ rest)
    (starts : run.head?.any isNameStart = true) (nameLike : ∀ c ∈ run, isNameCharacter c = true)
    (stops : ∀ c ∈ rest.head?, isNameCharacter c = false) : Leaves cursor.name run rest := by
  have taken : cursor.rest.takeWhile isNameCharacter = run := by
    rw [split, takeWhile_run nameLike stops]
  refine ⟨cursor.skip run.length, ?_, skip_of_rest run split⟩
  cases run with
  | nil => cases starts
  | cons c run =>
    have first : isNameStart c = true := starts
    unfold name
    split
    next ended =>
      rw [ended] at split
      cases split
    next d later opened =>
      rw [opened] at split
      cases split
      rw [if_pos first]
      dsimp only
      rw [taken]

theorem qualifiedName_stops {after : Cursor} {name : QualifiedName}
    (found : cursor.qualifiedName = .ok (name, after)) :
    ∃ run, cursor.rest = run ++ after.rest ∧ (∀ c ∈ run, isNameCharacter c = true) ∧
      splitName run = some name ∧ ∀ c ∈ after.rest.head?, isNameCharacter c = false := by
  simp only [qualifiedName] at found
  split at found
  next parsed =>
    cases found
    rw [← skipWhile, skipWhile_rest]
    exact ⟨_, List.takeWhile_append_dropWhile.symm,
      fun c mem => List.all_eq_true.mp List.all_takeWhile c mem, parsed,
      stopped_dropWhile isNameCharacter cursor.rest⟩
  next => cases found

theorem qualifiedName_run {run : List Char} {name : QualifiedName}
    (split : cursor.rest = run ++ rest) (nameLike : ∀ c ∈ run, isNameCharacter c = true)
    (parsed : splitName run = some name) (stops : ∀ c ∈ rest.head?, isNameCharacter c = false) :
    Leaves cursor.qualifiedName name rest := by
  have taken : cursor.rest.takeWhile isNameCharacter = run := by
    rw [split, takeWhile_run nameLike stops]
  refine ⟨cursor.skip run.length, ?_, skip_of_rest run split⟩
  simp only [qualifiedName, taken, parsed]

end Cursor

/-! ## Tokens -/

theorem isNameCharacter_of_space {c : Char} (space : isSpace c = true) :
    isNameCharacter c = false := by
  simp only [isSpace, Bool.or_eq_true, decide_eq_true_eq] at space
  rcases space with ((rfl | rfl) | rfl) | rfl
  all_goals decide

/-- Behind spaces there is a character that belongs to no name. -/
theorem name_ends {spaces : List Char} (spaced : ∀ c ∈ spaces, isSpace c = true) {mark : Char}
    (noName : isNameCharacter mark = false) (rest : List Char) :
    ∀ c ∈ (spaces ++ mark :: rest).head?, isNameCharacter c = false := by
  cases spaces with
  | nil =>
    rintro c ⟨⟩
    exact noName
  | cons d spaces =>
    rintro c ⟨⟩
    exact isNameCharacter_of_space (spaced _ List.mem_cons_self)

theorem space_ends {mark : Char} (noSpace : isSpace mark = false) (rest : List Char) :
    ∀ c ∈ (mark :: rest).head?, isSpace c = false := by
  rintro c ⟨⟩
  exact noSpace

structure CommentText (content : List Char) : Prop where
  runs : RunsTo "-->".toList content
  sound : ¬(Text.occursIn ['-', '-'] content || content.getLast? = some '-') = true

structure InstructionText (target spaces content : List Char) : Prop where
  named : target.head?.any isNameStart = true
  nameLike : ∀ c ∈ target, isNameCharacter c = true
  spaced : ∀ c ∈ spaces, isSpace c = true
  endsName : ∀ c ∈ (spaces ++ (content ++ ['?'])).head?, isNameCharacter c = false
  endsSpaces : ∀ c ∈ (content ++ ['?']).head?, isSpace c = false
  runs : RunsTo "?>".toList content
  undeclared : "xml ".toList.isPrefixOf (target ++ (spaces ++ content)) = false

structure NameText (name : QualifiedName) (run : List Char) : Prop where
  nameLike : ∀ c ∈ run, isNameCharacter c = true
  parsed : Cursor.splitName run = some name

structure AttributeText (name : QualifiedName) (content run : List Char) : Prop where
  written : ∃ named before behind quote,
    run = named ++ (before ++ '=' :: (behind ++ quote :: (content ++ [quote]))) ∧
    NameText name named ∧ (∀ c ∈ before, isSpace c = true) ∧ (∀ c ∈ behind, isSpace c = true) ∧
    (quote = '"' ∨ quote = '\'') ∧ quote ∉ content
  legal : ∀ c ∈ content, isDocumentCharacter c = true
  plain : '<' ∉ content

structure TextRun (run : List Char) : Prop where
  filled : run ≠ []
  legal : ∀ c ∈ run, isDocumentCharacter c = true
  plain : '<' ∉ run
  sound : Text.occursIn "]]>".toList run = false

namespace Token

variable {cursor after : Cursor} {token : Token} {rest : List Char}

theorem lexComment_text (starts : cursor.startsWith "<!--" = true)
    (found : lexComment cursor = .ok (token, after)) :
    ∃ content, token = .comment content ∧ CommentText content ∧
      cursor.rest = "<!--".toList ++ (content ++ ("-->".toList ++ after.rest)) := by
  unfold lexComment at found
  obtain ⟨⟨content, middle⟩, taken, found⟩ := exists_ok_of_bind found
  obtain ⟨behind, ended, found⟩ := exists_ok_of_bind found
  obtain ⟨sound, found⟩ := ok_of_unless found
  cases found
  obtain ⟨split, runs⟩ := Cursor.runsTo_of_takeUntilText taken ended
  refine ⟨content, rfl, ⟨runs, sound⟩, ?_⟩
  rw [Cursor.rest_of_startsWith starts]
  exact congrArg _ split

theorem lexComment_run {content : List Char} (comment : CommentText content)
    (split : cursor.rest = "<!--".toList ++ (content ++ ("-->".toList ++ rest))) :
    Leaves (lexComment cursor) (.comment content) rest := by
  have opened : (cursor.skip 4).rest = content ++ ("-->".toList ++ rest) :=
    Cursor.skip_of_rest _ split
  obtain ⟨middle, after, taken, ended, left⟩ :=
    Cursor.takeUntilText_run opened comment.runs (by rintro c ⟨⟩; decide) (by decide)
  refine ⟨after, ?_, left⟩
  simp only [lexComment, bind, Except.bind, taken, ended, if_neg comment.sound]
  rfl

theorem lexCharacterData_text (starts : cursor.startsWith "<![CDATA[" = true)
    (found : lexCharacterData cursor = .ok (token, after)) :
    ∃ content, token = .characterData content ∧ RunsTo "]]>".toList content ∧
      cursor.rest = "<![CDATA[".toList ++ (content ++ ("]]>".toList ++ after.rest)) := by
  unfold lexCharacterData at found
  obtain ⟨⟨content, middle⟩, taken, found⟩ := exists_ok_of_bind found
  obtain ⟨behind, ended, found⟩ := exists_ok_of_bind found
  cases found
  obtain ⟨split, runs⟩ := Cursor.runsTo_of_takeUntilText taken ended
  refine ⟨content, rfl, runs, ?_⟩
  rw [Cursor.rest_of_startsWith starts]
  exact congrArg _ split

theorem lexCharacterData_run {content : List Char} (runs : RunsTo "]]>".toList content)
    (split : cursor.rest = "<![CDATA[".toList ++ (content ++ ("]]>".toList ++ rest))) :
    Leaves (lexCharacterData cursor) (.characterData content) rest := by
  have opened : (cursor.skip 9).rest = content ++ ("]]>".toList ++ rest) :=
    Cursor.skip_of_rest _ split
  obtain ⟨middle, after, taken, ended, left⟩ :=
    Cursor.takeUntilText_run opened runs (by rintro c ⟨⟩; decide) (by decide)
  refine ⟨after, ?_, left⟩
  simp only [lexCharacterData, bind, Except.bind, taken, ended]
  rfl

theorem startsWith_declaration (split : cursor.rest = '<' :: '?' :: rest) :
    cursor.startsWith "<?xml " = "xml ".toList.isPrefixOf rest := by
  rw [Cursor.startsWith, split]
  rfl

theorem lexInstruction_text (starts : cursor.startsWith "<?" = true)
    (found : lexInstruction cursor = .ok (token, after)) :
    ∃ target spaces content, token = .instruction target content ∧
      InstructionText target spaces content ∧
      cursor.rest = '<' :: '?' :: (target ++ (spaces ++ (content ++ ("?>".toList ++ after.rest)))) := by
  unfold lexInstruction at found
  obtain ⟨undeclared, found⟩ := ok_of_unless found
  obtain ⟨⟨target, named⟩, isTarget, found⟩ := exists_ok_of_bind found
  obtain ⟨⟨content, middle⟩, taken, found⟩ := exists_ok_of_bind found
  obtain ⟨behind, ended, found⟩ := exists_ok_of_bind found
  cases found
  obtain ⟨targetSplit, -, nameLike⟩ := Cursor.name_split isTarget
  obtain ⟨first, endsName⟩ := Cursor.name_stops isTarget
  obtain ⟨spaces, spacesSplit, spaced⟩ := Cursor.skipSpaces_split named
  have endsSpaces := Cursor.skipSpaces_stopped named
  obtain ⟨contentSplit, runs⟩ := Cursor.runsTo_of_takeUntilText taken ended
  have split : cursor.rest =
      '<' :: '?' :: (target ++ (spaces ++ (content ++ ("?>".toList ++ after.rest)))) := by
    rw [Cursor.rest_of_startsWith starts, ← contentSplit, ← spacesSplit, ← targetSplit]
    rfl
  have mark (before : List Char) : (before ++ ("?>".toList ++ after.rest)).head? =
      (before ++ ['?']).head? := by
    cases before <;> rfl
  rw [startsWith_declaration split] at undeclared
  rw [spacesSplit, contentSplit, ← List.append_assoc, mark, List.append_assoc] at endsName
  rw [contentSplit, mark] at endsSpaces
  refine ⟨target, spaces, content, rfl, ⟨first, nameLike, spaced, endsName, endsSpaces, runs, ?_⟩,
    split⟩
  rw [← List.append_assoc, ← List.append_assoc, List.append_assoc target] at undeclared
  exact (isPrefixOf_sentinel (by decide) _ _).symm.trans (Bool.eq_false_iff.mpr undeclared)

theorem lexInstruction_run {target spaces content : List Char}
    (instruction : InstructionText target spaces content)
    (split : cursor.rest =
      '<' :: '?' :: (target ++ (spaces ++ (content ++ ("?>".toList ++ rest))))) :
    Leaves (lexInstruction cursor) (.instruction target content) rest := by
  have mark (before : List Char) : (before ++ ("?>".toList ++ rest)).head? =
      (before ++ ['?']).head? := by
    cases before <;> rfl
  have undeclared : cursor.startsWith "<?xml " = false := by
    rw [startsWith_declaration split, ← List.append_assoc, ← List.append_assoc,
      List.append_assoc target]
    exact (isPrefixOf_sentinel (by decide) _ _).trans instruction.undeclared
  have opened : (cursor.skip 2).rest = target ++ (spaces ++ (content ++ ("?>".toList ++ rest))) :=
    Cursor.skip_of_rest ['<', '?'] split
  have endsName := instruction.endsName
  rw [← List.append_assoc, ← mark, List.append_assoc] at endsName
  have endsSpaces := instruction.endsSpaces
  rw [← mark] at endsSpaces
  obtain ⟨named, isTarget, behind⟩ :=
    Cursor.name_run opened instruction.named instruction.nameLike endsName
  have spaced := Cursor.skipSpaces_run behind instruction.spaced endsSpaces
  obtain ⟨middle, after, taken, ended, left⟩ :=
    Cursor.takeUntilText_run spaced instruction.runs (by rintro c ⟨⟩; decide) (by decide)
  refine ⟨after, ?_, left⟩
  simp only [lexInstruction, bind, Except.bind, undeclared, isTarget, taken, ended]
  rfl

theorem lexTagStart_text (starts : cursor.startsWith "<" = true)
    (found : lexTagStart cursor = .ok (token, after)) :
    ∃ name position run, token = .tagStart name position ∧ NameText name run ∧
      cursor.rest = '<' :: (run ++ after.rest) ∧ ∀ c ∈ after.rest.head?, isNameCharacter c = false := by
  unfold lexTagStart at found
  obtain ⟨⟨name, behind⟩, named, found⟩ := exists_ok_of_bind found
  cases found
  obtain ⟨run, split, nameLike, parsed, stops⟩ := Cursor.qualifiedName_stops named
  refine ⟨name, _, run, rfl, ⟨nameLike, parsed⟩, ?_, stops⟩
  rw [Cursor.rest_of_startsWith starts]
  exact congrArg _ split

theorem lexTagStart_run {name : QualifiedName} {run : List Char} (named : NameText name run)
    (stops : ∀ c ∈ rest.head?, isNameCharacter c = false)
    (split : cursor.rest = '<' :: (run ++ rest)) :
    ∃ position, Leaves (lexTagStart cursor) (.tagStart name position) rest := by
  have opened : (cursor.skip 1).rest = run ++ rest := Cursor.skip_of_rest ['<'] split
  obtain ⟨after, found, left⟩ := Cursor.qualifiedName_run opened named.nameLike named.parsed stops
  refine ⟨(cursor.skip 1).position, after, ?_, left⟩
  simp only [lexTagStart, bind, Except.bind, found]
  rfl

theorem lexCloseTag_text (starts : cursor.startsWith "</" = true)
    (found : lexCloseTag cursor = .ok (token, after)) :
    ∃ name position run spaces, token = .closeTag name position ∧ NameText name run ∧
      (∀ c ∈ spaces, isSpace c = true) ∧
      cursor.rest = '<' :: '/' :: (run ++ (spaces ++ '>' :: after.rest)) := by
  unfold lexCloseTag at found
  obtain ⟨⟨name, named⟩, isName, found⟩ := exists_ok_of_bind found
  obtain ⟨behind, ended, found⟩ := exists_ok_of_bind found
  cases found
  obtain ⟨run, split, nameLike, parsed, -⟩ := Cursor.qualifiedName_stops isName
  obtain ⟨spaces, spacesSplit, spaced⟩ := Cursor.skipSpaces_split named
  refine ⟨name, _, run, spaces, rfl, ⟨nameLike, parsed⟩, spaced, ?_⟩
  rw [Cursor.rest_of_startsWith starts, ← Cursor.rest_of_expect ended, ← spacesSplit, ← split]
  rfl

theorem lexCloseTag_run {name : QualifiedName} {run spaces : List Char} (named : NameText name run)
    (spaced : ∀ c ∈ spaces, isSpace c = true)
    (split : cursor.rest = '<' :: '/' :: (run ++ (spaces ++ '>' :: rest))) :
    ∃ position, Leaves (lexCloseTag cursor) (.closeTag name position) rest := by
  have opened : (cursor.skip 2).rest = run ++ (spaces ++ '>' :: rest) :=
    Cursor.skip_of_rest ['<', '/'] split
  obtain ⟨middle, found, behind⟩ := Cursor.qualifiedName_run opened named.nameLike named.parsed
    (name_ends spaced (by decide) rest)
  have spaces := Cursor.skipSpaces_run behind spaced (space_ends (by decide) rest)
  obtain ⟨after, ended, left⟩ := Cursor.expect_of_rest spaces
  refine ⟨cursor.position, after, ?_, left⟩
  simp only [lexCloseTag, bind, Except.bind, found, ended]
  rfl

theorem lexText_text (filled : cursor.rest ≠ []) (noTag : cursor.rest.head? ≠ some '<')
    (found : lexText cursor = .ok (token, after)) :
    ∃ content, token = .text content ∧ TextRun content.rest ∧
      cursor.rest = content.rest ++ after.rest ∧ ∀ c ∈ after.rest.head?, c = '<' := by
  unfold lexText at found
  obtain ⟨⟨run, behind⟩, taken, found⟩ := exists_ok_of_bind found
  obtain ⟨sound, found⟩ := ok_of_unless found
  cases found
  obtain ⟨split, unstopped⟩ := Cursor.takeUntil_split taken
  obtain ⟨legal, stops⟩ := Cursor.runUntil_stops taken
  have plain : '<' ∉ run := fun mem => by
    have goesOn := Cursor.unstopped_head (· == some '<') unstopped _ mem
    simp at goesOn
  have ends : ∀ c ∈ after.rest.head?, c = '<' := by
    intro c first
    cases left : after.rest with
    | nil =>
      rw [left] at first
      cases first
    | cons d later =>
      rw [left] at first
      cases first
      have stopped := stops (by rw [left]; exact List.cons_ne_nil _ _)
      rw [left] at stopped
      simpa using stopped
  refine ⟨_, rfl, ⟨?_, legal, plain, Bool.eq_false_iff.mpr sound⟩, split, ends⟩
  rintro rfl
  cases left : after.rest with
  | nil => exact filled (split.trans left)
  | cons d later =>
    apply noTag
    rw [split, List.nil_append, left, ends d (by rw [left]; rfl)]
    rfl

theorem lexText_run {run : List Char} (isText : TextRun run) (stops : ∀ c ∈ rest.head?, c = '<')
    (split : cursor.rest = run ++ rest) :
    ∃ position, Leaves (lexText cursor) (.text ⟨position, run⟩) rest := by
  have inside : ∀ c ∈ run, (some c == some '<') = false := by
    intro c mem
    have differs : c ≠ '<' := fun same => isText.plain (same ▸ mem)
    simpa using differs
  have ends : ∀ c later, rest = c :: later → isDocumentCharacter c = true ∧
      (rest.head? == some '<') = true := by
    rintro c later rfl
    rw [stops c rfl]
    exact ⟨by decide, rfl⟩
  obtain ⟨after, taken, left⟩ :=
    Cursor.runUntil_run isText.legal (unstopped_of_head (· == some '<') inside rest) ends
      cursor.position
  rw [← split] at taken
  refine ⟨cursor.position, after, ?_, left⟩
  simp only [lexText, Cursor.takeUntil, bind, Except.bind, taken, isText.sound]
  rfl

theorem lexAttribute_text (found : lexAttribute cursor = .ok (token, after)) :
    ∃ name value position run, token = .attribute name value position ∧
      AttributeText name value.rest run ∧ cursor.rest = run ++ after.rest := by
  unfold lexAttribute at found
  obtain ⟨⟨name, named⟩, isName, found⟩ := exists_ok_of_bind found
  obtain ⟨equated, isEqual, found⟩ := exists_ok_of_bind found
  obtain ⟨run, split, nameLike, parsed, -⟩ := Cursor.qualifiedName_stops isName
  obtain ⟨before, beforeSplit, spaced⟩ := Cursor.skipSpaces_split named
  obtain ⟨behind, behindSplit, spaced'⟩ := Cursor.skipSpaces_split equated
  dsimp only at found
  split at found
  next => cases found
  next quote later opened =>
    obtain ⟨isQuote, found⟩ := ok_of_unless found
    obtain ⟨⟨content, last⟩, taken, found⟩ := exists_ok_of_bind found
    obtain ⟨closed, ended, found⟩ := exists_ok_of_bind found
    cases found
    obtain ⟨valueSplit, unstopped⟩ := Cursor.takeUntil_split taken
    obtain ⟨legal, -⟩ := Cursor.runUntil_stops taken
    have inside := Cursor.unstopped_head
      (fun first => first == some quote || first == some '<') unstopped
    refine ⟨name, _, _, run ++ (before ++ '=' :: (behind ++ quote :: (content ++ [quote]))), rfl,
      ⟨⟨run, before, behind, quote, rfl, ⟨nameLike, parsed⟩, spaced, spaced', ?_, ?_⟩, legal, ?_⟩, ?_⟩
    · exact Decidable.or_iff_not_imp_left.mpr (by simpa using isQuote)
    · intro mem
      simpa using inside _ mem
    · intro mem
      simpa using inside _ mem
    · rw [split, beforeSplit, Cursor.rest_of_expect isEqual, behindSplit, opened]
      have value : later = content ++ quote :: after.rest := by
        rw [← Cursor.rest_of_expect ended, ← valueSplit, Cursor.skip_rest, opened]
        rfl
      rw [value]
      simp

theorem lexAttribute_run {name : QualifiedName} {content run : List Char}
    (isAttribute : AttributeText name content run) (split : cursor.rest = run ++ rest) :
    ∃ value position, value.rest = content ∧
      Leaves (lexAttribute cursor) (.attribute name value position) rest := by
  obtain ⟨named, before, behind, quote, rfl, isName, spaced, spaced', isQuote, closed⟩ :=
    isAttribute.written
  have whole : cursor.rest =
      named ++ (before ++ '=' :: (behind ++ quote :: (content ++ quote :: rest))) := by
    rw [split]
    simp
  have noSpace : isSpace quote = false := by
    rcases isQuote with rfl | rfl
    · decide
    · decide
  have refused : ¬(quote != '"' && quote != '\'') = true := by
    rcases isQuote with rfl | rfl
    · decide
    · decide
  have known : isDocumentCharacter quote = true := by
    rcases isQuote with rfl | rfl
    · decide
    · decide
  obtain ⟨first, found, left⟩ := Cursor.qualifiedName_run whole isName.nameLike isName.parsed
    (name_ends spaced (by decide) _)
  have spaces := Cursor.skipSpaces_run left spaced (space_ends (by decide) _)
  obtain ⟨second, equal, left⟩ := Cursor.expect_of_rest spaces
  have opened := Cursor.skipSpaces_run left spaced' (space_ends noSpace _)
  have inside : ∀ c ∈ content, (some c == some quote || some c == some '<') = false := by
    intro c mem
    have differs : c ≠ quote := fun same => closed (same ▸ mem)
    have plain : c ≠ '<' := fun same => isAttribute.plain (same ▸ mem)
    simp [differs, plain]
  have begins : (second.skipSpaces.skip 1).rest = content ++ quote :: rest :=
    Cursor.skip_of_rest [quote] opened
  have ends : ∀ c later, quote :: rest = c :: later → isDocumentCharacter c = true ∧
      ((quote :: rest).head? == some quote || (quote :: rest).head? == some '<') = true := by
    rintro c later ⟨⟩
    exact ⟨known, by simp⟩
  obtain ⟨third, taken, left⟩ := Cursor.runUntil_run isAttribute.legal
    (unstopped_of_head (fun first => first == some quote || first == some '<') inside
      (quote :: rest)) ends (second.skipSpaces.skip 1).position
  rw [← begins] at taken
  obtain ⟨after, ended, left⟩ := Cursor.expect_of_rest left
  refine ⟨⟨(second.skipSpaces.skip 1).position, content⟩, cursor.position, rfl, after, ?_, left⟩
  simp only [lexAttribute, Cursor.takeUntil, bind, Except.bind, found, equal]
  split
  next none =>
    rw [opened] at none
    cases none
  next given later some =>
    rw [opened] at some
    cases some
    simp only [if_neg refused, taken, ended]
    rfl

end Token
end Formwright.Markup
