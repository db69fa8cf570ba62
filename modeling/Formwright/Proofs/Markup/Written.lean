import Formwright.Markup.Lexer
import Formwright.Proofs.Effects
import Formwright.Proofs.Markup.Scan

/-!
The written form of tokens: which text each lexing function takes, and what it leaves.
-/

namespace Formwright.Markup

namespace Cursor

theorem skip_rest (count : Nat) (cursor : Cursor) :
    (cursor.skip count).rest = cursor.rest.drop count := by
  induction count generalizing cursor with
  | zero => simp [skip]
  | succ count ih =>
    obtain ⟨position, rest⟩ := cursor
    cases rest with
    | nil => rfl
    | cons c rest => rw [skip, ih, List.drop_succ_cons]

theorem skipWhile_rest (keep : Char → Bool) (cursor : Cursor) :
    (cursor.skipWhile keep).rest = cursor.rest.dropWhile keep := by
  rw [skipWhile, skip_rest]
  have split := (List.takeWhile_append_dropWhile (p := keep) (l := cursor.rest)).symm
  exact (congrArg (List.drop _) split).trans (List.drop_left ..)

theorem rest_of_startsWith {cursor : Cursor} {text : String}
    (starts : cursor.startsWith text = true) :
    cursor.rest = text.toList ++ (cursor.skip text.toList.length).rest := by
  obtain ⟨later, split⟩ := List.isPrefixOf_iff_prefix.mp starts
  rw [skip_rest, ← split, List.drop_left]

theorem rest_of_expect {cursor after : Cursor} {expected : Char}
    (found : cursor.expect expected = .ok after) : cursor.rest = expected :: after.rest := by
  unfold expect at found
  split at found
  next => cases found
  next c later split =>
    split at found
    next same =>
      cases found
      rw [skip_rest, split, same]
      rfl
    next => cases found

theorem rest_of_expectText {cursor after : Cursor} {expected : String}
    (found : cursor.expectText expected = .ok after) :
    cursor.rest = expected.toList ++ after.rest := by
  unfold expectText at found
  split at found
  next starts =>
    cases found
    exact rest_of_startsWith starts
  next => cases found

theorem skipSpaces_split (cursor : Cursor) :
    ∃ spaces, cursor.rest = spaces ++ cursor.skipSpaces.rest ∧ ∀ c ∈ spaces, isSpace c := by
  refine ⟨cursor.rest.takeWhile isSpace, ?_, fun c member => ?_⟩
  · rw [skipSpaces, skipWhile_rest, List.takeWhile_append_dropWhile]
  · exact List.all_eq_true.mp List.all_takeWhile c member

theorem runUntil_split {stop : List Char → Bool} {position : Position} {text run : List Char}
    {after : Cursor} (found : runUntil stop position text = .ok (run, after)) :
    text = run ++ after.rest ∧ Unstopped stop after.rest run := by
  induction text generalizing position run with
  | nil =>
    cases found
    exact ⟨rfl, trivial⟩
  | cons c text ih =>
    unfold runUntil at found
    split at found
    next => cases found
    next =>
      split at found
      next =>
        cases found
        exact ⟨rfl, trivial⟩
      next goesOn =>
        obtain ⟨⟨later, cursor⟩, inner, same⟩ := exists_ok_of_map found
        cases same
        obtain ⟨split, unstopped⟩ := ih inner
        refine ⟨by rw [List.cons_append, ← split], ?_, unstopped⟩
        rw [List.cons_append, ← split]
        exact Bool.eq_false_iff.mpr goesOn

theorem takeUntil_split {stop : List Char → Bool} {cursor after : Cursor} {run : List Char}
    (found : cursor.takeUntil stop = .ok (run, after)) :
    cursor.rest = run ++ after.rest ∧ Unstopped stop after.rest run :=
  runUntil_split found

/-- The text up to a terminator that has to be there. -/
theorem takeUntilText_split {terminator : String} {cursor middle after : Cursor}
    {run : List Char} (found : cursor.takeUntilText terminator = .ok (run, middle))
    (ended : middle.expectText terminator = .ok after) :
    cursor.rest = run ++ (terminator.toList ++ after.rest) ∧
      Unstopped (terminator.toList.isPrefixOf ·) (terminator.toList ++ after.rest) run := by
  rw [← rest_of_expectText ended]
  exact takeUntil_split found

theorem unstopped_head (stop : Option Char → Bool) {rest run : List Char}
    (unstopped : Unstopped (fun text => stop text.head?) rest run) :
    ∀ c ∈ run, stop (some c) = false := by
  induction run with
  | nil => simp
  | cons c run ih =>
    intro d member
    rcases List.mem_cons.mp member with rfl | later
    · exact unstopped.1
    · exact ih unstopped.2 d later

theorem name_split {cursor after : Cursor} {run : List Char}
    (found : cursor.name = .ok (run, after)) :
    cursor.rest = run ++ after.rest ∧ run ≠ [] ∧ ∀ c ∈ run, isNameCharacter c := by
  unfold name at found
  split at found
  next => cases found
  next c later split =>
    split at found
    next starts =>
      cases found
      refine ⟨?_, ?_, fun d member => List.all_eq_true.mp List.all_takeWhile d member⟩
      · rw [← skipWhile, skipWhile_rest, List.takeWhile_append_dropWhile]
      · simp [split, isNameCharacter, starts]
    next => cases found

theorem ne_nil_of_splitName {run : List Char} {name : QualifiedName}
    (found : splitName run = some name) : run ≠ [] := by
  rintro rfl
  cases found

theorem qualifiedName_split {cursor after : Cursor} {name : QualifiedName}
    (found : cursor.qualifiedName = .ok (name, after)) :
    ∃ run, cursor.rest = run ++ after.rest ∧ run ≠ [] ∧ ∀ c ∈ run, isNameCharacter c := by
  simp only [qualifiedName] at found
  split at found
  next name parsed =>
    cases found
    refine ⟨_, ?_, ne_nil_of_splitName parsed,
      fun d member => List.all_eq_true.mp List.all_takeWhile d member⟩
    rw [← skipWhile, skipWhile_rest, List.takeWhile_append_dropWhile]
  next => cases found

end Cursor

theorem ne_of_isNameCharacter {c other : Char} (name : isNameCharacter c)
    (differs : isNameCharacter other = false) : c ≠ other := by
  rintro rfl
  rw [name] at differs
  cases differs

theorem isTagCharacter_of_name {c : Char} (name : isNameCharacter c) :
    isTagCharacter c ∧ c ≠ '<' := by
  have noEnd : c ≠ '>' := ne_of_isNameCharacter name (by decide)
  have noQuote : c ≠ '"' := ne_of_isNameCharacter name (by decide)
  have noApostrophe : c ≠ '\'' := ne_of_isNameCharacter name (by decide)
  exact ⟨by simp [isTagCharacter, noEnd, noQuote, noApostrophe],
    ne_of_isNameCharacter name (by decide)⟩

theorem isTagCharacter_of_space {c : Char} (space : isSpace c) : isTagCharacter c ∧ c ≠ '<' := by
  simp only [isSpace, Bool.or_eq_true, decide_eq_true_eq] at space
  rcases space with ((rfl | rfl) | rfl) | rfl
  all_goals decide

namespace Token

variable {cursor after : Cursor} {token : Token}

theorem lexComment_split (starts : cursor.startsWith "<!--" = true)
    (found : lexComment cursor = .ok (token, after)) :
    ∃ content, token = .comment content ∧
      cursor.rest = "<!--".toList ++ (content ++ ("-->".toList ++ after.rest)) ∧
      Unstopped ("-->".toList.isPrefixOf ·) ("-->".toList ++ after.rest) content := by
  unfold lexComment at found
  obtain ⟨⟨content, middle⟩, taken, found⟩ := exists_ok_of_bind found
  obtain ⟨behind, ended, found⟩ := exists_ok_of_bind found
  obtain ⟨-, found⟩ := ok_of_unless found
  cases found
  obtain ⟨split, unstopped⟩ := Cursor.takeUntilText_split taken ended
  refine ⟨content, rfl, ?_, unstopped⟩
  rw [Cursor.rest_of_startsWith starts]
  exact congrArg _ split

theorem lexCharacterData_split (starts : cursor.startsWith "<![CDATA[" = true)
    (found : lexCharacterData cursor = .ok (token, after)) :
    ∃ content, token = .characterData content ∧
      cursor.rest = "<![CDATA[".toList ++ (content ++ ("]]>".toList ++ after.rest)) ∧
      Unstopped ("]]>".toList.isPrefixOf ·) ("]]>".toList ++ after.rest) content := by
  unfold lexCharacterData at found
  obtain ⟨⟨content, middle⟩, taken, found⟩ := exists_ok_of_bind found
  obtain ⟨behind, ended, found⟩ := exists_ok_of_bind found
  cases found
  obtain ⟨split, unstopped⟩ := Cursor.takeUntilText_split taken ended
  refine ⟨content, rfl, ?_, unstopped⟩
  rw [Cursor.rest_of_startsWith starts]
  exact congrArg _ split

/-- The target of an instruction holds no question mark, and is there: the mark that opens the
instruction does not also close it. -/
theorem lexInstruction_split (starts : cursor.startsWith "<?" = true)
    (found : lexInstruction cursor = .ok (token, after)) :
    ∃ target content body, token = .instruction target content ∧
      cursor.rest = '<' :: '?' :: (body ++ ("?>".toList ++ after.rest)) ∧
      Unstopped ("?>".toList.isPrefixOf ·) ("?>".toList ++ after.rest) ('?' :: body) := by
  unfold lexInstruction at found
  obtain ⟨-, found⟩ := ok_of_unless found
  obtain ⟨⟨target, named⟩, isTarget, found⟩ := exists_ok_of_bind found
  obtain ⟨⟨content, middle⟩, taken, found⟩ := exists_ok_of_bind found
  obtain ⟨behind, ended, found⟩ := exists_ok_of_bind found
  cases found
  obtain ⟨targetSplit, nonempty, nameLike⟩ := Cursor.name_split isTarget
  obtain ⟨spaces, spacesSplit, spaceLike⟩ := Cursor.skipSpaces_split named
  obtain ⟨contentSplit, unstopped⟩ := Cursor.takeUntilText_split taken ended
  refine ⟨target, content, target ++ (spaces ++ content), rfl, ?_, ?_⟩
  · rw [Cursor.rest_of_startsWith starts, List.append_assoc, List.append_assoc, ← contentSplit,
      ← spacesSplit, ← targetSplit]
    rfl
  · have noMark : '?' ∉ target := fun member =>
      ne_of_isNameCharacter (nameLike _ member) (by decide) rfl
    have noSpace : '?' ∉ spaces := fun member => absurd (spaceLike _ member) (by decide)
    have body := (unstopped_append _ _ target (spaces ++ content)).mpr
      ⟨unstopped_of_notMem noMark, (unstopped_append _ _ spaces content).mpr
        ⟨unstopped_of_notMem noSpace, unstopped⟩⟩
    refine ⟨?_, body⟩
    cases target with
    | nil => exact absurd rfl nonempty
    | cons c target =>
      have noEnd : c ≠ '>' := ne_of_isNameCharacter (nameLike c (.head _)) (by decide)
      simpa [List.isPrefixOf] using noEnd.symm

theorem lexText_split (found : lexText cursor = .ok (token, after)) :
    ∃ content run, token = .text content ∧ cursor.rest = run ++ after.rest ∧ '<' ∉ run := by
  unfold lexText at found
  obtain ⟨⟨run, behind⟩, taken, found⟩ := exists_ok_of_bind found
  obtain ⟨-, found⟩ := ok_of_unless found
  cases found
  obtain ⟨split, unstopped⟩ := Cursor.takeUntil_split taken
  refine ⟨_, run, rfl, split, fun member => ?_⟩
  have stopped := Cursor.unstopped_head (· == some '<') unstopped _ member
  simp at stopped

theorem lexTagStart_split (starts : cursor.startsWith "<" = true)
    (found : lexTagStart cursor = .ok (token, after)) :
    ∃ name position run, token = .tagStart name position ∧
      cursor.rest = '<' :: (run ++ after.rest) ∧ run ≠ [] ∧ ∀ c ∈ run, isNameCharacter c := by
  unfold lexTagStart at found
  obtain ⟨⟨name, behind⟩, named, found⟩ := exists_ok_of_bind found
  cases found
  obtain ⟨run, split, nonempty, nameLike⟩ := Cursor.qualifiedName_split named
  refine ⟨name, _, run, rfl, ?_, nonempty, nameLike⟩
  rw [Cursor.rest_of_startsWith starts]
  exact congrArg _ split

theorem lexCloseTag_split (starts : cursor.startsWith "</" = true)
    (found : lexCloseTag cursor = .ok (token, after)) :
    ∃ name position run, token = .closeTag name position ∧
      cursor.rest = '<' :: '/' :: (run ++ '>' :: after.rest) ∧ '>' ∉ run := by
  unfold lexCloseTag at found
  obtain ⟨⟨name, named⟩, isName, found⟩ := exists_ok_of_bind found
  obtain ⟨behind, ended, found⟩ := exists_ok_of_bind found
  cases found
  obtain ⟨run, split, -, nameLike⟩ := Cursor.qualifiedName_split isName
  obtain ⟨spaces, spacesSplit, spaceLike⟩ := Cursor.skipSpaces_split named
  refine ⟨name, _, run ++ spaces, rfl, ?_, fun member => ?_⟩
  · rw [Cursor.rest_of_startsWith starts, List.append_assoc, ← Cursor.rest_of_expect ended,
      ← spacesSplit, ← split]
    rfl
  · rcases List.mem_append.mp member with inName | inSpaces
    · exact ne_of_isNameCharacter (nameLike _ inName) (by decide) rfl
    · exact absurd (spaceLike _ inSpaces) (by decide)

/-- What stands before the value of an attribute is free of quotes and of the end of the tag. -/
theorem lexAttribute_split (found : lexAttribute cursor = .ok (token, after)) :
    ∃ name value position run quote content, token = .attribute name value position ∧
      cursor.rest = run ++ quote :: (content ++ quote :: after.rest) ∧
      (∀ c ∈ run, isTagCharacter c ∧ c ≠ '<') ∧ (quote = '"' ∨ quote = '\'') ∧
      quote ∉ content ∧ '<' ∉ content := by
  unfold lexAttribute at found
  obtain ⟨⟨name, named⟩, isName, found⟩ := exists_ok_of_bind found
  obtain ⟨equated, isEqual, found⟩ := exists_ok_of_bind found
  obtain ⟨run, split, -, nameLike⟩ := Cursor.qualifiedName_split isName
  obtain ⟨spaces, spacesSplit, spaceLike⟩ := Cursor.skipSpaces_split named
  obtain ⟨spaces', spacesSplit', spaceLike'⟩ := Cursor.skipSpaces_split equated
  dsimp only at found
  split at found
  next => cases found
  next quote later opened =>
    obtain ⟨isQuote, found⟩ := ok_of_unless found
    obtain ⟨⟨content, behind⟩, taken, found⟩ := exists_ok_of_bind found
    obtain ⟨closed, ended, found⟩ := exists_ok_of_bind found
    cases found
    obtain ⟨valueSplit, unstopped⟩ := Cursor.takeUntil_split taken
    have inside := Cursor.unstopped_head
      (fun first => first == some quote || first == some '<') unstopped
    refine ⟨name, _, _, run ++ (spaces ++ '=' :: spaces'), quote, content, rfl, ?_,
      fun c member => ?_, ?_,
      fun member => ?_, fun member => ?_⟩
    · rw [split, spacesSplit, Cursor.rest_of_expect isEqual, spacesSplit', opened,
        ← Cursor.rest_of_expect ended, ← valueSplit, Cursor.skip_rest, opened]
      simp
    · rcases List.mem_append.mp member with inName | later
      · exact isTagCharacter_of_name (nameLike c inName)
      · rcases List.mem_append.mp later with inSpaces | equals
        · exact isTagCharacter_of_space (spaceLike c inSpaces)
        · rcases List.mem_cons.mp equals with rfl | inSpaces
          · decide
          · exact isTagCharacter_of_space (spaceLike' c inSpaces)
    · exact Decidable.or_iff_not_imp_left.mpr (by simpa using isQuote)
    · simpa using inside _ member
    · simpa using inside _ member

end Token
end Formwright.Markup
