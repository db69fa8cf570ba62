import Formwright.Proofs.Markup.Written

/-!
One step of the lexer as a relation between texts, and the lexing of a document as a chain of
such steps. What is true of every step is proved by cases on the relation.
-/

namespace Formwright.Markup

def Place.depth : Place → Nat
  | .prolog | .epilog => 0
  | .tag depth | .content depth => depth

def Place.inTag : Place → Bool
  | .tag _ => true
  | _ => false

def Place.admitsElement : Place → Bool
  | .prolog | .content _ => true
  | .tag _ | .epilog => false

/-- `Reads place text token next rest`: at `place`, `text` begins with `token`, behind which `rest`
is read at `next`. -/
inductive Reads : Place → List Char → Token → Place → List Char → Prop
  | comment {place : Place} {spaces content rest : List Char} (between : place.inTag = false)
      (spaced : ∀ c ∈ spaces, isSpace c)
      (unstopped : Unstopped ("-->".toList.isPrefixOf ·) ("-->".toList ++ rest) content) :
      Reads place (spaces ++ ("<!--".toList ++ (content ++ ("-->".toList ++ rest))))
        (.comment content) place rest
  | instruction {place : Place} {spaces target content body rest : List Char}
      (between : place.inTag = false) (spaced : ∀ c ∈ spaces, isSpace c)
      (unstopped : Unstopped ("?>".toList.isPrefixOf ·) ("?>".toList ++ rest) ('?' :: body)) :
      Reads place (spaces ++ '<' :: '?' :: (body ++ ("?>".toList ++ rest)))
        (.instruction target content) place rest
  | tagStart {place : Place} {spaces run rest : List Char} {name : QualifiedName}
      {position : Position} (admits : place.admitsElement = true)
      (spaced : ∀ c ∈ spaces, isSpace c) (nonempty : run ≠ [])
      (nameLike : ∀ c ∈ run, isNameCharacter c) :
      Reads place (spaces ++ '<' :: (run ++ rest)) (.tagStart name position) (.tag place.depth) rest
  | tagAttribute {depth : Nat} {run content rest : List Char} {quote : Char} {name : QualifiedName}
      {value : Cursor} {position : Position} (plain : ∀ c ∈ run, isTagCharacter c)
      (isQuote : quote = '"' ∨ quote = '\'') (closed : quote ∉ content) :
      Reads (.tag depth) (run ++ quote :: (content ++ quote :: rest))
        (.attribute name value position) (.tag depth) rest
  | selfClosing {depth : Nat} {spaces rest : List Char} (spaced : ∀ c ∈ spaces, isSpace c) :
      Reads (.tag depth) (spaces ++ '/' :: '>' :: rest) (.tagEnd true) (.inside depth) rest
  | tagEnd {depth : Nat} {spaces rest : List Char} (spaced : ∀ c ∈ spaces, isSpace c) :
      Reads (.tag depth) (spaces ++ '>' :: rest) (.tagEnd false) (.content (depth + 1)) rest
  | closeTag {depth : Nat} {run rest : List Char} {name : QualifiedName} {position : Position}
      (plain : '>' ∉ run) :
      Reads (.content depth) ('<' :: '/' :: (run ++ '>' :: rest)) (.closeTag name position)
        (.inside (depth - 1)) rest
  | text {depth : Nat} {run rest : List Char} {content : Cursor} (plain : '<' ∉ run) :
      Reads (.content depth) (run ++ rest) (.text content) (.content depth) rest
  | characterData {depth : Nat} {content rest : List Char}
      (unstopped : Unstopped ("]]>".toList.isPrefixOf ·) ("]]>".toList ++ rest) content) :
      Reads (.content depth) ("<![CDATA[".toList ++ (content ++ ("]]>".toList ++ rest)))
        (.characterData content) (.content depth) rest

theorem Cursor.startsWith_of_rest {cursor : Cursor} {text : String} {later : List Char}
    (split : cursor.rest = text.toList ++ later) : cursor.startsWith text = true := by
  rw [startsWith, split, List.isPrefixOf_iff_prefix]
  exact List.prefix_append ..

namespace Step

variable {place next : Place} {cursor after : Cursor} {token : Token}

theorem lexed_of_next {lexed : Except Fault (Token × Cursor)}
    (found : lexed.map (of place) = .ok (.next token next after)) :
    lexed = .ok (token, after) ∧ next = place := by
  obtain ⟨⟨first, behind⟩, done, same⟩ := exists_ok_of_map found
  cases same
  exact ⟨done, rfl⟩

theorem comment_reads (spaces : List Char) (between : place.inTag = false)
    (spaced : ∀ c ∈ spaces, isSpace c) (starts : cursor.startsWith "<!--" = true)
    (found : (Token.lexComment cursor).map (of place) = .ok (.next token next after)) :
    Reads place (spaces ++ cursor.rest) token next after.rest := by
  obtain ⟨lexed, rfl⟩ := lexed_of_next found
  obtain ⟨content, rfl, split, unstopped⟩ := Token.lexComment_split starts lexed
  rw [split]
  exact .comment between spaced unstopped

theorem instruction_reads (spaces : List Char) (between : place.inTag = false)
    (spaced : ∀ c ∈ spaces, isSpace c) (starts : cursor.startsWith "<?" = true)
    (found : (Token.lexInstruction cursor).map (of place) = .ok (.next token next after)) :
    Reads place (spaces ++ cursor.rest) token next after.rest := by
  obtain ⟨lexed, rfl⟩ := lexed_of_next found
  obtain ⟨target, content, body, rfl, split, unstopped⟩ :=
    Token.lexInstruction_split starts lexed
  rw [split]
  exact .instruction between spaced unstopped

theorem tagStart_reads (spaces : List Char) (admits : place.admitsElement = true)
    (spaced : ∀ c ∈ spaces, isSpace c) (starts : cursor.startsWith "<" = true)
    (found : (Token.lexTagStart cursor).map (of (.tag place.depth)) =
      .ok (.next token next after)) :
    Reads place (spaces ++ cursor.rest) token next after.rest := by
  obtain ⟨lexed, rfl⟩ := lexed_of_next found
  obtain ⟨name, position, run, rfl, split, nonempty, nameLike⟩ :=
    Token.lexTagStart_split starts lexed
  rw [split]
  exact .tagStart admits spaced nonempty nameLike

/-- Outside the root either a comment or an instruction is read, or the step is left to what the
place allows besides. -/
theorem outside_reads {element : Cursor → Except Fault Step} (between : place.inTag = false)
    (elements : ∀ {spaces : List Char} {inner : Cursor}, (∀ c ∈ spaces, isSpace c) →
      element inner = .ok (.next token next after) →
      Reads place (spaces ++ inner.rest) token next after.rest)
    (found : outside place element cursor = .ok (.next token next after)) :
    Reads place cursor.rest token next after.rest := by
  obtain ⟨spaces, split, spaced⟩ := Cursor.skipSpaces_split cursor
  rw [split]
  simp only [outside] at found
  split at found
  next starts => exact comment_reads _ between spaced starts found
  next =>
    split at found
    next starts => exact instruction_reads _ between spaced starts found
    next =>
      split at found
      next => cases found
      next => exact elements spaced found

theorem prolog_reads (found : prolog cursor = .ok (.next token next after)) :
    Reads .prolog cursor.rest token next after.rest := by
  refine outside_reads rfl (fun {spaces inner} spaced done => ?_) found
  split at done
  next => cases done
  next =>
    split at done
    next starts => exact tagStart_reads _ rfl spaced starts done
    next => cases done

theorem epilog_reads (found : epilog cursor = .ok (.next token next after)) :
    Reads .epilog cursor.rest token next after.rest := by
  refine outside_reads rfl (fun _ done => ?_) found
  cases done

theorem tag_reads {depth : Nat} (found : tag depth cursor = .ok (.next token next after)) :
    Reads (.tag depth) cursor.rest token next after.rest := by
  obtain ⟨spaces, split, spaced⟩ := Cursor.skipSpaces_split cursor
  simp only [tag] at found
  split at found
  next => cases found
  next =>
    split at found
    next => cases found
    next c later inner =>
      have behind : (cursor.skipSpaces.skip 1).rest = later := by
        rw [Cursor.skip_rest, inner]
        rfl
      rw [split, inner]
      split at found
      next slash =>
        obtain ⟨closed, ended, same⟩ := exists_ok_of_map found
        cases same
        rw [slash, ← behind, Cursor.rest_of_expect ended]
        exact .selfClosing spaced
      next =>
        split at found
        next closes =>
          cases found
          rw [closes, ← behind]
          exact .tagEnd spaced
        next =>
          split at found
          next => cases found
          next =>
            obtain ⟨lexed, rfl⟩ := lexed_of_next found
            obtain ⟨name, value, position, run, quote, content, rfl, opened, plain, isQuote,
              closed, -⟩ := Token.lexAttribute_split lexed
            rw [← inner, opened, ← List.append_assoc]
            refine .tagAttribute (fun d member => ?_) isQuote closed
            rcases List.mem_append.mp member with inSpaces | inRun
            · exact (isTagCharacter_of_space (spaced d inSpaces)).1
            · exact (plain d inRun).1

theorem content_reads {depth : Nat} (found : content depth cursor = .ok (.next token next after)) :
    Reads (.content depth) cursor.rest token next after.rest := by
  have noSpaces : ∀ c ∈ ([] : List Char), isSpace c := by simp
  unfold content at found
  split at found
  next => cases found
  next =>
    split at found
    next starts => exact comment_reads [] rfl noSpaces starts found
    next =>
      split at found
      next starts =>
        obtain ⟨lexed, rfl⟩ := lexed_of_next found
        obtain ⟨content, rfl, split, unstopped⟩ := Token.lexCharacterData_split starts lexed
        rw [split]
        exact .characterData unstopped
      next => cases found
  next opened =>
    exact instruction_reads [] rfl noSpaces (Cursor.startsWith_of_rest opened) found
  next opened =>
    obtain ⟨lexed, rfl⟩ := lexed_of_next found
    obtain ⟨name, position, run, rfl, split, plain⟩ :=
      Token.lexCloseTag_split (Cursor.startsWith_of_rest opened) lexed
    rw [split]
    exact .closeTag plain
  next => cases found
  next opened =>
    exact tagStart_reads [] rfl noSpaces (Cursor.startsWith_of_rest opened) found
  next =>
    obtain ⟨lexed, rfl⟩ := lexed_of_next found
    obtain ⟨content, run, rfl, split, plain⟩ := Token.lexText_split lexed
    rw [split]
    exact .text plain

theorem reads_of_next (found : ofPlace place cursor = .ok (.next token next after)) :
    Reads place cursor.rest token next after.rest := by
  cases place with
  | prolog => exact prolog_reads found
  | tag depth => exact tag_reads found
  | content depth => exact content_reads found
  | epilog => exact epilog_reads found

theorem map_ne_finish {lexed : Except Fault (Token × Cursor)} :
    lexed.map (of place) ≠ .ok .finish := by
  intro found
  obtain ⟨first, -, same⟩ := exists_ok_of_map found
  cases same

theorem blank_of_outside {element : Cursor → Except Fault Step}
    (elements : ∀ inner, element inner ≠ .ok .finish)
    (found : outside place element cursor = .ok .finish) : ∀ c ∈ cursor.rest, isSpace c := by
  obtain ⟨spaces, split, spaced⟩ := Cursor.skipSpaces_split cursor
  simp only [outside] at found
  split at found
  next => exact absurd found map_ne_finish
  next =>
    split at found
    next => exact absurd found map_ne_finish
    next =>
      split at found
      next ended =>
        rw [split, List.isEmpty_iff.mp ended, List.append_nil]
        exact spaced
      next => exact absurd found (elements _)

theorem rest_of_tag_finish {depth : Nat} (found : tag depth cursor = .ok .finish) :
    cursor.rest = [] := by
  simp only [tag] at found
  split at found
  next ended => exact List.isEmpty_iff.mp ended
  next =>
    split at found
    next => cases found
    next =>
      split at found
      next =>
        obtain ⟨closed, -, same⟩ := exists_ok_of_map found
        cases same
      next =>
        split at found
        next => cases found
        next =>
          split at found
          next => cases found
          next => exact absurd found map_ne_finish

theorem rest_of_content_finish {depth : Nat} (found : content depth cursor = .ok .finish) :
    cursor.rest = [] := by
  unfold content at found
  split at found
  next ended => exact ended
  next =>
    split at found
    next => exact absurd found map_ne_finish
    next =>
      split at found
      next => exact absurd found map_ne_finish
      next => cases found
  next => exact absurd found map_ne_finish
  next => exact absurd found map_ne_finish
  next => cases found
  next => exact absurd found map_ne_finish
  next => exact absurd found map_ne_finish

/-- Lexing ends where only spaces are left, and inside a tag where nothing is left. -/
theorem blank_of_finish (found : ofPlace place cursor = .ok .finish) :
    (∀ c ∈ cursor.rest, isSpace c) ∧ (place.inTag = true → cursor.rest = []) := by
  cases place with
  | prolog =>
    change prolog cursor = .ok .finish at found
    refine ⟨blank_of_outside (fun inner done => ?_) found, by simp [Place.inTag]⟩
    split at done
    next => cases done
    next =>
      split at done
      next => exact map_ne_finish done
      next => cases done
  | tag depth =>
    have ended := rest_of_tag_finish found
    exact ⟨by simp [ended], fun _ => ended⟩
  | content depth =>
    have ended := rest_of_content_finish found
    exact ⟨by simp [ended], fun _ => ended⟩
  | epilog =>
    change epilog cursor = .ok .finish at found
    refine ⟨blank_of_outside (fun inner done => ?_) found, by simp [Place.inTag]⟩
    cases done

end Step

inductive ReadsAll : Place → List Char → List Token → Prop
  | finish {place : Place} {text : List Char} (blank : ∀ c ∈ text, isSpace c)
      (inTag : place.inTag = true → text = []) : ReadsAll place text []
  | step {place next : Place} {text rest : List Char} {token : Token} {tokens : List Token}
      (first : Reads place text token next rest) (later : ReadsAll next rest tokens) :
      ReadsAll place text (token :: tokens)

theorem readsAll_of_lexFrom {fuel : Nat} {place : Place} {cursor : Cursor}
    (accepted : (lexFrom fuel place cursor).fault = none) :
    ReadsAll place cursor.rest (lexFrom fuel place cursor).tokens := by
  induction fuel generalizing place cursor with
  | zero => cases accepted
  | succ fuel ih =>
    unfold lexFrom at accepted ⊢
    split at accepted
    next => cases accepted
    next ended =>
      obtain ⟨blank, inTag⟩ := Step.blank_of_finish ended
      exact .finish blank inTag
    next token next after found =>
      exact .step (Step.reads_of_next found) (ih accepted)

/-! What stands before the first token: perhaps a mark, perhaps a declaration. -/

def Passes (cursor after : Cursor) : Prop := ∃ run, cursor.rest = run ++ after.rest ∧ '<' ∉ run

theorem Passes.refl (cursor : Cursor) : Passes cursor cursor := ⟨[], rfl, by simp⟩

theorem Passes.trans {first second third : Cursor} (here : Passes first second)
    (there : Passes second third) : Passes first third := by
  obtain ⟨run, split, plain⟩ := here
  obtain ⟨run', split', plain'⟩ := there
  refine ⟨run ++ run', by rw [split, split', List.append_assoc], ?_⟩
  rw [List.mem_append, not_or]
  exact ⟨plain, plain'⟩

theorem passes_skipSpaces (cursor : Cursor) : Passes cursor cursor.skipSpaces := by
  obtain ⟨spaces, split, spaced⟩ := Cursor.skipSpaces_split cursor
  exact ⟨spaces, split, fun member => (isTagCharacter_of_space (spaced _ member)).2 rfl⟩

theorem passes_declarationSpaces {cursor after : Cursor}
    (found : declarationSpaces cursor = .ok after) : Passes cursor after := by
  unfold declarationSpaces at found
  split at found
  next =>
    cases found
    exact .refl cursor
  next =>
    split at found
    next =>
      cases found
      exact passes_skipSpaces cursor
    next =>
      split at found
      next =>
        cases found
        exact .refl cursor
      next => cases found

theorem passes_lexAttribute {cursor after : Cursor} {token : Token}
    (found : Token.lexAttribute cursor = .ok (token, after)) : Passes cursor after := by
  obtain ⟨name, value, position, run, quote, content, -, split, plain, isQuote, -, plainContent⟩ :=
    Token.lexAttribute_split found
  refine ⟨run ++ quote :: (content ++ [quote]), by rw [split]; simp, fun member => ?_⟩
  rcases List.mem_append.mp member with inRun | later
  · exact (plain _ inRun).2 rfl
  · rcases isQuote with rfl | rfl
    · simp [plainContent] at later
    · simp [plainContent] at later

theorem split_of_declaration {cursor last after : Cursor}
    (starts : cursor.startsWith "<?xml " = true) (passed : Passes (cursor.skip 5) last)
    (ended : last.skipSpaces.expectText "?>" = .ok after) :
    ∃ body, cursor.rest = '<' :: '?' :: (body ++ ("?>".toList ++ after.rest)) ∧ '<' ∉ body := by
  obtain ⟨run, split, plain⟩ := passed.trans (passes_skipSpaces last)
  refine ⟨"xml".toList ++ run, ?_, fun member => ?_⟩
  · rw [List.append_assoc, ← Cursor.rest_of_expectText ended, ← split, Cursor.skip_rest,
      Cursor.rest_of_startsWith starts]
    rfl
  · rcases List.mem_append.mp member with inTarget | inRun
    · exact absurd inTarget (by decide)
    · exact plain inRun

theorem skipDeclaration_split {cursor after : Cursor} (starts : cursor.startsWith "<?xml " = true)
    (found : skipDeclaration cursor = .ok after) :
    ∃ body, cursor.rest = '<' :: '?' :: (body ++ ("?>".toList ++ after.rest)) ∧ '<' ∉ body := by
  unfold skipDeclaration at found
  obtain ⟨spaced, first, found⟩ := exists_ok_of_bind found
  obtain ⟨-, found⟩ := ok_of_unless found
  obtain ⟨⟨version, afterVersion⟩, second, found⟩ := exists_ok_of_bind found
  obtain ⟨versioned, third, found⟩ := exists_ok_of_bind found
  have passed := (passes_declarationSpaces first).trans
    ((passes_lexAttribute second).trans (passes_declarationSpaces third))
  dsimp only at found
  split at found
  next =>
    obtain ⟨⟨encoding, afterEncoding⟩, fourth, found⟩ := exists_ok_of_bind found
    obtain ⟨encoded, fifth, found⟩ := exists_ok_of_bind found
    have later := (passes_lexAttribute fourth).trans (passes_declarationSpaces fifth)
    have passed := passed.trans later
    split at found
    next =>
      obtain ⟨⟨standalone, last⟩, sixth, found⟩ := exists_ok_of_bind found
      exact split_of_declaration starts (passed.trans (passes_lexAttribute sixth)) found
    next => exact split_of_declaration starts passed found
  next =>
    obtain ⟨encoded, unchanged, found⟩ := exists_ok_of_bind found
    cases unchanged
    split at found
    next =>
      obtain ⟨⟨standalone, last⟩, sixth, found⟩ := exists_ok_of_bind found
      exact split_of_declaration starts (passed.trans (passes_lexAttribute sixth)) found
    next => exact split_of_declaration starts passed found

theorem skipMark_split (cursor : Cursor) :
    ∃ mark, cursor.rest = mark ++ (skipMark cursor).rest ∧ '<' ∉ mark := by
  unfold skipMark
  split
  next marked =>
    cases split : cursor.rest with
    | nil => simp [split] at marked
    | cons c later =>
      have same : c = '\uFEFF' := by simpa [split] using marked
      refine ⟨[c], by rw [Cursor.skip_rest, split]; rfl, ?_⟩
      simp [same]
  next => exact ⟨[], rfl, by simp⟩

/-- A document without a lexical fault, from its first token on. -/
theorem readsAll_of_lex {document : List Char} (accepted : (lex document).fault = none) :
    ∃ mark declaration start, document = mark ++ (declaration ++ start) ∧ '<' ∉ mark ∧
      (declaration = [] ∨
        ∃ body, declaration = '<' :: '?' :: (body ++ "?>".toList) ∧ '<' ∉ body) ∧
      ReadsAll .prolog start (lex document).tokens := by
  obtain ⟨mark, split, plain⟩ := skipMark_split (.ofDocument document)
  change document = mark ++ (skipMark (.ofDocument document)).rest at split
  simp only [lex] at accepted ⊢
  by_cases declared : (skipMark (.ofDocument document)).startsWith "<?xml " = true
  · rw [if_pos declared] at accepted ⊢
    cases found : skipDeclaration (skipMark (.ofDocument document)) with
    | error fault => rw [found] at accepted; cases accepted
    | ok after =>
      rw [found] at accepted
      obtain ⟨body, declarationSplit, plainBody⟩ := skipDeclaration_split declared found
      refine ⟨mark, '<' :: '?' :: (body ++ "?>".toList), after.rest, ?_, plain,
        .inr ⟨body, rfl, plainBody⟩, readsAll_of_lexFrom accepted⟩
      rw [split, declarationSplit]
      simp
  · rw [if_neg declared] at accepted ⊢
    exact ⟨mark, [], _, split, plain, .inl rfl, readsAll_of_lexFrom accepted⟩

end Formwright.Markup
