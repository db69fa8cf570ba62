import Formwright.Proofs.Markup.Tokens

/-!
The grammar of documents. A step of the lexer takes a text that stands for a token, and every text
that stands for a token is taken, so that what the lexer does is a matter of texts alone.
-/

namespace Formwright.Markup

namespace Token

def unplaced : Token → Token
  | .tagStart name _ => .tagStart name .start
  | .attribute name value _ => .attribute name (.ofDocument value.rest) .start
  | .closeTag name _ => .closeTag name .start
  | .text content => .text (.ofDocument content.rest)
  | .tagEnd selfClosing => .tagEnd selfClosing
  | .characterData content => .characterData content
  | .comment content => .comment content
  | .instruction target content => .instruction target content

/-- What may follow a token: a text goes on to the next markup, a name to the next character that
belongs to no name. -/
def Stops (rest : List Char) : Token → Prop
  | .text _ => ∀ c ∈ rest.head?, c = '<'
  | .tagStart .. => ∀ c ∈ rest.head?, isNameCharacter c = false
  | _ => True

theorem stops_unplaced {token : Token} {rest : List Char} :
    token.unplaced.Stops rest ↔ token.Stops rest := by
  cases token <;> exact Iff.rfl

end Token

/-! ## Places -/

def Place.Lead (spaces : List Char) : Place → Prop
  | .prolog | .epilog => ∀ c ∈ spaces, isSpace c = true
  | .content _ => spaces = []
  | .tag _ => False

/-- `Writes place run token next`: at `place` the text `run` stands for `token`, behind which the
next token is looked for at `next`. -/
inductive Writes : Place → List Char → Token → Place → Prop
  | comment {place : Place} {spaces content : List Char} (lead : place.Lead spaces)
      (written : CommentText content) :
      Writes place (spaces ++ ("<!--".toList ++ (content ++ "-->".toList))) (.comment content) place
  | instruction {place : Place} {spaces target blanks content : List Char}
      (lead : place.Lead spaces) (written : InstructionText target blanks content) :
      Writes place (spaces ++ '<' :: '?' :: (target ++ (blanks ++ (content ++ "?>".toList))))
        (.instruction target content) place
  | tagStart {place : Place} {spaces run : List Char} {name : QualifiedName}
      (admits : place.admitsElement = true) (lead : place.Lead spaces) (written : NameText name run) :
      Writes place (spaces ++ '<' :: run) (.tagStart name .start) (.tag place.depth)
  | tagAttribute {depth : Nat} {spaces run content : List Char} {name : QualifiedName}
      (filled : spaces ≠ []) (spaced : ∀ c ∈ spaces, isSpace c = true)
      (written : AttributeText name content run) :
      Writes (.tag depth) (spaces ++ run) (.attribute name (.ofDocument content) .start) (.tag depth)
  | selfClosing {depth : Nat} {spaces : List Char} (spaced : ∀ c ∈ spaces, isSpace c = true) :
      Writes (.tag depth) (spaces ++ ['/', '>']) (.tagEnd true) (.inside depth)
  | tagEnd {depth : Nat} {spaces : List Char} (spaced : ∀ c ∈ spaces, isSpace c = true) :
      Writes (.tag depth) (spaces ++ ['>']) (.tagEnd false) (.content (depth + 1))
  | closeTag {depth : Nat} {run spaces : List Char} {name : QualifiedName}
      (spaced : ∀ c ∈ spaces, isSpace c = true) (written : NameText name run) :
      Writes (.content depth) ('<' :: '/' :: (run ++ (spaces ++ ['>']))) (.closeTag name .start)
        (.inside (depth - 1))
  | text {depth : Nat} {run : List Char} (written : TextRun run) :
      Writes (.content depth) run (.text (.ofDocument run)) (.content depth)
  | characterData {depth : Nat} {content : List Char} (written : RunsTo "]]>".toList content) :
      Writes (.content depth) ("<![CDATA[".toList ++ (content ++ "]]>".toList))
        (.characterData content) (.content depth)

def Takes (place : Place) (text : List Char) (token : Token) (next : Place) (rest : List Char) :
    Prop :=
  ∃ run, text = run ++ rest ∧ Writes place run token.unplaced next ∧ token.Stops rest

namespace Step

variable {place next : Place} {cursor after : Cursor} {token : Token} {rest : List Char}

theorem comment_takes {spaces : List Char} (lead : place.Lead spaces)
    (starts : cursor.startsWith "<!--" = true)
    (found : (Token.lexComment cursor).map (of place) = .ok (.next token next after)) :
    Takes place (spaces ++ cursor.rest) token next after.rest := by
  obtain ⟨lexed, rfl⟩ := lexed_of_next found
  obtain ⟨content, rfl, written, split⟩ := Token.lexComment_text starts lexed
  exact ⟨_, by rw [split]; simp, .comment lead written, trivial⟩

theorem instruction_takes {spaces : List Char} (lead : place.Lead spaces)
    (starts : cursor.startsWith "<?" = true)
    (found : (Token.lexInstruction cursor).map (of place) = .ok (.next token next after)) :
    Takes place (spaces ++ cursor.rest) token next after.rest := by
  obtain ⟨lexed, rfl⟩ := lexed_of_next found
  obtain ⟨target, blanks, content, rfl, written, split⟩ := Token.lexInstruction_text starts lexed
  exact ⟨_, by rw [split]; simp, .instruction lead written, trivial⟩

theorem tagStart_takes {spaces : List Char} (admits : place.admitsElement = true)
    (lead : place.Lead spaces) (starts : cursor.startsWith "<" = true)
    (found : (Token.lexTagStart cursor).map (of (.tag place.depth)) =
      .ok (.next token next after)) :
    Takes place (spaces ++ cursor.rest) token next after.rest := by
  obtain ⟨lexed, rfl⟩ := lexed_of_next found
  obtain ⟨name, position, run, rfl, written, split, stops⟩ := Token.lexTagStart_text starts lexed
  exact ⟨_, by rw [split]; simp, .tagStart admits lead written, stops⟩

theorem outside_takes {element : Cursor → Except Fault Step}
    (leads : ∀ spaces : List Char, (∀ c ∈ spaces, isSpace c = true) → place.Lead spaces)
    (elements : ∀ {spaces : List Char} {inner : Cursor}, (∀ c ∈ spaces, isSpace c = true) →
      element inner = .ok (.next token next after) →
      Takes place (spaces ++ inner.rest) token next after.rest)
    (found : outside place element cursor = .ok (.next token next after)) :
    Takes place cursor.rest token next after.rest := by
  obtain ⟨spaces, split, spaced⟩ := Cursor.skipSpaces_split cursor
  rw [split]
  simp only [outside] at found
  split at found
  next starts => exact comment_takes (leads spaces spaced) starts found
  next =>
    split at found
    next starts => exact instruction_takes (leads spaces spaced) starts found
    next =>
      split at found
      next => cases found
      next => exact elements spaced found

theorem prolog_takes (found : prolog cursor = .ok (.next token next after)) :
    Takes .prolog cursor.rest token next after.rest := by
  refine outside_takes (fun _ spaced => spaced) (fun {spaces inner} spaced done => ?_) found
  split at done
  next => cases done
  next =>
    split at done
    next starts => exact tagStart_takes rfl spaced starts done
    next => cases done

theorem epilog_takes (found : epilog cursor = .ok (.next token next after)) :
    Takes .epilog cursor.rest token next after.rest := by
  refine outside_takes (fun _ spaced => spaced) (fun _ done => ?_) found
  cases done

theorem tag_takes {depth : Nat} (found : tag depth cursor = .ok (.next token next after)) :
    Takes (.tag depth) cursor.rest token next after.rest := by
  obtain ⟨spaces, split, spaced⟩ := Cursor.skipSpaces_split cursor
  simp only [tag] at found
  split at found
  next => cases found
  next =>
    split at found
    next => cases found
    next c later inner =>
      have behind : (cursor.skipSpaces.skip 1).rest = later := by
        rw [Cursor.skip_rest, inner]
        rfl
      split at found
      next slash =>
        obtain ⟨closed, ended, same⟩ := exists_ok_of_map found
        cases same
        refine ⟨spaces ++ ['/', '>'], ?_, .selfClosing spaced, trivial⟩
        rw [split, inner, slash, ← behind, Cursor.rest_of_expect ended]
        simp
      next =>
        split at found
        next closes =>
          cases found
          refine ⟨spaces ++ ['>'], ?_, .tagEnd spaced, trivial⟩
          rw [split, inner, closes, ← behind]
          simp
        next =>
          split at found
          next => cases found
          next set =>
            obtain ⟨lexed, rfl⟩ := lexed_of_next found
            obtain ⟨name, value, position, run, rfl, written, opened⟩ :=
              Token.lexAttribute_text lexed
            have filled : spaces ≠ [] := by
              rintro rfl
              have stopped := Cursor.skipSpaces_stopped cursor
              rw [List.nil_append] at split
              rw [inner] at stopped split
              rw [split] at set
              exact set (by simp [stopped c rfl])
            refine ⟨spaces ++ run, ?_, .tagAttribute filled spaced written, trivial⟩
            rw [List.append_assoc, ← opened]
            exact split

theorem content_takes {depth : Nat} (found : content depth cursor = .ok (.next token next after)) :
    Takes (.content depth) cursor.rest token next after.rest := by
  have lead : (Place.content depth).Lead [] := rfl
  unfold content at found
  split at found
  next => cases found
  next =>
    split at found
    next starts => exact comment_takes lead starts found
    next =>
      split at found
      next starts =>
        obtain ⟨lexed, rfl⟩ := lexed_of_next found
        obtain ⟨content, rfl, runs, split⟩ := Token.lexCharacterData_text starts lexed
        exact ⟨_, by rw [split]; simp, .characterData runs, trivial⟩
      next => cases found
  next opened => exact instruction_takes lead (Cursor.startsWith_of_rest opened) found
  next opened =>
    obtain ⟨lexed, rfl⟩ := lexed_of_next found
    obtain ⟨name, position, run, spaces, rfl, written, spaced, split⟩ :=
      Token.lexCloseTag_text (Cursor.startsWith_of_rest opened) lexed
    exact ⟨_, by rw [split]; simp, .closeTag spaced written, trivial⟩
  next => cases found
  next opened =>
    have admits : (Place.content depth).admitsElement = true := rfl
    exact tagStart_takes admits lead (Cursor.startsWith_of_rest opened) found
  next filled _ _ _ _ noTag =>
    obtain ⟨lexed, rfl⟩ := lexed_of_next found
    have other : cursor.rest.head? ≠ some '<' := by
      intro first
      cases opened : cursor.rest with
      | nil => exact filled opened
      | cons c later =>
        rw [opened] at first
        cases first
        exact noTag later opened
    obtain ⟨content, rfl, written, split, stops⟩ := Token.lexText_text filled other lexed
    exact ⟨_, split, .text written, stops⟩

theorem takes_of_next (found : ofPlace place cursor = .ok (.next token next after)) :
    Takes place cursor.rest token next after.rest := by
  cases place with
  | prolog => exact prolog_takes found
  | tag depth => exact tag_takes found
  | content depth => exact content_takes found
  | epilog => exact epilog_takes found

def Yields (ended : Except Fault Step) (token : Token) (next : Place) (rest : List Char) : Prop :=
  ∃ placed after, ended = .ok (.next placed next after) ∧ after.rest = rest ∧
    placed.unplaced = token

theorem yields_of_leaves {lexed : Except Fault (Token × Cursor)}
    (leaves : Leaves lexed token rest) :
    Yields (lexed.map (of next)) token.unplaced next rest := by
  obtain ⟨after, rfl, left⟩ := leaves
  exact ⟨token, after, rfl, left, rfl⟩

theorem outside_yields {element : Cursor → Except Fault Step} {run spaces : List Char}
    (spaced : ∀ c ∈ spaces, isSpace c = true) (split : cursor.rest = spaces ++ '<' :: run)
    (yields : ∀ inner : Cursor, inner.rest = '<' :: run →
      Yields (if inner.startsWith "<!--" then (Token.lexComment inner).map (of place)
        else if inner.startsWith "<?" then (Token.lexInstruction inner).map (of place)
        else element inner) token next rest) :
    Yields (outside place element cursor) token next rest := by
  have opened := Cursor.skipSpaces_run split spaced (space_ends (by decide) run)
  have filled : cursor.skipSpaces.rest.isEmpty = false := by rw [opened]; rfl
  have inner := yields _ opened
  simpa only [outside, filled, Bool.false_eq_true, if_false] using inner

theorem splitFirst {run : List Char} {name : QualifiedName} (named : NameText name run) :
    ∃ c later, run = c :: later ∧ isNameCharacter c = true := by
  cases run with
  | nil => exact absurd rfl (Cursor.ne_nil_of_splitName named.parsed)
  | cons c later => exact ⟨c, later, rfl, named.nameLike c List.mem_cons_self⟩

theorem content_mark {depth : Nat} {later : List Char} (split : cursor.rest = '<' :: '!' :: later) :
    content depth cursor =
      if cursor.startsWith "<!--" then (Token.lexComment cursor).map (of (.content depth))
      else if cursor.startsWith "<![CDATA[" then
        (Token.lexCharacterData cursor).map (of (.content depth))
      else .error (.unknownToken cursor.position) := by
  obtain ⟨position, text⟩ := cursor
  cases split
  rfl

theorem content_question {depth : Nat} {later : List Char}
    (split : cursor.rest = '<' :: '?' :: later) :
    content depth cursor = (Token.lexInstruction cursor).map (of (.content depth)) := by
  obtain ⟨position, text⟩ := cursor
  cases split
  rfl

theorem content_slash {depth : Nat} {later : List Char}
    (split : cursor.rest = '<' :: '/' :: later) :
    content depth cursor = (Token.lexCloseTag cursor).map (of (.inside (depth - 1))) := by
  obtain ⟨position, text⟩ := cursor
  cases split
  rfl

theorem comment_yields {spaces content : List Char} (lead : place.Lead spaces)
    (written : CommentText content)
    (split : cursor.rest = spaces ++ ("<!--".toList ++ (content ++ ("-->".toList ++ rest)))) :
    Yields (ofPlace place cursor) (.comment content) place rest := by
  have reads {inner : Cursor}
      (opened : inner.rest = "<!--".toList ++ (content ++ ("-->".toList ++ rest))) :
      Yields ((Token.lexComment inner).map (of place)) (.comment content) place rest :=
    yields_of_leaves (Token.lexComment_run written opened)
  have element {inner : Cursor} {other : Except Fault Step}
      (opened : inner.rest = "<!--".toList ++ (content ++ ("-->".toList ++ rest))) :
      Yields (if inner.startsWith "<!--" then (Token.lexComment inner).map (of place) else other)
        (.comment content) place rest := by
    rw [if_pos (Cursor.startsWith_of_rest opened)]
    exact reads opened
  cases place with
  | prolog =>
    rw [ofPlace, prolog]
    exact outside_yields lead split fun inner opened => element opened
  | epilog =>
    rw [ofPlace, epilog]
    exact outside_yields lead split fun inner opened => element opened
  | tag => cases lead
  | content =>
    cases lead
    rw [ofPlace, content_mark split]
    exact element split

theorem instruction_yields {spaces target blanks content : List Char} (lead : place.Lead spaces)
    (written : InstructionText target blanks content)
    (split : cursor.rest =
      spaces ++ '<' :: '?' :: (target ++ (blanks ++ (content ++ ("?>".toList ++ rest))))) :
    Yields (ofPlace place cursor) (.instruction target content) place rest := by
  have reads {inner : Cursor} (opened : inner.rest =
      '<' :: '?' :: (target ++ (blanks ++ (content ++ ("?>".toList ++ rest))))) :
      Yields ((Token.lexInstruction inner).map (of place)) (.instruction target content) place rest :=
    yields_of_leaves (Token.lexInstruction_run written opened)
  have element {inner : Cursor} {comment other : Except Fault Step} (opened : inner.rest =
      '<' :: '?' :: (target ++ (blanks ++ (content ++ ("?>".toList ++ rest))))) :
      Yields (if inner.startsWith "<!--" then comment
        else if inner.startsWith "<?" then (Token.lexInstruction inner).map (of place) else other)
        (.instruction target content) place rest := by
    have noComment : inner.startsWith "<!--" = false := by
      rw [Cursor.startsWith, opened]
      rfl
    rw [noComment, if_neg (by decide), if_pos (Cursor.startsWith_of_rest opened)]
    exact reads opened
  cases place with
  | prolog =>
    rw [ofPlace, prolog]
    exact outside_yields lead split fun inner opened => element opened
  | epilog =>
    rw [ofPlace, epilog]
    exact outside_yields lead split fun inner opened => element opened
  | tag => cases lead
  | content =>
    cases lead
    rw [ofPlace, content_question split]
    exact reads split

theorem tagStart_yields {spaces run : List Char} {name : QualifiedName}
    (admits : place.admitsElement = true) (lead : place.Lead spaces) (written : NameText name run)
    (stops : ∀ c ∈ rest.head?, isNameCharacter c = false)
    (split : cursor.rest = spaces ++ '<' :: (run ++ rest)) :
    Yields (ofPlace place cursor) (.tagStart name .start) (.tag place.depth) rest := by
  have reads {inner : Cursor} (opened : inner.rest = '<' :: (run ++ rest)) :
      Yields ((Token.lexTagStart inner).map (of (.tag place.depth))) (.tagStart name .start)
        (.tag place.depth) rest := by
    obtain ⟨position, leaves⟩ := Token.lexTagStart_run written stops opened
    exact yields_of_leaves leaves
  obtain ⟨c, later, rfl, nameLike⟩ := splitFirst written
  have noMark : c ≠ '!' := ne_of_isNameCharacter nameLike (by decide)
  have noQuestion : c ≠ '?' := ne_of_isNameCharacter nameLike (by decide)
  have noSlash : c ≠ '/' := ne_of_isNameCharacter nameLike (by decide)
  cases place with
  | prolog =>
    rw [ofPlace, prolog]
    refine outside_yields lead split fun inner opened => ?_
    have first (word : String) (d : Char) (more : List Char) (begins : word.toList = '<' :: d :: more)
        (other : c ≠ d) : inner.startsWith word = false := by
      rw [Cursor.startsWith, opened, begins]
      simp [List.isPrefixOf, other.symm]
    rw [first "<!--" '!' _ rfl noMark, first "<?" '?' _ rfl noQuestion]
    simp only [Bool.false_eq_true, if_false]
    rw [first "<!DOCTYPE" '!' _ rfl noMark, if_neg (by decide),
      if_pos (Cursor.startsWith_of_rest opened)]
    exact reads opened
  | content depth =>
    cases lead
    rw [List.nil_append] at split
    unfold ofPlace content
    dsimp only
    split
    next ended =>
      rw [ended] at split
      cases split
    next opened =>
      rw [opened] at split
      cases split
      exact absurd rfl noMark
    next opened =>
      rw [opened] at split
      cases split
      exact absurd rfl noQuestion
    next opened =>
      rw [opened] at split
      cases split
      exact absurd rfl noSlash
    next opened =>
      rw [opened] at split
      cases split
    next => exact reads split
    next noTag => exact absurd split (noTag _)
  | tag | epilog => cases admits

/-- Inside a tag the first character behind the spaces decides. -/
theorem tag_eq (depth : Nat) {spaces later : List Char} {c : Char}
    (spaced : ∀ c ∈ spaces, isSpace c = true) (noSpace : isSpace c = false)
    (split : cursor.rest = spaces ++ c :: later) :
    cursor.skipSpaces.rest = c :: later ∧ tag depth cursor =
      if c = '/' then
        ((cursor.skipSpaces.skip 1).expect '>').map fun after =>
          .next (.tagEnd true) (.inside depth) after
      else if c = '>' then
        .ok (.next (.tagEnd false) (.content (depth + 1)) (cursor.skipSpaces.skip 1))
      else if !cursor.rest.head?.any isSpace then .error (.noSpace c cursor.skipSpaces.position)
      else (Token.lexAttribute cursor.skipSpaces).map (of (.tag depth)) := by
  have opened := Cursor.skipSpaces_run split spaced (space_ends noSpace later)
  have filled : cursor.rest.isEmpty = false := by
    rw [split]
    cases spaces <;> rfl
  refine ⟨opened, ?_⟩
  rw [tag, filled, if_neg (by decide)]
  dsimp only
  split
  next none =>
    rw [opened] at none
    cases none
  next d more some =>
    rw [opened] at some
    cases some
    rfl

theorem selfClosing_yields {depth : Nat} {spaces : List Char}
    (spaced : ∀ c ∈ spaces, isSpace c = true) (split : cursor.rest = spaces ++ '/' :: '>' :: rest) :
    Yields (ofPlace (.tag depth) cursor) (.tagEnd true) (.inside depth) rest := by
  obtain ⟨opened, same⟩ := tag_eq depth spaced (by decide) split
  obtain ⟨after, ended, left⟩ := Cursor.expect_of_rest (Cursor.skip_of_rest ['/'] opened)
  rw [ofPlace, same, if_pos rfl]
  refine ⟨.tagEnd true, after, ?_, left, rfl⟩
  exact congrArg (Except.map _) ended

theorem tagEnd_yields {depth : Nat} {spaces : List Char}
    (spaced : ∀ c ∈ spaces, isSpace c = true) (split : cursor.rest = spaces ++ '>' :: rest) :
    Yields (ofPlace (.tag depth) cursor) (.tagEnd false) (.content (depth + 1)) rest := by
  obtain ⟨opened, same⟩ := tag_eq depth spaced (by decide) split
  rw [ofPlace, same, if_neg (by decide), if_pos rfl]
  exact ⟨.tagEnd false, _, rfl, Cursor.skip_of_rest ['>'] opened, rfl⟩

theorem attribute_yields {depth : Nat} {spaces run content : List Char} {name : QualifiedName}
    (filled : spaces ≠ []) (spaced : ∀ c ∈ spaces, isSpace c = true)
    (written : AttributeText name content run) (split : cursor.rest = spaces ++ (run ++ rest)) :
    Yields (ofPlace (.tag depth) cursor) (.attribute name (.ofDocument content) .start)
      (.tag depth) rest := by
  obtain ⟨named, before, behind, quote, whole, isName, -⟩ := written.written
  obtain ⟨c, later, first, nameLike⟩ := splitFirst isName
  have noSpace : isSpace c = false := by
    rw [Bool.eq_false_iff]
    intro space
    rw [isNameCharacter_of_space space] at nameLike
    cases nameLike
  have begins : cursor.rest = spaces ++ c :: (later ++ (before ++ '=' :: (behind ++ quote ::
      (content ++ [quote]))) ++ rest) := by
    rw [split, whole, first]
    simp
  obtain ⟨opened, same⟩ := tag_eq depth spaced noSpace begins
  have setOff : cursor.rest.head?.any isSpace = true := by
    rw [split]
    cases spaces with
    | nil => exact absurd rfl filled
    | cons d spaces => exact spaced d List.mem_cons_self
  have inner : cursor.skipSpaces.rest = run ++ rest := by
    rw [opened, whole, first]
    simp
  obtain ⟨value, position, isContent, leaves⟩ := Token.lexAttribute_run written inner
  have noSlash : c ≠ '/' := ne_of_isNameCharacter nameLike (by decide)
  have noEnd : c ≠ '>' := ne_of_isNameCharacter nameLike (by decide)
  rw [ofPlace, same, if_neg noSlash, if_neg noEnd, setOff, if_neg (by decide), ← isContent]
  exact yields_of_leaves leaves

theorem closeTag_yields {depth : Nat} {run spaces : List Char} {name : QualifiedName}
    (spaced : ∀ c ∈ spaces, isSpace c = true) (written : NameText name run)
    (split : cursor.rest = '<' :: '/' :: (run ++ (spaces ++ '>' :: rest))) :
    Yields (ofPlace (.content depth) cursor) (.closeTag name .start) (.inside (depth - 1)) rest := by
  obtain ⟨position, leaves⟩ := Token.lexCloseTag_run written spaced split
  rw [ofPlace, content_slash split]
  exact yields_of_leaves leaves

theorem characterData_yields {depth : Nat} {content : List Char}
    (written : RunsTo "]]>".toList content)
    (split : cursor.rest = "<![CDATA[".toList ++ (content ++ ("]]>".toList ++ rest))) :
    Yields (ofPlace (.content depth) cursor) (.characterData content) (.content depth) rest := by
  have leaves := Token.lexCharacterData_run written split
  have noComment : cursor.startsWith "<!--" = false := by
    rw [Cursor.startsWith, split]
    rfl
  have starts := Cursor.startsWith_of_rest split
  rw [ofPlace, content_mark split, noComment, if_neg (by decide), if_pos starts]
  exact yields_of_leaves leaves

theorem text_yields {depth : Nat} {run : List Char} (written : TextRun run)
    (stops : ∀ c ∈ rest.head?, c = '<') (split : cursor.rest = run ++ rest) :
    Yields (ofPlace (.content depth) cursor) (.text (.ofDocument run)) (.content depth) rest := by
  obtain ⟨position, leaves⟩ := Token.lexText_run written stops split
  have reads : Yields ((Token.lexText cursor).map (of (.content depth)))
      (.text (.ofDocument run)) (.content depth) rest := yields_of_leaves leaves
  cases run with
  | nil => exact absurd rfl written.filled
  | cons c run =>
    have plain : c ≠ '<' := fun same => written.plain (same ▸ List.mem_cons_self)
    unfold ofPlace content
    dsimp only
    rw [List.cons_append] at split
    split
    next ended =>
      rw [ended] at split
      cases split
    next opened => exact absurd (List.cons.inj (opened.symm.trans split)).1.symm plain
    next opened => exact absurd (List.cons.inj (opened.symm.trans split)).1.symm plain
    next opened => exact absurd (List.cons.inj (opened.symm.trans split)).1.symm plain
    next opened => exact absurd (List.cons.inj (opened.symm.trans split)).1.symm plain
    next opened => exact absurd (List.cons.inj (opened.symm.trans split)).1.symm plain
    next => exact reads

/-- The lexer reads every text that stands for a token, if the token may stop where the text does. -/
theorem next_of_writes {run : List Char} (writes : Writes place run token next)
    (stops : token.Stops rest) (split : cursor.rest = run ++ rest) :
    Yields (ofPlace place cursor) token next rest := by
  cases writes with
  | comment lead written => exact comment_yields lead written (by rw [split]; simp)
  | instruction lead written => exact instruction_yields lead written (by rw [split]; simp)
  | tagStart admits lead written => exact tagStart_yields admits lead written stops (by rw [split]; simp)
  | tagAttribute filled spaced written =>
    exact attribute_yields filled spaced written (by rw [split]; simp)
  | selfClosing spaced => exact selfClosing_yields spaced (by rw [split]; simp)
  | tagEnd spaced => exact tagEnd_yields spaced (by rw [split]; simp)
  | closeTag spaced written => exact closeTag_yields spaced written (by rw [split]; simp)
  | text written => exact text_yields written stops split
  | characterData written => exact characterData_yields written (by rw [split]; simp)

end Step
end Formwright.Markup
