import Formwright.Proofs.Markup.Beginning
import Formwright.Proofs.Markup.Spelling

/-!
A document with a comment in the content of an element against the document without it: which tokens
the two have.
-/

namespace Formwright.Markup

open Text (takeWhile_run dropWhile_run)

/-! ## Places that the lexer comes to -/

inductive Reaches (document : List Char) : Place → Cursor → Prop
  | start {cursor : Cursor} (begins : Begins document cursor) : Reaches document .prolog cursor
  | next {place next : Place} {cursor after : Cursor} {token : Token}
      (before : Reaches document place cursor)
      (found : Step.ofPlace place cursor = .ok (.next token next after)) :
      Reaches document next after

theorem spellsTo_of_reaches {document : List Char} {place : Place} {cursor : Cursor}
    (reaches : Reaches document place cursor) : ∃ start run tokens, Begins document start ∧
      start.rest = run ++ cursor.rest ∧ SpellsTo cursor.rest .prolog run tokens place := by
  induction reaches with
  | @start cursor begins => exact ⟨cursor, [], [], begins, rfl, .refl⟩
  | @next place next cursor after token _ found ih =>
    obtain ⟨start, run, tokens, begins, split, chain⟩ := ih
    obtain ⟨written, here, writes, stops⟩ := Step.takes_of_next found
    rw [here] at split chain
    refine ⟨start, run ++ written, tokens ++ [token.unplaced], begins, ?_, ?_⟩
    · rw [split, List.append_assoc]
    · exact chain.snoc writes (Token.stops_unplaced.mpr stops)

def HoldsComment (document before content after : List Char) : Prop :=
  ∃ depth cursor behind, Reaches document (.content depth) cursor ∧
    Step.ofPlace (.content depth) cursor =
      .ok (.next (.comment content) (.content depth) behind) ∧
    document = before ++ cursor.rest ∧ behind.rest = after

/-- The tokens of a document with a comment and of the document without it. The texts on the two
sides of the comment become one. -/
inductive Uncommented (content : List Char) : List Token → List Token → Prop
  | apart {depth : Nat} {final before after : List Char} {earlier later : List Token}
      (opened : SpellsTo final .prolog before earlier (.content depth))
      (closed : Spells (.content depth) after later) :
      Uncommented content (earlier ++ .comment content :: later) (earlier ++ later)
  | joined {depth : Nat} {final before after first second : List Char} {earlier later : List Token}
      (opened : SpellsTo final .prolog before earlier (.content depth))
      (closed : Spells (.content depth) after later) :
      Uncommented content
        (earlier ++ .text (.ofDocument first) :: .comment content ::
          .text (.ofDocument second) :: later)
        (earlier ++ .text (.ofDocument (first ++ second)) :: later)

/-- A text without markup ends where the next markup begins. -/
theorem eq_of_plain {first second rest other : List Char} (plainFirst : '<' ∉ first)
    (plainSecond : '<' ∉ second) (stopsFirst : ∀ c ∈ rest.head?, c = '<')
    (stopsSecond : ∀ c ∈ other.head?, c = '<') (same : first ++ rest = second ++ other) :
    first = second ∧ rest = other := by
  have keeps {run : List Char} (plain : '<' ∉ run) : ∀ c ∈ run, (c != '<') = true := fun c mem =>
    bne_iff_ne.mpr fun same => plain (same ▸ mem)
  have ends {text : List Char} (stops : ∀ c ∈ text.head?, c = '<') :
      ∀ c ∈ text.head?, (c != '<') = false := fun c mem => bne_eq_false_iff_eq.mpr (stops c mem)
  have taken := takeWhile_run (keeps plainFirst) (ends stopsFirst)
  have left := dropWhile_run (keeps plainFirst) (ends stopsFirst)
  rw [same, takeWhile_run (keeps plainSecond) (ends stopsSecond)] at taken
  rw [same, dropWhile_run (keeps plainSecond) (ends stopsSecond)] at left
  exact ⟨taken.symm, left.symm⟩

/-- Content that does not begin with markup begins with a text. -/
theorem text_of_spells {depth : Nat} {text : List Char} {tokens : List Token} {c : Char}
    (first : text.head? = some c) (plain : c ≠ '<') (spells : Spells (.content depth) text tokens) :
    ∃ run rest later, text = run ++ rest ∧ tokens = .text (.ofDocument run) :: later ∧
      '<' ∉ run ∧ (∀ c ∈ rest.head?, c = '<') ∧ Spells (.content depth) rest later := by
  generalize here : Place.content depth = place at spells
  cases spells with
  | finish ends =>
    subst here
    have nothing : text = [] := ends
    rw [nothing] at first
    cases first
  | @step _ next run rest token tokens writes stops later =>
    cases writes with
    | text written =>
      cases here
      exact ⟨run, rest, tokens, rfl, rfl, written.plain, stops, later⟩
    | comment lead | instruction lead | tagStart _ lead =>
      subst here
      cases lead
      cases first
      exact absurd rfl plain
    | closeTag | characterData =>
      cases first
      exact absurd rfl plain
    | tagAttribute | selfClosing | tagEnd => cases here

theorem spells_of_begins {document : List Char} {start : Cursor} (begins : Begins document start)
    (accepted : (lex document).fault = none) :
    Spells .prolog start.rest ((lex document).tokens.map Token.unplaced) := by
  rw [lex_of_begins begins] at accepted ⊢
  exact spells_of_lexFrom accepted

/-- A text that goes on behind a comment is one text without the comment. -/
theorem joined_of_spells {depth : Nat} {upto first rest after : List Char}
    {earlier later others : List Token}
    (chain : SpellsTo (first ++ rest) .prolog upto earlier (.content depth)) (filled : first ≠ [])
    (plainFirst : '<' ∉ first) (goesOn : ∃ c, after.head? = some c ∧ c ≠ '<')
    (below : Spells (.content depth) after later)
    (whole : Spells .prolog (upto ++ (first ++ after)) others) :
    ∃ second behind more, later = .text (.ofDocument second) :: more ∧
      others = earlier ++ .text (.ofDocument (first ++ second)) :: more ∧
      Spells (.content depth) behind more := by
  obtain ⟨c, begins, noMarkup⟩ := goesOn
  obtain ⟨second, behind, more, rfl, rfl, plainSecond, stops, below⟩ :=
    text_of_spells begins noMarkup below
  cases first with
  | nil => exact absurd rfl filled
  | cons d first =>
    have noMarkup : d ≠ '<' := fun same => plainFirst (same ▸ List.mem_cons_self)
    have chain' : SpellsTo (d :: first ++ (second ++ behind)) .prolog upto earlier (.content depth) :=
      chain.before_of_head rfl
    obtain ⟨others, rfl, inContent⟩ := chain'.behind whole
    obtain ⟨run, behind', more', split, rfl, plainRun, stops', below'⟩ :=
      text_of_spells rfl noMarkup inContent
    have plainBoth : '<' ∉ d :: first ++ second := fun mem =>
      (List.mem_append.mp mem).elim plainFirst plainSecond
    rw [← List.append_assoc] at split
    obtain ⟨rfl, rfl⟩ := eq_of_plain plainBoth plainRun stops stops' split
    rw [below'.unique below]
    exact ⟨second, behind, more, rfl, rfl, below⟩

theorem uncommented_of_lex {document before content after : List Char}
    (holds : HoldsComment document before content after) (accepted : (lex document).fault = none)
    (plain : (lex (before ++ after)).fault = none) :
    Uncommented content ((lex document).tokens.map Token.unplaced)
      ((lex (before ++ after)).tokens.map Token.unplaced) := by
  obtain ⟨depth, cursor, behind, reached, found, split, rfl⟩ := holds
  obtain ⟨start, run, tokens, begins, opened, chain⟩ := spellsTo_of_reaches reached
  have closed : '>' ∈ run := by
    obtain ⟨_, none⟩ | mem := chain.passes_tagEnd
    · cases none
    · exact mem
  obtain ⟨lead, whole, again⟩ := begins_again begins opened closed
  obtain ⟨start', begins', opened'⟩ := again behind.rest
  obtain rfl : before = lead ++ run := by
    rw [whole, ← List.append_assoc] at split
    exact (List.append_cancel_right split).symm
  rw [← List.append_assoc] at begins'
  have tokensOf := spells_of_begins begins accepted
  have plainTokens := spells_of_begins begins' plain
  rw [opened] at tokensOf
  rw [opened'] at plainTokens
  -- The tokens of the document: those before the comment, the comment, and those behind it.
  obtain ⟨others, all, inContent⟩ := chain.behind tokensOf
  obtain ⟨written, here, writes, stops⟩ := Step.takes_of_next found
  rw [here] at inContent
  obtain ⟨later, rfl, below⟩ := inContent.behind writes (Token.stops_unplaced.mpr stops)
  rw [all]
  by_cases ends : ∀ token ∈ tokens.getLast?, token.Stops behind.rest
  · obtain ⟨others, plainAll, below'⟩ := (chain.before ends).behind plainTokens
    rw [plainAll, below'.unique below]
    exact .apart chain below
  · -- Only a text cannot stop before what follows the comment.
    rw [Classical.not_forall] at ends
    obtain ⟨last, ends⟩ := ends
    rw [Classical.not_imp] at ends
    obtain ⟨isLast, goesOn⟩ := ends
    obtain ⟨earlier, rfl⟩ := List.getLast?_eq_some_iff.mp isLast
    obtain ⟨upto, first, place, rfl, chain, writes', -⟩ := chain.split_last
    generalize inside : Place.content depth = next at writes'
    cases writes' with
    | text textRun =>
      cases inside
      have goesOn : ∃ c, behind.rest.head? = some c ∧ c ≠ '<' := by
        simpa [Token.unplaced, Token.Stops] using goesOn
      rw [List.append_assoc] at plainTokens
      obtain ⟨second, rest, more, rfl, plainAll, below⟩ :=
        joined_of_spells chain textRun.filled textRun.plain goesOn below plainTokens
      rw [plainAll, List.append_assoc]
      exact .joined chain below
    | comment | instruction | closeTag | characterData => exact absurd trivial goesOn
    | tagStart | tagAttribute => cases inside
    | selfClosing | tagEnd => exact absurd trivial goesOn

end Formwright.Markup
