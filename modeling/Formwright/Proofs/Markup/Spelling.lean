import Formwright.Proofs.Markup.Grammar

/-!
Documents as texts that tokens spell. A text spells its tokens wherever it stands, it spells no
others, and what has been read of a text does not depend on what is still to come.
-/

namespace Formwright.Markup

def Place.Ends (text : List Char) : Place → Prop
  | .prolog | .epilog => ∀ c ∈ text, isSpace c = true
  | .tag _ | .content _ => text = []

namespace Step

variable {place : Place} {cursor : Cursor}

theorem ends_of_finish (found : ofPlace place cursor = .ok .finish) : place.Ends cursor.rest := by
  cases place with
  | prolog | epilog => exact (blank_of_finish found).1
  | tag depth => exact rest_of_tag_finish found
  | content depth => exact rest_of_content_finish found

theorem outside_finish {element : Cursor → Except Fault Step}
    (blank : ∀ c ∈ cursor.rest, isSpace c = true) : outside place element cursor = .ok .finish := by
  have nothing : cursor.skipSpaces.rest = [] :=
    Cursor.skipSpaces_run (List.append_nil _).symm blank nofun
  have noMarkup (word : String) (c : Char) (later : List Char) (begins : word.toList = c :: later) :
      cursor.skipSpaces.startsWith word = false := by
    rw [Cursor.startsWith, nothing, begins]
    rfl
  simp only [outside, noMarkup "<!--" '<' _ rfl, noMarkup "<?" '<' _ rfl, nothing]
  rfl

theorem finish_of_ends (ends : place.Ends cursor.rest) : ofPlace place cursor = .ok .finish := by
  cases place with
  | prolog =>
    rw [ofPlace, prolog]
    exact outside_finish ends
  | epilog =>
    rw [ofPlace, epilog]
    exact outside_finish ends
  | tag depth =>
    have nothing : cursor.rest = [] := ends
    rw [ofPlace, tag, nothing]
    rfl
  | content depth =>
    obtain ⟨position, text⟩ := cursor
    cases ends
    rfl

end Step

inductive Spells : Place → List Char → List Token → Prop
  | finish {place : Place} {text : List Char} (ends : place.Ends text) : Spells place text []
  | step {place next : Place} {run rest : List Char} {token : Token} {tokens : List Token}
      (writes : Writes place run token next) (stops : token.Stops rest)
      (later : Spells next rest tokens) : Spells place (run ++ rest) (token :: tokens)

inductive SpellsTo (final : List Char) : Place → List Char → List Token → Place → Prop
  | refl {place : Place} : SpellsTo final place [] [] place
  | step {place next last : Place} {run rest : List Char} {token : Token} {tokens : List Token}
      (writes : Writes place run token next) (stops : token.Stops (rest ++ final))
      (later : SpellsTo final next rest tokens last) :
      SpellsTo final place (run ++ rest) (token :: tokens) last

theorem Writes.ne_nil {place next : Place} {run : List Char} {token : Token}
    (writes : Writes place run token next) : run ≠ [] := by
  cases writes with
  | text written => exact written.filled
  | tagAttribute filled => exact fun none => filled (List.append_eq_nil_iff.mp none).1
  | closeTag => exact List.cons_ne_nil _ _
  | comment | characterData => exact fun none => absurd none (by simp)
  | instruction | tagStart | selfClosing | tagEnd => simp

theorem spells_of_lexFrom {fuel : Nat} {place : Place} {cursor : Cursor}
    (accepted : (lexFrom fuel place cursor).fault = none) :
    Spells place cursor.rest ((lexFrom fuel place cursor).tokens.map Token.unplaced) := by
  induction fuel generalizing place cursor with
  | zero => cases accepted
  | succ fuel ih =>
    unfold lexFrom at accepted ⊢
    split at accepted
    next => cases accepted
    next ended => exact .finish (Step.ends_of_finish ended)
    next token next after found =>
      obtain ⟨run, split, writes, stops⟩ := Step.takes_of_next found
      rw [split]
      exact .step writes (Token.stops_unplaced.mpr stops) (ih accepted)

/-- The lexer finds the tokens that a text spells, if its fuel lasts for the text. -/
theorem Spells.lexFrom {place : Place} {text : List Char} {tokens : List Token}
    (spells : Spells place text tokens) {fuel : Nat} (enough : text.length < fuel)
    {cursor : Cursor} (here : cursor.rest = text) :
    ∃ placed, Markup.lexFrom fuel place cursor = ⟨placed, none⟩ ∧
      placed.map Token.unplaced = tokens := by
  induction spells generalizing fuel cursor with
  | finish ends =>
    subst here
    obtain ⟨fuel, rfl⟩ : ∃ less, fuel = less + 1 := ⟨fuel - 1, by omega⟩
    refine ⟨[], ?_, rfl⟩
    rw [Markup.lexFrom, Step.finish_of_ends ends]
  | @step place next run rest token tokens writes stops later ih =>
    obtain ⟨fuel, rfl⟩ : ∃ less, fuel = less + 1 := ⟨fuel - 1, by omega⟩
    obtain ⟨placed, after, found, left, same⟩ := Step.next_of_writes writes stops here
    have shorter : rest.length < fuel := by
      have filled := List.length_pos_iff.mpr writes.ne_nil
      rw [List.length_append] at enough
      omega
    obtain ⟨others, lexed, alike⟩ := ih shorter left
    refine ⟨placed :: others, ?_, by rw [List.map_cons, same, alike]⟩
    rw [Markup.lexFrom, found]
    dsimp only
    rw [lexed]

theorem Writes.not_ends {place next : Place} {run rest : List Char} {token : Token}
    (writes : Writes place run token next) (stops : token.Stops rest) :
    ¬place.Ends (run ++ rest) := by
  intro ends
  have here : (Cursor.ofDocument (run ++ rest)).rest = run ++ rest := rfl
  obtain ⟨placed, after, found, -⟩ := Step.next_of_writes writes stops here
  rw [Step.finish_of_ends ends] at found
  cases found

/-- A text that begins with a token spells that token first. -/
theorem Spells.behind {place next : Place} {run rest : List Char} {token : Token}
    {tokens : List Token} (writes : Writes place run token next) (stops : token.Stops rest)
    (spells : Spells place (run ++ rest) tokens) :
    ∃ later, tokens = token :: later ∧ Spells next rest later := by
  generalize whole : run ++ rest = text at spells
  cases spells with
  | finish ends => exact absurd (whole ▸ ends) (writes.not_ends stops)
  | @step _ other run' rest' first later writes' stops' spells =>
    have here : (Cursor.ofDocument (run ++ rest)).rest = run ++ rest := rfl
    have there : (Cursor.ofDocument (run' ++ rest')).rest = run' ++ rest' := rfl
    obtain ⟨placed, after, found, left, same⟩ := Step.next_of_writes writes stops here
    obtain ⟨placed', after', found', left', same'⟩ := Step.next_of_writes writes' stops' there
    rw [whole, found'] at found
    cases found
    exact ⟨later, by rw [← same, ← same'], by rw [← left, left']; exact spells⟩

theorem Spells.unique {place : Place} {text : List Char} {tokens others : List Token}
    (spells : Spells place text tokens) (again : Spells place text others) : tokens = others := by
  induction spells generalizing others with
  | finish ends =>
    cases again with
    | finish => rfl
    | @step _ next run rest token tokens writes stops later =>
      exact absurd ends (writes.not_ends stops)
  | step writes stops _ ih =>
    obtain ⟨later, rfl, below⟩ := again.behind writes stops
    rw [ih below]

theorem Token.stops_of_head {token : Token} {rest other : List Char}
    (same : other.head? = rest.head?) (stops : token.Stops rest) : token.Stops other := by
  cases token with
  | text content =>
    intro c first
    exact stops c (same ▸ first)
  | tagStart name position =>
    intro c first
    exact stops c (same ▸ first)
  | _ => trivial

namespace SpellsTo

variable {place last : Place} {run final : List Char} {tokens : List Token}

theorem spells (chain : SpellsTo final place run tokens last) {others : List Token}
    (rest : Spells last final others) : Spells place (run ++ final) (tokens ++ others) := by
  induction chain with
  | refl => exact rest
  | step writes stops _ ih =>
    rw [List.append_assoc]
    exact .step writes stops (ih rest)

theorem snoc {next : Place} {rest more : List Char} {token : Token}
    (chain : SpellsTo (more ++ rest) place run tokens last) (writes : Writes last more token next)
    (stops : token.Stops rest) : SpellsTo rest place (run ++ more) (tokens ++ [token]) next := by
  induction chain with
  | refl =>
    have stopped : token.Stops ([] ++ rest) := stops
    have one := SpellsTo.step writes stopped .refl
    rwa [List.append_nil] at one
  | step writes' stops' _ ih =>
    rw [List.append_assoc]
    exact .step writes' (by rwa [List.append_assoc]) (ih writes)

theorem behind (chain : SpellsTo final place run tokens last) {all : List Token}
    (spells : Spells place (run ++ final) all) :
    ∃ others, all = tokens ++ others ∧ Spells last final others := by
  induction chain generalizing all with
  | refl => exact ⟨all, rfl, spells⟩
  | step writes stops _ ih =>
    rw [List.append_assoc] at spells
    obtain ⟨later, rfl, below⟩ := spells.behind writes stops
    obtain ⟨others, rfl, deeper⟩ := ih below
    exact ⟨others, rfl, deeper⟩

/-- What has been read is read again before another rest, if the last token may stop there. -/
theorem before (chain : SpellsTo final place run tokens last) {other : List Char}
    (stops : ∀ token ∈ tokens.getLast?, token.Stops other) :
    SpellsTo other place run tokens last := by
  induction chain with
  | refl => exact .refl
  | @step place next last first rest token tokens writes stops' later ih =>
    cases later with
    | refl => exact .step writes (stops token rfl) .refl
    | @step _ _ _ second rest token' tokens writes' stops'' later =>
      have filled : second ≠ [] := writes'.ne_nil
      refine .step writes (Token.stops_of_head ?_ stops') (ih fun token mem => stops token ?_)
      · cases second with
        | nil => exact absurd rfl filled
        | cons c second => rfl
      · rw [List.getLast?_cons_cons]
        exact mem

theorem stops_last (chain : SpellsTo final place run tokens last) :
    ∀ token ∈ tokens.getLast?, token.Stops final := by
  induction chain with
  | refl => nofun
  | @step _ _ _ first rest token tokens writes stops later ih =>
    intro token' mem
    cases later with
    | refl =>
      cases mem
      exact stops
    | step =>
      rw [List.getLast?_cons_cons] at mem
      exact ih token' mem

/-- Where a token stops depends on the next character alone. -/
theorem before_of_head (chain : SpellsTo final place run tokens last) {other : List Char}
    (same : other.head? = final.head?) : SpellsTo other place run tokens last :=
  chain.before fun token mem => Token.stops_of_head same (chain.stops_last token mem)

/-- The last token apart from those before it. -/
theorem split_last {token : Token} (chain : SpellsTo final place run (tokens ++ [token]) last) :
    ∃ before written middle, run = before ++ written ∧
      SpellsTo (written ++ final) place before tokens middle ∧ Writes middle written token last ∧
      token.Stops final := by
  induction tokens generalizing place run with
  | nil =>
    cases chain with
    | @step _ _ _ first rest _ _ writes stops later =>
      cases later with
      | refl =>
        refine ⟨[], first, place, ?_, .refl, writes, stops⟩
        rw [List.append_nil, List.nil_append]
  | cons head tokens ih =>
    cases chain with
    | @step _ _ _ first rest _ _ writes stops later =>
      obtain ⟨before, written, middle, rfl, chain, writes', stops'⟩ := ih later
      refine ⟨first ++ before, written, middle, (List.append_assoc ..).symm, ?_, writes', stops'⟩
      exact .step writes (by rwa [← List.append_assoc]) chain

/-- Content is reached through the end of a tag. -/
theorem passes_tagEnd {depth : Nat} (chain : SpellsTo final place run tokens (.content depth)) :
    (∃ depth, place = .content depth) ∨ '>' ∈ run := by
  generalize goal : Place.content depth = last at chain
  induction chain with
  | refl => exact .inl ⟨depth, goal.symm⟩
  | step writes _ _ ih =>
    obtain ⟨depth', inside⟩ | mem := ih goal
    · cases writes with
      | comment | instruction => exact .inl ⟨depth', inside⟩
      | tagStart | tagAttribute => cases inside
      | selfClosing | tagEnd => exact .inr (by simp)
      | closeTag | text | characterData => exact .inl ⟨_, rfl⟩
    · exact .inr (List.mem_append_right _ mem)

end SpellsTo

end Formwright.Markup
