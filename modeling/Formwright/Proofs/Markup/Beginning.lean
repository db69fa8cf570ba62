import Formwright.Proofs.Markup.Tokens

/-!
The beginning of a document: a mark and a declaration are passed over in the same way, whatever
stands behind them.
-/

namespace Formwright.Markup

def Begins (document : List Char) (start : Cursor) : Prop :=
  (if (skipMark (.ofDocument document)).startsWith "<?xml " then
      skipDeclaration (skipMark (.ofDocument document))
    else .ok (skipMark (.ofDocument document))) = .ok start

theorem lex_of_begins {document : List Char} {start : Cursor} (begins : Begins document start) :
    lex document = lexFrom (document.length + 1) .prolog start := by
  unfold Begins at begins
  simp only [lex, begins]

/-- A part of a declaration: what it passes over does not depend on what follows the declaration. -/
def Local (stage : Cursor → Except Fault Cursor) : Prop :=
  ∀ {cursor after : Cursor} {body tail : List Char}, stage cursor = .ok after →
    after.rest = body ++ ("?>".toList ++ tail) →
    ∃ run, cursor.rest = run ++ after.rest ∧ ∀ {other : Cursor} {tail' : List Char},
      other.rest = run ++ (body ++ ("?>".toList ++ tail')) →
      ∃ final, stage other = .ok final ∧ final.rest = body ++ ("?>".toList ++ tail')

theorem local_bind {first second : Cursor → Except Fault Cursor} (localFirst : Local first)
    (localSecond : Local second) : Local fun cursor => first cursor >>= second := by
  intro cursor after body tail found split
  obtain ⟨middle, one, two⟩ := exists_ok_of_bind found
  obtain ⟨run, here, again⟩ := localSecond two split
  rw [split, ← List.append_assoc] at here
  obtain ⟨run', there, again'⟩ := localFirst one here
  refine ⟨run' ++ run, ?_, fun {other tail'} opened => ?_⟩
  · rw [there, here, split]
    simp
  · rw [List.append_assoc, ← List.append_assoc run] at opened
    obtain ⟨middle', done, left⟩ := again' opened
    rw [List.append_assoc] at left
    obtain ⟨final, done', left'⟩ := again left
    refine ⟨final, ?_, left'⟩
    simp only [bind, Except.bind, done, done']

theorem startsWith_again {cursor other : Cursor} {word : String} {body tail tail' : List Char}
    (absent : '?' ∉ word.toList) (here : cursor.rest = body ++ ("?>".toList ++ tail))
    (there : other.rest = body ++ ("?>".toList ++ tail')) :
    other.startsWith word = cursor.startsWith word := by
  rw [Cursor.startsWith, Cursor.startsWith, here, there]
  exact (isPrefixOf_sentinel absent _ _).trans (isPrefixOf_sentinel absent _ _).symm

def demand (word : String) (cursor : Cursor) : Except Fault Cursor :=
  if !cursor.startsWith word then .error (.missingText word cursor.position) else .ok cursor

def passAttribute (cursor : Cursor) : Except Fault Cursor :=
  (Token.lexAttribute cursor).map Prod.snd

def ifThere (word : String) (stage : Cursor → Except Fault Cursor) (cursor : Cursor) :
    Except Fault Cursor :=
  if cursor.startsWith word then stage cursor else .ok cursor

theorem local_demand {word : String} (absent : '?' ∉ word.toList) : Local (demand word) := by
  intro cursor after body tail found split
  unfold demand at found
  split at found
  next => cases found
  next present =>
    cases found
    refine ⟨[], rfl, fun {other tail'} opened => ⟨other, ?_, opened⟩⟩
    rw [demand, startsWith_again absent split opened, if_neg present]

theorem local_passAttribute : Local passAttribute := by
  intro cursor after body tail found split
  obtain ⟨⟨token, behind⟩, lexed, rfl⟩ := exists_ok_of_map found
  obtain ⟨name, value, position, run, -, written, here⟩ := Token.lexAttribute_text lexed
  refine ⟨run, here, fun {other tail'} opened => ?_⟩
  obtain ⟨value', position', -, final, lexed', left⟩ := Token.lexAttribute_run written opened
  refine ⟨final, ?_, left⟩
  rw [passAttribute, lexed']
  rfl

theorem local_ifThere {word : String} (absent : '?' ∉ word.toList)
    {stage : Cursor → Except Fault Cursor} (isLocal : Local stage) : Local (ifThere word stage) := by
  intro cursor after body tail found split
  unfold ifThere at found
  split at found
  next present =>
    obtain ⟨run, here, again⟩ := isLocal found split
    refine ⟨run, here, fun {other tail'} opened => ?_⟩
    rw [split, ← List.append_assoc] at here
    rw [← List.append_assoc] at opened
    rw [ifThere, startsWith_again absent here opened, if_pos present]
    rw [List.append_assoc] at opened
    exact again opened
  next missing =>
    cases found
    refine ⟨[], rfl, fun {other tail'} opened => ⟨other, ?_, opened⟩⟩
    rw [ifThere, startsWith_again absent split opened, if_neg missing]

theorem local_declarationSpaces : Local declarationSpaces := by
  intro cursor after body tail found split
  have heads (tail' : List Char) :
      (body ++ ("?>".toList ++ tail')).head? = (body ++ ("?>".toList ++ tail)).head? := by
    cases body <;> rfl
  unfold declarationSpaces at found
  split at found
  next ended =>
    cases found
    rw [ended] at split
    cases body <;> cases split
  next c later begins =>
    split at found
    next space =>
      cases found
      obtain ⟨spaces, here, spaced⟩ := Cursor.skipSpaces_split cursor
      have stops := Cursor.skipSpaces_stopped cursor
      rw [split] at stops
      refine ⟨spaces, here, fun {other tail'} opened => ?_⟩
      rw [← heads tail'] at stops
      have left := Cursor.skipSpaces_run opened spaced stops
      refine ⟨other.skipSpaces, ?_, left⟩
      cases spaces with
      | nil =>
        have same : cursor.rest = body ++ ("?>".toList ++ tail) := here.trans split
        rw [heads tail', ← same, begins] at stops
        rw [stops c rfl] at space
        cases space
      | cons d spaces =>
        unfold declarationSpaces
        rw [opened, List.cons_append]
        exact if_pos (spaced d List.mem_cons_self)
    next noSpace =>
      split at found
      next closes =>
        cases found
        refine ⟨[], rfl, fun {other tail'} opened => ⟨other, ?_, opened⟩⟩
        have marked : other.startsWith "?>" = true := by
          rw [Cursor.startsWith, split, ← List.append_assoc, isPrefixOf_append (by simp)] at closes
          rw [Cursor.startsWith, opened, List.nil_append, ← List.append_assoc,
            isPrefixOf_append (by simp)]
          exact closes
        have first : other.rest.head? = some c := by
          rw [opened, List.nil_append, heads tail', ← split, begins]
          rfl
        unfold declarationSpaces
        split
        next ended => simp [ended] at first
        next d more opens =>
          rw [opens] at first
          cases first
          rw [if_neg noSpace, if_pos marked]
      next => cases found

def declarationItems (cursor : Cursor) : Except Fault Cursor :=
  declarationSpaces cursor >>= demand "version" >>= passAttribute >>= declarationSpaces >>=
    ifThere "encoding" (fun cursor => passAttribute cursor >>= declarationSpaces) >>=
    ifThere "standalone" passAttribute

theorem local_declarationItems : Local declarationItems := by
  unfold declarationItems
  refine local_bind (local_bind (local_bind (local_bind (local_bind local_declarationSpaces
    (local_demand (by decide))) local_passAttribute) local_declarationSpaces)
    (local_ifThere (by decide) ?_)) (local_ifThere (by decide) local_passAttribute)
  exact local_bind local_passAttribute local_declarationSpaces

theorem skipDeclaration_eq (cursor : Cursor) :
    skipDeclaration cursor =
      declarationItems (cursor.skip 5) >>= fun cursor => cursor.skipSpaces.expectText "?>" := by
  unfold skipDeclaration declarationItems demand passAttribute ifThere
  simp only [bind, Except.bind, throw, throwThe, MonadExceptOf.throw, pure, Except.pure]
  cases declarationSpaces (cursor.skip 5) with
  | error => rfl
  | ok spaced =>
    dsimp only
    split
    next => rfl
    next =>
      dsimp only
      cases Token.lexAttribute spaced with
      | error => rfl
      | ok version =>
        dsimp only [Except.map]
        cases declarationSpaces version.2 with
        | error => rfl
        | ok spaced =>
          dsimp only
          split
          next =>
            cases Token.lexAttribute spaced with
            | error => rfl
            | ok encoding =>
              dsimp only [Except.map]
              cases declarationSpaces encoding.2 with
              | error => rfl
              | ok spaced =>
                dsimp only
                split
                next =>
                  cases Token.lexAttribute spaced with
                  | error => rfl
                  | ok standalone => rfl
                next => rfl
          next =>
            dsimp only
            split
            next =>
              cases Token.lexAttribute spaced with
              | error => rfl
              | ok standalone => rfl
            next => rfl

/-- A declaration is passed over in the same way, whatever stands behind it. -/
theorem skipDeclaration_again {cursor after : Cursor} (starts : cursor.startsWith "<?xml " = true)
    (found : skipDeclaration cursor = .ok after) :
    ∃ run, cursor.rest = run ++ after.rest ∧ ∀ {other : Cursor} {rest : List Char},
      other.rest = run ++ rest → other.startsWith "<?xml " = true ∧
        ∃ final, skipDeclaration other = .ok final ∧ final.rest = rest := by
  rw [skipDeclaration_eq] at found
  obtain ⟨last, passed, ended⟩ := exists_ok_of_bind found
  obtain ⟨spaces, blank, spaced⟩ := Cursor.skipSpaces_split last
  rw [Cursor.rest_of_expectText ended] at blank
  obtain ⟨run, here, again⟩ := local_declarationItems passed blank
  have begins : cursor.rest = "<?xml".toList ++ (' ' :: (cursor.skip 6).rest) :=
    Cursor.rest_of_startsWith starts
  have behind : ' ' :: (cursor.skip 6).rest = run ++ (spaces ++ ("?>".toList ++ after.rest)) := by
    rw [← blank, ← here]
    exact (Cursor.skip_of_rest "<?xml".toList begins).symm
  refine ⟨"<?xml".toList ++ (run ++ (spaces ++ "?>".toList)), ?_, fun {other rest} opened => ?_⟩
  · rw [begins, behind]
    simp
  · rw [List.append_assoc] at opened
    have space : (run ++ (spaces ++ "?>".toList) ++ rest).head? = some ' ' := by
      have first := congrArg List.head? behind.symm
      cases run with
      | nil =>
        cases spaces with
        | nil => cases first
        | cons => exact first
      | cons => exact first
    have within : (other.skip 5).rest = run ++ (spaces ++ ("?>".toList ++ rest)) := by
      have skipped : (other.skip 5).rest = run ++ (spaces ++ "?>".toList) ++ rest :=
        Cursor.skip_of_rest "<?xml".toList opened
      rw [skipped]
      simp
    constructor
    · cases more : run ++ (spaces ++ "?>".toList) ++ rest with
      | nil =>
        rw [more] at space
        cases space
      | cons c later =>
        rw [more] at space
        cases space
        rw [more] at opened
        exact Cursor.startsWith_of_rest opened
    · obtain ⟨middle, done, left⟩ := again within
      have closes := Cursor.skipSpaces_run left spaced (space_ends (by decide) _)
      obtain ⟨final, ended, left⟩ := Cursor.expectText_of_rest closes
      refine ⟨final, ?_, left⟩
      rw [skipDeclaration_eq]
      exact (congrArg (· >>= _) done).trans ended

theorem skipMark_marked {text : List Char} (first : text.head? = some '\uFEFF') :
    (skipMark (.ofDocument text)).rest = text.drop 1 := by
  have mark : (Cursor.ofDocument text).rest.head? = some '\uFEFF' := first
  rw [skipMark, if_pos (beq_iff_eq.mpr mark), Cursor.skip_rest]
  rfl

theorem skipMark_unmarked {text : List Char} (first : text.head? ≠ some '\uFEFF') :
    (skipMark (.ofDocument text)).rest = text := by
  have noMark : (Cursor.ofDocument text).rest.head? ≠ some '\uFEFF' := first
  rw [skipMark, if_neg (mt beq_iff_eq.mp noMark)]
  rfl

/-- The mark is passed over in both documents or in none, if they agree on what stands behind it. -/
theorem skipMark_again {document run rest : List Char} (filled : run ≠ [])
    (here : (skipMark (.ofDocument document)).rest = run ++ rest) :
    ∃ mark, document = mark ++ (run ++ rest) ∧ ∀ rest',
      (skipMark (.ofDocument (mark ++ (run ++ rest')))).rest = run ++ rest' := by
  by_cases first : document.head? = some '\uFEFF'
  · rw [skipMark_marked first] at here
    cases document with
    | nil => cases first
    | cons c document =>
      cases first
      exact ⟨['\uFEFF'], by rw [← here]; rfl, fun rest' => skipMark_marked rfl⟩
  · rw [skipMark_unmarked first] at here
    refine ⟨[], here, fun rest' => skipMark_unmarked ?_⟩
    have same : (run ++ rest').head? = document.head? := by
      rw [here]
      cases run with
      | nil => exact absurd rfl filled
      | cons => rfl
    rw [List.nil_append, same]
    exact first

/-- The beginning of a document is found again before another rest, if the end of a tag stands
between the two. -/
theorem begins_again {document run rest : List Char} {start : Cursor}
    (begins : Begins document start) (split : start.rest = run ++ rest) (closed : '>' ∈ run) :
    ∃ lead, document = lead ++ (run ++ rest) ∧ ∀ rest', ∃ start',
      Begins (lead ++ (run ++ rest')) start' ∧ start'.rest = run ++ rest' := by
  obtain ⟨upto, behind, rfl⟩ := List.append_of_mem closed
  unfold Begins at begins ⊢
  split at begins
  next declared =>
    obtain ⟨declaration, here, again⟩ := skipDeclaration_again declared begins
    rw [split, ← List.append_assoc] at here
    obtain ⟨mark, whole, there⟩ := skipMark_again (by simp) here
    refine ⟨mark ++ declaration, by rw [whole]; simp, fun rest' => ?_⟩
    have opened := there rest'
    rw [List.append_assoc declaration] at opened
    obtain ⟨declared', final, done, left⟩ := again opened
    refine ⟨final, ?_, left⟩
    rw [List.append_assoc, if_pos declared']
    exact done
  next plain =>
    cases begins
    obtain ⟨mark, whole, there⟩ := skipMark_again (by simp) split
    refine ⟨mark, whole, fun rest' => ⟨_, ?_, there rest'⟩⟩
    apply if_neg
    have opened := there rest'
    rw [Cursor.startsWith, split, List.append_assoc, List.cons_append,
      isPrefixOf_sentinel (by decide)] at plain
    rw [Cursor.startsWith]
    rw [opened, List.append_assoc, List.cons_append, isPrefixOf_sentinel (by decide)]
    exact plain

end Formwright.Markup
