import Formwright.Proofs.Markup.Depth

/-!
The scan for deep nesting against the tree of a document: both see the same elements open, unless
a comment begins like its own end.
-/

namespace Formwright.Markup

/-- A comment whose markup the scan does not meet; other tokens cannot mislead it. -/
def Token.isPassedOver : Token → Bool
  | .comment content => !showsMarkup content
  | _ => true

def Place.exceeds (limit : Nat) (previous : Char) (place : Place) (text : List Char) : Bool :=
  if place.inTag then exceedsInTag limit place.depth previous text
  else exceedsDepth limit place.depth text

theorem Place.exceeds_outside {limit : Nat} {previous : Char} {place : Place}
    (between : place.inTag = false) (text : List Char) :
    place.exceeds limit previous text = exceedsDepth limit place.depth text := by
  rw [exceeds, between]
  rfl

theorem Place.exceeds_spaces {limit : Nat} {previous : Char} {place : Place}
    (between : place.inTag = false) {spaces : List Char} (spaced : ∀ c ∈ spaces, isSpace c)
    (text : List Char) :
    place.exceeds limit previous (spaces ++ text) = exceedsDepth limit place.depth text := by
  have plain : '<' ∉ spaces := fun member => (isTagCharacter_of_space (spaced _ member)).2 rfl
  rw [exceeds_outside between, exceedsDepth_run limit place.depth plain]

theorem Place.inTag_inside (depth : Nat) : (Place.inside depth).inTag = false := by
  cases depth <;> rfl

theorem getLastD_ne {run : List Char} {previous avoided : Char} (before : previous ≠ avoided)
    (inside : ∀ c ∈ run, c ≠ avoided) : run.getLastD previous ≠ avoided := by
  induction run generalizing previous with
  | nil => exact before
  | cons c run ih =>
    rw [List.getLastD_cons]
    exact ih (inside c (.head _)) (fun d member => inside d (.tail _ member))

/-- A step of the lexer is a step of the scan, and only an opened element can be one too many. -/
theorem exceeds_reads {limit : Nat} {previous : Char} {place next : Place}
    {text rest : List Char} {token : Token} (reads : Reads place text token next rest)
    (passed : token.isPassedOver = true)
    (noSlash : previous ≠ '/') (allowed : place.depth ≤ limit) :
    ∃ last, last ≠ '/' ∧ place.exceeds limit previous text =
      (limit < token.depthAfter place.depth || next.exceeds limit last rest) := by
  -- A depth that was allowed before is not reported again.
  have calm : ∀ {depth : Nat} {later : Bool}, depth ≤ place.depth →
      later = (decide (limit < depth) || later) := by
    intro depth later bound
    rw [decide_eq_false (Nat.not_lt.mpr (Nat.le_trans bound allowed)), Bool.false_or]
  have spaceLast : ∀ {spaces : List Char}, (∀ c ∈ spaces, isSpace c) →
      spaces.getLastD previous ≠ '/' := fun spaced =>
    getLastD_ne noSlash fun c member same => absurd (same ▸ spaced c member) (by decide)
  cases reads with
  | comment between spaced unstopped =>
    refine ⟨previous, noSlash, Eq.trans ?_ (calm (Nat.le_refl _))⟩
    have tame : showsMarkup _ = false := (Bool.not_eq_true' _).mp passed
    rw [Place.exceeds_spaces between spaced, exceedsDepth_comment _ _ tame unstopped,
      Place.exceeds_outside between]
  | instruction between spaced unstopped =>
    refine ⟨previous, noSlash, Eq.trans ?_ (calm (Nat.le_refl _))⟩
    rw [Place.exceeds_spaces between spaced, exceedsDepth_instruction _ _ unstopped,
      Place.exceeds_outside between]
  | @tagStart _ spaces run rest name position admits spaced nonempty nameLike =>
    have between : place.inTag = false := by
      cases place with
      | tag depth => cases admits
      | prolog | content depth | epilog => rfl
    have nameLast : run.getLastD '<' ≠ '/' := getLastD_ne (by decide) fun c member =>
      ne_of_isNameCharacter (nameLike c member) (by decide)
    refine ⟨run.getLastD '<', nameLast, Eq.trans ?_ (calm (Nat.le_refl _))⟩
    rw [Place.exceeds_spaces between spaced]
    cases run with
    | nil => exact absurd rfl nonempty
    | cons c run =>
      have name := nameLike c (.head _)
      rw [List.cons_append, exceedsDepth_startTag _ _ (ne_of_isNameCharacter name (by decide))
        (ne_of_isNameCharacter name (by decide)) (ne_of_isNameCharacter name (by decide)),
        ← List.cons_append]
      exact exceedsInTag_run _ _ (fun d member => (isTagCharacter_of_name (nameLike d member)).1)
        '<' rest
  | @tagAttribute depth run content rest quote name value position plain isQuote closed =>
    have noSlash : quote ≠ '/' := by rcases isQuote with rfl | rfl <;> decide
    refine ⟨quote, noSlash, Eq.trans ?_ (calm (Nat.le_refl _))⟩
    exact (exceedsInTag_run limit depth plain previous _).trans
      (exceedsInTag_quoted limit depth isQuote closed _ rest)
  | @selfClosing depth spaces rest spaced =>
    refine ⟨previous, noSlash, Eq.trans ?_ (calm (Nat.le_refl _))⟩
    rw [Place.exceeds_outside (Place.inTag_inside depth), Place.depth_inside]
    exact (exceedsInTag_run limit depth (fun c member =>
      (isTagCharacter_of_space (spaced c member)).1) previous _).trans
      (exceedsInTag_selfClosing limit depth _ rest)
  | @tagEnd depth spaces rest spaced =>
    refine ⟨previous, noSlash, ?_⟩
    exact (exceedsInTag_run limit depth (fun c member =>
      (isTagCharacter_of_space (spaced c member)).1) previous _).trans
      (exceedsInTag_end limit depth (spaceLast spaced) rest)
  | @closeTag depth run rest name position plain =>
    refine ⟨previous, noSlash, Eq.trans ?_ (calm (Nat.sub_le ..))⟩
    rw [Place.exceeds_outside (Place.inTag_inside _), Place.depth_inside]
    exact exceedsDepth_closeTag limit depth plain rest
  | @text depth run rest content plain =>
    refine ⟨previous, noSlash, Eq.trans ?_ (calm (Nat.le_refl _))⟩
    exact exceedsDepth_run limit depth plain rest
  | @characterData depth content rest unstopped =>
    refine ⟨previous, noSlash, Eq.trans ?_ (calm (Nat.le_refl _))⟩
    exact exceedsDepth_characterData limit depth unstopped

theorem exceeds_readsAll {limit : Nat} {previous : Char} {place : Place} {text : List Char}
    {tokens : List Token} (readsAll : ReadsAll place text tokens)
    (passed : ∀ token ∈ tokens, token.isPassedOver = true)
    (noSlash : previous ≠ '/') (allowed : place.depth ≤ limit) :
    place.exceeds limit previous text = decide (limit < deepest place.depth tokens) := by
  induction readsAll generalizing previous with
  | @finish place text blank inTag =>
    rw [deepest, decide_eq_false (Nat.not_lt.mpr allowed)]
    cases between : place.inTag with
    | true =>
      rw [inTag between]
      simp [Place.exceeds, between, exceedsInTag_nil]
    | false =>
      have plain : '<' ∉ text := fun member => (isTagCharacter_of_space (blank _ member)).2 rfl
      have ended := exceedsDepth_run limit place.depth plain []
      rw [List.append_nil, exceedsDepth] at ended
      rw [Place.exceeds_outside between, ended]
  | @step place next text rest token tokens first later ih =>
    obtain ⟨last, noSlash', same⟩ := exceeds_reads first
      (passed token (.head _)) noSlash allowed
    rw [same, deepest]
    by_cases exceeded : limit < token.depthAfter place.depth
    · have ahead := le_deepest (token.depthAfter place.depth) tokens
      rw [decide_eq_true exceeded, Bool.true_or, decide_eq_true]
      omega
    · have allowed' : next.depth ≤ limit := by rw [first.depth]; omega
      rw [ih (fun other member => passed other (.tail _ member)) noSlash' allowed', first.depth,
        decide_eq_false exceeded, Bool.false_or]
      congr 1
      rw [eq_iff_iff]
      omega

/-- The scan of a document, when no comment of it is read as markup. -/
theorem nestsDeeperThan_tokens {document : List Char} (accepted : (lex document).fault = none)
    (passed : ∀ token ∈ (lex document).tokens, token.isPassedOver = true) (limit : Nat) :
    nestsDeeperThan limit document = decide (limit < deepest 0 (lex document).tokens) := by
  obtain ⟨mark, declaration, start, split, plain, declared, readsAll⟩ := readsAll_of_lex accepted
  have scanned := exceeds_readsAll readsAll passed (by decide : 'a' ≠ '/') (Nat.zero_le limit)
  rw [Place.exceeds_outside rfl] at scanned
  refine Eq.trans ?_ scanned
  rw [nestsDeeperThan, split, exceedsDepth_run limit 0 plain]
  rcases declared with rfl | ⟨body, rfl, plainBody⟩
  · rfl
  · rw [List.cons_append, List.cons_append, List.append_assoc,
      exceedsDepth_declaration limit 0 plainBody]
    rfl

theorem openDepth_of_read {document : List Char} {root : Node}
    (accepted : Node.read document = .ok root) :
    (lex document).fault = none ∧ root.openDepth = deepest 0 (lex document).tokens := by
  unfold Node.read at accepted
  obtain ⟨final, built, accepted⟩ := exists_ok_of_bind accepted
  split at accepted
  next => cases accepted
  next clean =>
    obtain ⟨mark, declaration, start, -, -, -, readsAll⟩ := readsAll_of_lex clean
    have fits : Builder.start.Fits .prolog := ⟨rfl, rfl, rfl⟩
    refine ⟨clean, (Builder.openDepth_of_finish readsAll fits built accepted).trans ?_⟩
    exact Nat.zero_max _

/-- The scan agrees with the tree at every limit when it does at the two around the depth. -/
theorem agrees_iff (document : List Char) (depth : Nat) :
    (∀ limit, nestsDeeperThan limit document = true ↔ limit < depth) ↔
      nestsDeeperThan depth document = false ∧
        ∀ limit, depth = limit + 1 → nestsDeeperThan limit document = true := by
  constructor
  next =>
    intro agrees
    constructor
    next => exact Bool.eq_false_iff.mpr fun deeper => Nat.lt_irrefl _ ((agrees depth).mp deeper)
    next => exact fun limit same => (agrees limit).mpr (by omega)
  next =>
    intro ⟨notDeeper, deep⟩ limit
    constructor
    next =>
      intro found
      apply Nat.lt_of_not_le
      intro le
      have deeper : nestsDeeperThan depth document = true := exceedsDepth_mono le found
      rw [notDeeper] at deeper
      exact Bool.false_ne_true deeper
    next =>
      intro below
      obtain ⟨last, same⟩ := Nat.exists_eq_succ_of_ne_zero (Nat.ne_of_gt (Nat.zero_lt_of_lt below))
      exact exceedsDepth_mono (by omega) (deep last same)

/-- For a document that is accepted, the scan agrees with the tree at every limit exactly when it
does not find the document deeper than its elements are open, and finds it deeper than one less.
It always does unless a comment shows it markup. That can only be a comment whose text begins with
`>` or `->`: there the scan goes on with the text of the comment, behind any other comment it goes
on with what follows. -/
theorem nestsDeeperThan_iff_openDepth {document : List Char} {root : Node}
    (accepted : Node.read document = .ok root) :
    ((∀ limit, nestsDeeperThan limit document = true ↔ limit < root.openDepth) ↔
      nestsDeeperThan root.openDepth document = false ∧
        ∀ limit, root.openDepth = limit + 1 → nestsDeeperThan limit document = true) ∧
    ((∀ token ∈ (lex document).tokens, token.isPassedOver = true) →
      ∀ limit, nestsDeeperThan limit document = true ↔ limit < root.openDepth) ∧
    ∀ (limit depth : Nat) (content rest : List Char),
      Unstopped ("-->".toList.isPrefixOf ·) ("-->".toList ++ rest) content →
      exceedsDepth limit depth ("<!--".toList ++ (content ++ ("-->".toList ++ rest))) =
        exceedsDepth limit depth
          (if closesAtOnce content = true then shownText content ++ ("-->".toList ++ rest)
          else rest) := by
  refine ⟨agrees_iff document root.openDepth, ?_, ?_⟩
  next =>
    intro passed limit
    obtain ⟨clean, depth⟩ := openDepth_of_read accepted
    rw [nestsDeeperThan_tokens clean passed, depth, decide_eq_true_iff]
  next =>
    intro limit depth content rest unstopped
    exact exceedsDepth_behind limit depth unstopped

theorem read_of_openDepth (document : List Char) (depth : Nat)
    (found : ((Node.read document).map Node.openDepth).toOption = some depth) :
    ∃ root, Node.read document = .ok root ∧ root.openDepth = depth := by
  cases accepted : Node.read document with
  | error fault => rw [accepted] at found; cases found
  | ok root =>
    rw [accepted] at found
    exact ⟨root, rfl, Option.some.inj found⟩

/-- One element is open while another is, beside markup that nests nothing. -/
theorem nesting_of_two_elements :
    (∃ root, Node.read "<a><!-- > <x> --><b><![CDATA[<y>]]></b><c d='>'/></a>".toList = .ok root ∧
      (∀ token ∈ (lex "<a><!-- > <x> --><b><![CDATA[<y>]]></b><c d='>'/></a>".toList).tokens,
        token.isPassedOver = true) ∧
      root.openDepth = 2 ∧
      nestsDeeperThan 1 "<a><!-- > <x> --><b><![CDATA[<y>]]></b><c d='>'/></a>".toList = true) ∧
    Unstopped ("-->".toList.isPrefixOf ·) ("-->".toList ++ ['x']) ['-', 'y'] ∧
      exceedsDepth 0 0 ("<!--".toList ++ (['-', 'y'] ++ ("-->".toList ++ ['x']))) =
        exceedsDepth 0 0
          (if closesAtOnce ['-', 'y'] = true then shownText ['-', 'y'] ++ ("-->".toList ++ ['x'])
          else ['x']) := by
  obtain ⟨root, accepted, depth⟩ := read_of_openDepth
    "<a><!-- > <x> --><b><![CDATA[<y>]]></b><c d='>'/></a>".toList 2 (by decide +kernel)
  have passed : ∀ token ∈
      (lex "<a><!-- > <x> --><b><![CDATA[<y>]]></b><c d='>'/></a>".toList).tokens,
      token.isPassedOver = true := by decide +kernel
  have unstopped : Unstopped ("-->".toList.isPrefixOf ·) ("-->".toList ++ ['x']) ['-', 'y'] :=
    ⟨rfl, rfl, trivial⟩
  obtain ⟨_, agrees, behind⟩ := nestsDeeperThan_iff_openDepth accepted
  have deeper := (agrees passed 1).mpr (by omega)
  exact ⟨⟨root, accepted, passed, depth, deeper⟩, unstopped, behind 0 0 _ _ unstopped⟩

/-- A comment that begins with `>` shows the scan a start tag that the tree does not have, or
an end tag, and then elements go uncounted. -/
theorem scan_misled_by_comment :
    ¬ ∀ (document : List Char) (root : Node) (limit : Nat), Node.read document = .ok root →
      (nestsDeeperThan limit document = true ↔ limit < root.openDepth) := by
  intro agrees
  obtain ⟨root, accepted, depth⟩ := read_of_openDepth "<a><!--><b>--></a>".toList 1
    (by decide +kernel)
  have found : nestsDeeperThan 1 "<a><!--><b>--></a>".toList = true := by decide +kernel
  have deeper := (agrees _ root 1 accepted).mp found
  omega

/-- Two elements are open at once in this document. -/
example : nestsDeeperThan 1 "<a><!--></a>--><b></b></a>".toList = false := by decide +kernel

end Formwright.Markup
