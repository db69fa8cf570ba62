import Formwright.Markup.Nesting

/-!
What the scan for deep nesting passes over. The scan knows no grammar: each statement here says
how it moves across a text of one shape, whatever follows.
-/

namespace Formwright.Markup

def Unstopped (stop : List Char → Bool) (rest : List Char) : List Char → Prop
  | [] => True
  | c :: run => stop (c :: run ++ rest) = false ∧ Unstopped stop rest run

theorem unstopped_append (stop : List Char → Bool) (rest first second : List Char) :
    Unstopped stop rest (first ++ second) ↔
      Unstopped stop (second ++ rest) first ∧ Unstopped stop rest second := by
  induction first with
  | nil => simp [Unstopped]
  | cons c first ih => simp only [List.cons_append, Unstopped, ih, List.append_assoc, and_assoc]

/-- A text is not met where its first character does not stand. -/
theorem unstopped_of_notMem {first : Char} {later rest run : List Char} (absent : first ∉ run) :
    Unstopped ((first :: later).isPrefixOf ·) rest run := by
  induction run with
  | nil => trivial
  | cons c run ih =>
    rw [List.mem_cons, not_or] at absent
    exact ⟨by simp [List.isPrefixOf, absent.1], ih absent.2⟩

theorem afterText_unstopped (terminator rest run : List Char)
    (unstopped : Unstopped (terminator.isPrefixOf ·) (terminator ++ rest) run) :
    afterText terminator (run ++ (terminator ++ rest)) = rest := by
  induction run with
  | nil =>
    cases terminator with
    | nil => cases rest <;> simp [afterText]
    | cons c terminator => simp [afterText]
  | cons c run ih =>
    have missed : terminator.isPrefixOf (c :: (run ++ (terminator ++ rest))) = false := unstopped.1
    rw [List.cons_append, afterText, missed]
    exact ih unstopped.2

/-- Wherever the terminator is first met, the scan goes on no later than behind the terminator
that is named here. -/
theorem afterText_within (terminator rest run : List Char) :
    ∃ passed, afterText terminator (run ++ (terminator ++ rest)) = passed ++ rest ∧
      passed ⊆ run ++ terminator := by
  induction run with
  | nil => exact ⟨[], afterText_unstopped terminator rest [] trivial, List.nil_subset _⟩
  | cons c run ih =>
    rw [List.cons_append, afterText]
    split
    next =>
      refine ⟨((c :: run) ++ terminator).drop terminator.length, ?_, List.drop_subset _ _⟩
      have short : terminator.length ≤ (c :: run ++ terminator).length := by
        rw [List.length_append]
        omega
      rw [← List.drop_append_of_le_length short, List.append_assoc, List.cons_append]
    next =>
      obtain ⟨passed, reached, within⟩ := ih
      exact ⟨passed, reached, fun x member => List.mem_cons_of_mem c (within member)⟩

/-! Outside a tag. -/

variable (limit depth : Nat)

theorem exceedsDepth_character {c : Char} (plain : c ≠ '<') (rest : List Char) :
    exceedsDepth limit depth (c :: rest) = exceedsDepth limit depth rest := by
  rw [exceedsDepth, if_pos (by simpa using plain)]

theorem exceedsDepth_run {run : List Char} (plain : '<' ∉ run) (rest : List Char) :
    exceedsDepth limit depth (run ++ rest) = exceedsDepth limit depth rest := by
  induction run with
  | nil => rfl
  | cons c run ih =>
    rw [List.mem_cons, not_or] at plain
    rw [List.cons_append, exceedsDepth_character limit depth (Ne.symm plain.1), ih plain.2]

/-- A text without tags is passed over even if its end is taken for an earlier one. -/
theorem exceedsDepth_afterText {terminator run : List Char} (plain : '<' ∉ run ++ terminator)
    (rest : List Char) :
    exceedsDepth limit depth (afterText terminator (run ++ (terminator ++ rest))) =
      exceedsDepth limit depth rest := by
  obtain ⟨passed, reached, within⟩ := afterText_within terminator rest run
  rw [reached, exceedsDepth_run limit depth (fun member => plain (within member))]

def exceedsInTag (previous : Char) (text : List Char) : Bool :=
  match endOfTag none previous text with
  | none => false
  | some (last, later) =>
    if last = '/' then exceedsDepth limit depth later
    else limit < depth + 1 || exceedsDepth limit (depth + 1) later

theorem exceedsInTag_some {limit depth : Nat} {previous last : Char} {text later : List Char}
    (ended : endOfTag none previous text = some (last, later)) :
    exceedsInTag limit depth previous text =
      if last = '/' then exceedsDepth limit depth later
      else limit < depth + 1 || exceedsDepth limit (depth + 1) later := by
  rw [exceedsInTag, ended]

/-- The first characters of markup decide how the scan goes on. -/
theorem exceedsDepth_markup (rest : List Char) :
    exceedsDepth limit depth ('<' :: rest) =
      if "!--".toList.isPrefixOf rest then
        exceedsDepth limit depth (afterText "-->".toList rest)
      else if "![CDATA[".toList.isPrefixOf rest then
        exceedsDepth limit depth (afterText "]]>".toList rest)
      else if rest.head? == some '?' then exceedsDepth limit depth (afterText "?>".toList rest)
      else if rest.head? == some '!' then exceedsDepth limit depth (afterText ['>'] rest)
      else if rest.head? == some '/' then
        exceedsDepth limit (depth - 1) (afterText ['>'] rest)
      else exceedsInTag limit depth '<' rest := by
  rw [exceedsDepth, if_neg (by decide)]
  congr 5
  unfold exceedsInTag
  split
  next unended => rw [unended]
  next later ended => rw [ended]; rfl
  next last later other ended => rw [ended]; exact (if_neg other).symm

/-- What is too deep for a limit is too deep for every smaller one. -/
theorem exceedsDepth_mono {limit larger : Nat} (le : limit ≤ larger) {depth : Nat}
    {text : List Char} (exceeds : exceedsDepth larger depth text = true) :
    exceedsDepth limit depth text = true := by
  fun_induction exceedsDepth larger depth text with
  | case1 => exact nomatch exceeds
  | case2 depth c rest plain ih =>
    rw [exceedsDepth, if_pos plain]
    exact ih exceeds
  | case3 depth c rest markup comment ih =>
    rw [exceedsDepth, if_neg markup, if_pos comment]
    exact ih exceeds
  | case4 depth c rest markup _ data ih =>
    rw [exceedsDepth, if_neg markup, if_neg ‹_›, if_pos data]
    exact ih exceeds
  | case5 depth c rest markup _ _ instruction ih =>
    rw [exceedsDepth, if_neg markup, if_neg ‹_›, if_neg ‹_›, if_pos instruction]
    exact ih exceeds
  | case6 depth c rest markup _ _ _ declaration ih =>
    rw [exceedsDepth, if_neg markup, if_neg ‹_›, if_neg ‹_›, if_neg ‹_›, if_pos declaration]
    exact ih exceeds
  | case7 depth c rest markup _ _ _ _ closes ih =>
    rw [exceedsDepth, if_neg markup, if_neg ‹_›, if_neg ‹_›, if_neg ‹_›, if_neg ‹_›, if_pos closes]
    exact ih exceeds
  | case8 => exact nomatch exceeds
  | case9 depth c rest markup _ _ _ _ _ later ended ih =>
    have start : c = '<' := by simpa using markup
    rw [start] at ended ⊢
    rw [exceedsDepth_markup, if_neg ‹_›, if_neg ‹_›, if_neg ‹_›, if_neg ‹_›, if_neg ‹_›,
      exceedsInTag_some ended, if_pos rfl]
    exact ih exceeds
  | case10 depth c rest markup _ _ _ _ _ last later open_ ended ih =>
    have start : c = '<' := by simpa using markup
    rw [start] at ended ⊢
    rw [exceedsDepth_markup, if_neg ‹_›, if_neg ‹_›, if_neg ‹_›, if_neg ‹_›, if_neg ‹_›,
      exceedsInTag_some ended, if_neg open_, Bool.or_eq_true, decide_eq_true_iff]
    rw [Bool.or_eq_true, decide_eq_true_iff] at exceeds
    obtain here | deeper := exceeds
    next => exact .inl (Nat.lt_of_le_of_lt le here)
    next => exact .inr (ih deeper)

theorem exceedsDepth_instruction {body rest : List Char}
    (unstopped : Unstopped ("?>".toList.isPrefixOf ·) ("?>".toList ++ rest) ('?' :: body)) :
    exceedsDepth limit depth ('<' :: '?' :: (body ++ ("?>".toList ++ rest))) =
      exceedsDepth limit depth rest := by
  have reached := afterText_unstopped "?>".toList rest ('?' :: body) unstopped
  rw [List.cons_append] at reached
  rw [exceedsDepth_markup, if_neg (by simp), if_neg (by simp), if_pos (by simp), reached]

/-- A declaration may hold its own end in the value of an attribute, but no markup. -/
theorem exceedsDepth_declaration {body : List Char} (plain : '<' ∉ body) (rest : List Char) :
    exceedsDepth limit depth ('<' :: '?' :: (body ++ ("?>".toList ++ rest))) =
      exceedsDepth limit depth rest := by
  have clean : '<' ∉ ('?' :: body) ++ "?>".toList := by simpa using plain
  rw [exceedsDepth_markup, if_neg (by simp), if_neg (by simp), if_pos (by simp)]
  exact exceedsDepth_afterText limit depth clean rest

theorem exceedsDepth_characterData {content rest : List Char}
    (unstopped : Unstopped ("]]>".toList.isPrefixOf ·) ("]]>".toList ++ rest) content) :
    exceedsDepth limit depth ("<![CDATA[".toList ++ (content ++ ("]]>".toList ++ rest))) =
      exceedsDepth limit depth rest := by
  have whole : Unstopped ("]]>".toList.isPrefixOf ·) ("]]>".toList ++ rest)
      ("![CDATA[".toList ++ content) :=
    (unstopped_append ..).mpr ⟨unstopped_of_notMem (by decide), unstopped⟩
  have reached := afterText_unstopped "]]>".toList rest _ whole
  rw [List.append_assoc] at reached
  change exceedsDepth limit depth ('<' :: ("![CDATA[".toList ++ _)) = _
  rw [exceedsDepth_markup, if_neg (by simp), if_pos (by simp), reached]

/-- The scan takes a comment that begins so for closed at once: it reads the hyphens that open
the comment also as those that close it. -/
def closesAtOnce (content : List Char) : Bool :=
  ['>'].isPrefixOf content || ['-', '>'].isPrefixOf content

def showsMarkup (content : List Char) : Bool := closesAtOnce content && content.contains '<'

theorem afterText_comment {content rest : List Char} (closesLater : closesAtOnce content = false)
    (unstopped : Unstopped ("-->".toList.isPrefixOf ·) ("-->".toList ++ rest) content) :
    afterText "-->".toList ("!--".toList ++ (content ++ ("-->".toList ++ rest))) = rest := by
  rw [closesAtOnce, Bool.or_eq_false_iff] at closesLater
  have opening : Unstopped ("-->".toList.isPrefixOf ·) (content ++ ("-->".toList ++ rest))
      ['!', '-', '-'] := by
    refine ⟨rfl, ?_, ?_, trivial⟩
    · cases content with
      | nil => rfl
      | cons c content => simpa [List.isPrefixOf] using closesLater.1
    · match content with
      | [] => rfl
      | [c] => simp [List.isPrefixOf]
      | c :: d :: content => simpa [List.isPrefixOf] using closesLater.2
  have whole := (unstopped_append _ ("-->".toList ++ rest) _ content).mpr ⟨opening, unstopped⟩
  rw [← List.append_assoc]
  exact afterText_unstopped _ _ _ whole

def shownText (content : List Char) : List Char :=
  if ['>'].isPrefixOf content then content.drop 1 else content.drop 2

theorem afterText_comment_early {content : List Char} (early : closesAtOnce content = true)
    (rest : List Char) :
    afterText "-->".toList ("!--".toList ++ (content ++ ("-->".toList ++ rest))) =
      shownText content ++ ("-->".toList ++ rest) := by
  rw [closesAtOnce, Bool.or_eq_true, List.isPrefixOf_iff_prefix,
    List.isPrefixOf_iff_prefix] at early
  rcases early with ⟨inside, rfl⟩ | ⟨inside, rfl⟩
  · simp [afterText, List.isPrefixOf, shownText]
  · simp [afterText, List.isPrefixOf, shownText]

/-- Behind a comment the scan goes on with the rest, or in the comment with what it is shown. -/
theorem exceedsDepth_behind {content rest : List Char}
    (unstopped : Unstopped ("-->".toList.isPrefixOf ·) ("-->".toList ++ rest) content) :
    exceedsDepth limit depth ("<!--".toList ++ (content ++ ("-->".toList ++ rest))) =
      exceedsDepth limit depth
        (if closesAtOnce content = true then shownText content ++ ("-->".toList ++ rest)
        else rest) := by
  change exceedsDepth limit depth ('<' :: ("!--".toList ++ _)) = _
  rw [exceedsDepth_markup, if_pos (by simp)]
  split
  next early => rw [afterText_comment_early early]
  next later => rw [afterText_comment (Bool.eq_false_iff.mpr later) unstopped]

theorem exceedsDepth_comment {content rest : List Char} (tame : showsMarkup content = false)
    (unstopped : Unstopped ("-->".toList.isPrefixOf ·) ("-->".toList ++ rest) content) :
    exceedsDepth limit depth ("<!--".toList ++ (content ++ ("-->".toList ++ rest))) =
      exceedsDepth limit depth rest := by
  rw [exceedsDepth_behind limit depth unstopped]
  split
  next early =>
    have plain : '<' ∉ shownText content ++ "-->".toList := by
      rw [showsMarkup, early, Bool.true_and, List.contains_eq_mem, decide_eq_false_iff_not] at tame
      rw [List.mem_append, not_or, shownText]
      refine ⟨fun shown => tame ?_, by decide⟩
      split at shown
      next => exact List.mem_of_mem_drop shown
      next => exact List.mem_of_mem_drop shown
    rw [← List.append_assoc, exceedsDepth_run limit depth plain]
  next => rfl

theorem exceedsDepth_closeTag {run : List Char} (plain : '>' ∉ run) (rest : List Char) :
    exceedsDepth limit depth ('<' :: '/' :: (run ++ '>' :: rest)) =
      exceedsDepth limit (depth - 1) rest := by
  have unstopped : Unstopped (['>'].isPrefixOf ·) (['>'] ++ rest) ('/' :: run) :=
    unstopped_of_notMem (by simpa using plain)
  have reached := afterText_unstopped ['>'] rest _ unstopped
  rw [List.cons_append, List.singleton_append] at reached
  rw [exceedsDepth_markup, if_neg (by simp), if_neg (by simp), if_neg (by simp),
    if_neg (by simp), if_pos (by simp), reached]

theorem exceedsDepth_startTag {c : Char} (noBang : c ≠ '!') (noQuery : c ≠ '?')
    (noSlash : c ≠ '/') (rest : List Char) :
    exceedsDepth limit depth ('<' :: c :: rest) = exceedsInTag limit depth '<' (c :: rest) := by
  rw [exceedsDepth_markup, if_neg (by simp [noBang.symm]), if_neg (by simp [noBang.symm]),
    if_neg (by simpa using noQuery), if_neg (by simpa using noBang),
    if_neg (by simpa using noSlash)]

/-! Inside a start tag. -/

def isTagCharacter (c : Char) : Bool := c != '>' && c != '"' && c != '\''

theorem endOfTag_run {run : List Char} (plain : ∀ c ∈ run, isTagCharacter c) (previous : Char)
    (rest : List Char) :
    endOfTag none previous (run ++ rest) = endOfTag none (run.getLastD previous) rest := by
  induction run generalizing previous with
  | nil => rfl
  | cons c run ih =>
    have here : isTagCharacter c := plain c (List.mem_cons_self ..)
    simp only [isTagCharacter, Bool.and_eq_true, bne_iff_ne] at here
    have later : ∀ d ∈ run, isTagCharacter d := fun d member => plain d (.tail _ member)
    rw [List.cons_append, endOfTag, if_neg here.1.1]
    simp only [here.1.2, here.2, decide_false, Bool.or_self, Bool.false_eq_true, ↓reduceIte]
    rw [ih later c, List.getLastD_cons]

theorem endOfTag_value {quote : Char} {content : List Char} (closed : quote ∉ content)
    (previous : Char) (rest : List Char) :
    endOfTag (some quote) previous (content ++ quote :: rest) = endOfTag none quote rest := by
  induction content generalizing previous with
  | nil => simp [endOfTag]
  | cons c content ih =>
    rw [List.mem_cons, not_or] at closed
    rw [List.cons_append, endOfTag]
    simp only [Ne.symm closed.1, ↓reduceIte]
    exact ih closed.2 c

theorem endOfTag_quoted {quote : Char} (isQuote : quote = '"' ∨ quote = '\'')
    {content : List Char} (closed : quote ∉ content) (previous : Char) (rest : List Char) :
    endOfTag none previous (quote :: (content ++ quote :: rest)) = endOfTag none quote rest := by
  rw [endOfTag]
  rcases isQuote with rfl | rfl
  · exact endOfTag_value closed _ rest
  · exact endOfTag_value closed _ rest

theorem exceedsInTag_run {run : List Char} (plain : ∀ c ∈ run, isTagCharacter c) (previous : Char)
    (rest : List Char) :
    exceedsInTag limit depth previous (run ++ rest) =
      exceedsInTag limit depth (run.getLastD previous) rest := by
  unfold exceedsInTag
  rw [endOfTag_run plain]

theorem exceedsInTag_quoted {quote : Char} (isQuote : quote = '"' ∨ quote = '\'')
    {content : List Char} (closed : quote ∉ content) (previous : Char) (rest : List Char) :
    exceedsInTag limit depth previous (quote :: (content ++ quote :: rest)) =
      exceedsInTag limit depth quote rest := by
  unfold exceedsInTag
  rw [endOfTag_quoted isQuote closed]

theorem exceedsInTag_nil (previous : Char) : exceedsInTag limit depth previous [] = false := rfl

theorem exceedsInTag_selfClosing (previous : Char) (rest : List Char) :
    exceedsInTag limit depth previous ('/' :: '>' :: rest) = exceedsDepth limit depth rest := by
  simp [exceedsInTag, endOfTag]

theorem exceedsInTag_end {previous : Char} (noSlash : previous ≠ '/') (rest : List Char) :
    exceedsInTag limit depth previous ('>' :: rest) =
      (limit < depth + 1 || exceedsDepth limit (depth + 1) rest) := by
  simp [exceedsInTag, endOfTag, noSlash]

end Formwright.Markup
