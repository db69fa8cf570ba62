import Formwright.Proofs.Markup.Comments
import Formwright.Proofs.Markup.Nesting
import Formwright.Proofs.Markup.Positions

/-!
The tree of a document with a comment in the content of an element against the tree of the document
without it: they differ at the comment alone. The two trees are built side by side.
-/

namespace Formwright.Markup

/-- Two lists of nodes, and the list they make once nothing stands between them. Texts that then
touch become one. -/
inductive Parts : List Node → List Node → List Node → Prop
  | apart (first second : List Node) : Parts first second (first ++ second)
  | joined (first second : List Node) (one other whole : String) :
      Parts (first ++ [.text one]) (.text other :: second) (first ++ .text whole :: second)

theorem Parts.reverse {first second plain : List Node} (parts : Parts first second plain) :
    Parts second.reverse first.reverse plain.reverse := by
  cases parts with
  | apart first second =>
    rw [List.reverse_append]
    exact .apart ..
  | joined first second one other whole =>
    have joined := Parts.joined second.reverse first.reverse other one whole
    simpa using joined

theorem Parts.cons {first second plain : List Node} (parts : Parts first second plain)
    (node : Node) : Parts (node :: first) second (node :: plain) := by
  cases parts with
  | apart first second => exact .apart (node :: first) second
  | joined first second one other whole => exact .joined (node :: first) second one other whole

structure Site where
  name : String
  attributes : List Attribute
  earlier : List Node
  later : List Node

inductive Drops (content : String) (site : Site) : Node → Node → Prop
  | here {plain : List Node} (parts : Parts site.earlier site.later plain) :
      Drops content site
        (.element site.name site.attributes false
          (site.earlier ++ .comment content :: site.later))
        (.element site.name site.attributes false plain)
  | inside {name : String} {attributes : List Attribute} {node plain : Node}
      (first second : List Node) (drops : Drops content site node plain) :
      Drops content site (.element name attributes false (first ++ node :: second))
        (.element name attributes false (first ++ plain :: second))

def Node.isText : Node → Bool
  | .text _ => true
  | _ => false

theorem Drops.notText {content : String} {site : Site} {node plain : Node}
    (drops : Drops content site node plain) : node.isText = false ∧ plain.isText = false := by
  cases drops with
  | here | inside => exact ⟨rfl, rfl⟩

namespace Builder

/-! ## Texts among the children of an open element -/

/-- What a text does to the children of an element, which stand last first. -/
def addText (content : String) : List Node → List Node
  | .text earlier :: older => .text (earlier ++ content) :: older
  | children => .text content :: children

theorem appendText_eq (tag : Option Tag) (frame : Frame) (outer : List Frame) (root : Option Node)
    (content : String) :
    appendText ⟨tag, frame :: outer, root⟩ content =
      ⟨tag, { frame with children := addText content frame.children } :: outer, root⟩ := by
  obtain ⟨name, attributes, scope, children⟩ := frame
  cases children with
  | nil => rfl
  | cons node older => cases node <;> rfl

/-- A text never reaches behind a node that is none. -/
theorem addText_append (content : String) (newer older : List Node) {node : Node}
    (other : node.isText = false) :
    addText content (newer ++ node :: older) = addText content newer ++ node :: older := by
  cases newer with
  | nil =>
    cases node with
    | text => cases other
    | element | comment | instruction => rfl
  | cons first newer => cases first <;> rfl

theorem addText_parts {newer older plain : List Node}
    (parts : Parts newer older plain) (content : String) :
    Parts (addText content newer) older (addText content plain) := by
  cases parts with
  | apart =>
    cases newer with
    | nil =>
      cases older with
      | nil => exact .apart [.text content] []
      | cons node older =>
        cases node with
        | text earlier => exact .joined [] older content earlier (earlier ++ content)
        | element | comment | instruction => exact .apart [.text content] (_ :: older)
    | cons node newer =>
      cases node with
      | text earlier => exact .apart (.text (earlier ++ content) :: newer) older
      | element | comment | instruction => exact .apart (.text content :: _ :: newer) older
  | joined newer older one other whole =>
    cases newer with
    | nil => exact .joined [] older (one ++ content) other (whole ++ content)
    | cons node newer =>
      cases node with
      | text earlier =>
        exact .joined (.text (earlier ++ content) :: newer) older one other whole
      | element | comment | instruction =>
        exact .joined (.text content :: _ :: newer) older one other whole

/-! ## Open elements -/

/-- The open elements of a document with a comment and of the document without it. The comment
stands in an open element, or in a closed child of one. -/
inductive FramesDrop (content : String) : List Frame → List Frame → Prop
  | here {name : QualifiedName} {attributes : List Attribute} {scope : Scope}
      {newer older plain : List Node} {outer : List Frame} (parts : Parts newer older plain) :
      FramesDrop content (⟨name, attributes, scope, newer ++ .comment content :: older⟩ :: outer)
        (⟨name, attributes, scope, plain⟩ :: outer)
  | child {name : QualifiedName} {attributes : List Attribute} {scope : Scope}
      {outer : List Frame} {site : Site} {node plain : Node} (newer older : List Node)
      (drops : Drops content site node plain) :
      FramesDrop content (⟨name, attributes, scope, newer ++ node :: older⟩ :: outer)
        (⟨name, attributes, scope, newer ++ plain :: older⟩ :: outer)
  | under {frame : Frame} {outer plain : List Frame} (drop : FramesDrop content outer plain) :
      FramesDrop content (frame :: outer) (frame :: plain)

inductive Lags (content : String) : Builder → Builder → Prop
  | opened {tag : Option Tag} {frames plain : List Frame} {root : Option Node}
      (drop : FramesDrop content frames plain) :
      Lags content ⟨tag, frames, root⟩ ⟨tag, plain, root⟩
  | closed {tag : Option Tag} {site : Site} {node plain : Node}
      (drops : Drops content site node plain) :
      Lags content ⟨tag, [], some node⟩ ⟨tag, [], some plain⟩

variable {content : String} {tag : Option Tag} {frames plain : List Frame} {root : Option Node}

theorem FramesDrop.outerScope (drop : FramesDrop content frames plain) :
    outerScope ⟨tag, frames, root⟩ = outerScope ⟨tag, plain, root⟩ := by
  cases drop with
  | here | child | under => rfl

theorem FramesDrop.append (drop : FramesDrop content frames plain) (node : Node) :
    Lags content (append ⟨tag, frames, root⟩ node) (append ⟨tag, plain, root⟩ node) := by
  cases drop with
  | here parts => exact .opened (@FramesDrop.here content _ _ _ (node :: _) _ _ _ (parts.cons node))
  | child newer older drops => exact .opened (.child (node :: newer) older drops)
  | under drop => exact .opened (.under drop)

theorem FramesDrop.appendText (drop : FramesDrop content frames plain) (text : String) :
    Lags content (appendText ⟨tag, frames, root⟩ text) (appendText ⟨tag, plain, root⟩ text) := by
  cases drop with
  | here parts =>
    rw [appendText_eq, appendText_eq]
    refine .opened ?_
    rw [addText_append text _ _ rfl]
    exact .here (addText_parts parts text)
  | child newer older drops =>
    have others := drops.notText
    rw [appendText_eq, appendText_eq]
    refine .opened ?_
    rw [addText_append text newer older others.1, addText_append text newer older others.2]
    exact .child _ older drops
  | under drop =>
    rw [appendText_eq, appendText_eq]
    exact .opened (.under drop)

/-- The element that has the comment in it goes below the element around it, or is the root. -/
theorem lags_of_drops {site : Site} {node whole : Node} (outer : List Frame)
    (drops : Drops content site node whole) :
    Lags content (append ⟨tag, outer, root⟩ node) (append ⟨tag, outer, root⟩ whole) := by
  cases outer with
  | nil =>
    cases drops with
    | here parts => exact .closed (.here parts)
    | inside first second drops => exact .closed (.inside first second drops)
  | cons frame outer => exact .opened (.child [] frame.children drops)

theorem FramesDrop.closeFrame {name : QualifiedName} {position : Position}
    {after after' : Builder} (drop : FramesDrop content frames plain)
    (added : closeFrame ⟨tag, frames, root⟩ name position = .ok after)
    (added' : closeFrame ⟨tag, plain, root⟩ name position = .ok after') :
    Lags content after after' := by
  cases drop with
  | @here named attributes scope newer older whole outer parts =>
    obtain rfl := append_of_closeFrame added
    obtain rfl := append_of_closeFrame added'
    have drops : Drops content ⟨String.ofList named.localName, attributes, older.reverse,
        newer.reverse⟩ _ _ := .here parts.reverse
    have closed : (newer ++ .comment content :: older).reverse =
        older.reverse ++ .comment content :: newer.reverse := by simp
    rw [Frame.close, Frame.close, closed]
    exact lags_of_drops outer drops
  | @child named attributes scope outer site node whole newer older drops =>
    obtain rfl := append_of_closeFrame added
    obtain rfl := append_of_closeFrame added'
    have reversed (child : Node) : (newer ++ child :: older).reverse =
        older.reverse ++ child :: newer.reverse := by simp
    rw [Frame.close, Frame.close, reversed, reversed]
    exact lags_of_drops outer (.inside _ _ drops)
  | under drop =>
    obtain rfl := append_of_closeFrame added
    obtain rfl := append_of_closeFrame added'
    exact drop.append _

theorem FramesDrop.finishTag {start : Tag} {selfClosing : Bool} {after after' : Builder}
    (drop : FramesDrop content frames plain)
    (added : finishTag ⟨tag, frames, root⟩ start selfClosing = .ok after)
    (added' : finishTag ⟨tag, plain, root⟩ start selfClosing = .ok after') :
    Lags content after after' := by
  unfold Builder.finishTag at added added'
  rw [drop.outerScope] at added
  obtain ⟨attributes, resolved, added⟩ := exists_ok_of_bind added
  obtain ⟨space, meant, added⟩ := exists_ok_of_bind added
  simp only [resolved, meant, bind, Except.bind] at added'
  cases selfClosing with
  | true =>
    cases added
    cases added'
    exact drop.append _
  | false =>
    cases added
    cases added'
    exact .opened (.under drop)

/-- One token keeps the two apart at the comment alone. -/
theorem FramesDrop.add {token : Token} {after after' : Builder}
    (drop : FramesDrop content frames plain)
    (added : add ⟨tag, frames, root⟩ token = .ok after)
    (added' : add ⟨tag, plain, root⟩ token = .ok after') : Lags content after after' := by
  cases token with
  | tagStart name position =>
    simp only [Builder.add] at added added'
    split at added
    next => cases added
    next accepted =>
      rw [if_neg accepted] at added'
      cases added
      cases added'
      exact .opened drop
  | «attribute» name value position =>
    cases tag with
    | none =>
      cases added
      cases added'
      exact .opened drop
    | some tag =>
      obtain ⟨changed, changes, same⟩ := exists_ok_of_map added
      obtain ⟨changed', changes', same'⟩ := exists_ok_of_map added'
      rw [changes] at changes'
      cases changes'
      cases same
      cases same'
      exact .opened drop
  | tagEnd selfClosing =>
    cases tag with
    | none =>
      cases added
      cases added'
      exact .opened drop
    | some tag => exact drop.finishTag added added'
  | closeTag name position => exact drop.closeFrame added added'
  | text raw =>
    obtain ⟨expanded, read, same⟩ := exists_ok_of_map added
    obtain ⟨expanded', read', same'⟩ := exists_ok_of_map added'
    rw [read] at read'
    cases read'
    cases same
    cases same'
    exact drop.appendText _
  | characterData raw =>
    cases added
    cases added'
    exact drop.appendText _
  | comment raw =>
    cases added
    cases added'
    exact drop.append _
  | instruction target raw =>
    cases added
    cases added'
    exact drop.append _

/-- Behind the root there are comments and instructions only, and the tree does not have them. -/
theorem add_outside {place next : Place} {run : List Char} {token : Token} {root : Node}
    {after : Builder} (writes : Writes place run token next)
    (fits : Fits ⟨tag, [], some root⟩ place) (added : add ⟨tag, [], some root⟩ token = .ok after) :
    after = ⟨tag, [], some root⟩ := by
  cases place with
  | prolog => cases fits.2.2
  | tag => cases fits.2.2
  | content => cases fits.2.2.2
  | epilog =>
    cases writes with
    | comment | instruction =>
      cases added
      rfl
    | tagStart admits => cases admits

theorem Lags.add {builder builder' after after' : Builder} {place next : Place} {run : List Char}
    {token : Token} (lags : Lags content builder builder') (writes : Writes place run token next)
    (fits : builder.Fits place) (fits' : builder'.Fits place)
    (added : builder.add token = .ok after) (added' : builder'.add token = .ok after') :
    Lags content after after' := by
  cases lags with
  | opened drop => exact drop.add added added'
  | closed drops =>
    rw [add_outside writes fits added, add_outside writes fits' added']
    exact .closed drops

theorem Lags.spells {builder builder' final final' : Builder} {place : Place} {text : List Char}
    {tokens : List Token} (lags : Lags content builder builder')
    (spells : Spells place text tokens) (fits : builder.Fits place) (fits' : builder'.Fits place)
    (built : tokens.foldlM Builder.add builder = .ok final)
    (built' : tokens.foldlM Builder.add builder' = .ok final') : Lags content final final' := by
  induction spells generalizing builder builder' with
  | finish ends =>
    cases built
    cases built'
    exact lags
  | step writes stops later ih =>
    rw [List.foldlM_cons] at built built'
    obtain ⟨after, added, built⟩ := exists_ok_of_bind built
    obtain ⟨after', added', built'⟩ := exists_ok_of_bind built'
    have reads := reads_of_writes writes stops
    exact ih (lags.add writes fits fits' added added') (add_fits reads fits added).1
      (add_fits reads fits' added').1 built built'

theorem fits_of_spellsTo {builder after : Builder} {final text : List Char} {place last : Place}
    {tokens : List Token} (chain : SpellsTo final place text tokens last)
    (fits : builder.Fits place) (built : tokens.foldlM Builder.add builder = .ok after) :
    after.Fits last := by
  induction chain generalizing builder with
  | refl =>
    cases built
    exact fits
  | step writes stops later ih =>
    rw [List.foldlM_cons] at built
    obtain ⟨middle, added, built⟩ := exists_ok_of_bind built
    exact ih (add_fits (reads_of_writes writes stops) fits added).1 built

theorem Lags.finish {builder builder' : Builder} {root whole : Node}
    (lags : Lags content builder builder') (finished : builder.finish = .ok root)
    (finished' : builder'.finish = .ok whole) : ∃ site, Drops content site root whole := by
  cases lags with
  | opened drop => cases drop <;> cases finished
  | @closed _ site _ _ drops =>
    cases finished
    cases finished'
    exact ⟨site, drops⟩

/-! ## The comment itself -/

theorem lags_comment {builder : Builder} {depth : Nat} (fits : builder.Fits (.content depth)) :
    Lags content (builder.append (.comment content)) builder := by
  obtain ⟨tag, frames, root⟩ := builder
  cases frames with
  | nil => exact absurd fits.2.1 (Nat.ne_of_lt fits.2.2.1)
  | cons frame outer => exact .opened (.here (.apart [] frame.children))

/-- A text before the comment and a text behind it are one text without it. -/
theorem lags_texts {builder : Builder} {depth : Nat} (fits : builder.Fits (.content depth))
    (one other whole : String) :
    Lags content (((builder.appendText one).append (.comment content)).appendText other)
      (builder.appendText whole) := by
  obtain ⟨tag, frames, root⟩ := builder
  cases frames with
  | nil => exact absurd fits.2.1 (Nat.ne_of_lt fits.2.2.1)
  | cons frame outer =>
    have joined (older : List Node) (one whole : String) :
        Parts [.text other] (.text one :: older) (.text whole :: older) :=
      .joined [] older other one whole
    have parts : ∃ newer, addText one frame.children = newer ∧
        Parts [.text other] newer (addText whole frame.children) := by
      cases frame.children with
      | nil => exact ⟨_, rfl, joined [] one whole⟩
      | cons node older =>
        cases node with
        | text earlier => exact ⟨_, rfl, joined older (earlier ++ one) (earlier ++ whole)⟩
        | element | comment | instruction => exact ⟨_, rfl, joined (_ :: older) one whole⟩
    obtain ⟨newer, same, parts⟩ := parts
    rw [appendText_eq, appendText_eq, same]
    exact .opened (.here parts)

theorem Lags.of_uncommented {content : List Char} {tokens plain : List Token}
    {final final' : Builder} (uncommented : Uncommented content tokens plain)
    (built : tokens.foldlM Builder.add .start = .ok final)
    (built' : plain.foldlM Builder.add .start = .ok final') :
    Lags (String.ofList content) final final' := by
  have starts : Builder.start.Fits .prolog := ⟨rfl, rfl, rfl⟩
  cases uncommented with
  | apart opened closed =>
    rw [List.foldlM_append] at built built'
    obtain ⟨middle, first, built⟩ := exists_ok_of_bind built
    obtain ⟨middle', first', built'⟩ := exists_ok_of_bind built'
    rw [first] at first'
    cases first'
    have fits := fits_of_spellsTo opened starts first
    have leaf := append_leaf rfl fits (.comment (String.ofList content)) rfl
    exact (lags_comment fits).spells closed leaf.1 fits built built'
  | joined opened closed =>
    rw [List.foldlM_append] at built built'
    obtain ⟨middle, first, built⟩ := exists_ok_of_bind built
    obtain ⟨middle', first', built'⟩ := exists_ok_of_bind built'
    rw [first] at first'
    cases first'
    have fits := fits_of_spellsTo opened starts first
    rw [List.foldlM_cons] at built built'
    obtain ⟨behindOne, added, built⟩ := exists_ok_of_bind built
    obtain ⟨one, -, same⟩ := exists_ok_of_map added
    cases same
    rw [List.foldlM_cons] at built
    obtain ⟨behindComment, added, built⟩ := exists_ok_of_bind built
    cases added
    rw [List.foldlM_cons] at built
    obtain ⟨behindOther, added, built⟩ := exists_ok_of_bind built
    obtain ⟨other, -, same⟩ := exists_ok_of_map added
    cases same
    obtain ⟨behindWhole, added, built'⟩ := exists_ok_of_bind built'
    obtain ⟨whole, -, same⟩ := exists_ok_of_map added
    cases same
    have fitsOne := (appendText_fits fits (String.ofList one)).1
    have fitsComment := (append_leaf rfl fitsOne (.comment (String.ofList content)) rfl).1
    have fitsOther := (appendText_fits fitsComment (String.ofList other)).1
    have fitsWhole := (appendText_fits fits (String.ofList whole)).1
    exact (lags_texts fits _ _ _).spells closed fitsOther fitsWhole built built'

end Builder

/-- The tree of a document that holds a comment is the tree of the document without it, with the
comment at a site. -/
theorem drops_of_read {document before content after : List Char} {root plain : Node}
    (holds : HoldsComment document before content after)
    (accepted : Node.read document = .ok root)
    (accepted' : Node.read (before ++ after) = .ok plain) :
    ∃ site, Drops (String.ofList content) site root plain := by
  obtain ⟨clean, final, built, finished⟩ := built_of_read accepted
  obtain ⟨clean', final', built', finished'⟩ := built_of_read accepted'
  have uncommented := uncommented_of_lex holds clean clean'
  exact (Builder.Lags.of_uncommented uncommented built built').finish finished finished'

/-! ## The scan for deep nesting -/

theorem deepest_unplaced (depth : Nat) (tokens : List Token) :
    deepest depth (tokens.map Token.unplaced) = deepest depth tokens := by
  induction tokens generalizing depth with
  | nil => rfl
  | cons token later ih =>
    have same : token.unplaced.depthAfter depth = token.depthAfter depth := by
      cases token with
      | tagEnd selfClosing => cases selfClosing <;> rfl
      | _ => rfl
    rw [List.map_cons, deepest, deepest, same, ih]

/-- A token that opens and closes nothing. -/
theorem deepest_level {depth : Nat} {token : Token} (level : token.depthAfter depth = depth)
    (later : List Token) : deepest depth (token :: later) = deepest depth later := by
  rw [deepest, level, Nat.max_eq_right (le_deepest depth later)]

theorem deepest_congr {first second : List Token}
    (same : ∀ depth, deepest depth first = deepest depth second) (earlier : List Token)
    (depth : Nat) : deepest depth (earlier ++ first) = deepest depth (earlier ++ second) := by
  induction earlier generalizing depth with
  | nil => exact same depth
  | cons token earlier ih => rw [List.cons_append, List.cons_append, deepest, deepest, ih]

theorem deepest_uncommented {content : List Char} {tokens plain : List Token}
    (uncommented : Uncommented content tokens plain) (depth : Nat) :
    deepest depth tokens = deepest depth plain := by
  cases uncommented with
  | apart => exact deepest_congr (fun depth => deepest_level rfl _) _ depth
  | joined =>
    refine deepest_congr (fun depth => ?_) _ depth
    rw [deepest_level rfl, deepest_level rfl, deepest_level rfl, deepest_level rfl]

theorem isPassedOver_unplaced (token : Token) :
    token.unplaced.isPassedOver = token.isPassedOver := by
  cases token <;> rfl

theorem passed_of_uncommented {content : List Char} {tokens plain : List Token}
    (uncommented : Uncommented content tokens plain)
    (passed : ∀ token ∈ tokens, token.isPassedOver = true) :
    ∀ token ∈ plain, token.isPassedOver = true := by
  intro token mem
  cases uncommented with
  | apart =>
    refine passed token (List.mem_append.mpr ?_)
    exact (List.mem_append.mp mem).imp_right (List.mem_cons_of_mem _)
  | joined =>
    rcases List.mem_append.mp mem with before | here
    · exact passed token (List.mem_append_left _ before)
    · rcases List.mem_cons.mp here with rfl | later
      · rfl
      · refine passed token (List.mem_append_right _ ?_)
        exact List.mem_cons_of_mem _ (List.mem_cons_of_mem _ (List.mem_cons_of_mem _ later))

/-- Without a comment the scan finds the same, if no comment is read as markup. -/
theorem nestsDeeperThan_uncommented {document before content after : List Char}
    (holds : HoldsComment document before content after) (accepted : (lex document).fault = none)
    (accepted' : (lex (before ++ after)).fault = none)
    (passed : ∀ token ∈ (lex document).tokens, token.isPassedOver = true) (limit : Nat) :
    nestsDeeperThan limit document = nestsDeeperThan limit (before ++ after) := by
  have uncommented := uncommented_of_lex holds accepted accepted'
  have unplaced {tokens : List Token} : (∀ token ∈ tokens.map Token.unplaced,
      token.isPassedOver = true) ↔ ∀ token ∈ tokens, token.isPassedOver = true := by
    simp only [List.forall_mem_map, isPassedOver_unplaced]
  have passed' := unplaced.mp (passed_of_uncommented uncommented (unplaced.mpr passed))
  have same := deepest_uncommented uncommented 0
  rw [deepest_unplaced, deepest_unplaced] at same
  rw [nestsDeeperThan_tokens accepted passed, nestsDeeperThan_tokens accepted' passed', same]

end Formwright.Markup
