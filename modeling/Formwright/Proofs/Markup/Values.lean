import Formwright.Proofs.Markup.Characters
import Formwright.Proofs.Markup.Removal

/-!
Another value for an attribute of a document. Whether the document is read does not depend on it,
as long as the value can be expanded and declares no namespace, and the tree is the same up to the
values of attributes.
-/

namespace Formwright.Markup

def Attribute.bare (item : Attribute) : Attribute := { item with value := "" }

mutual

def Node.bare : Node → Node
  | .element name attributes selfClosing children =>
    .element name (attributes.map Attribute.bare) selfClosing (Node.bareAll children)
  | node => node

def Node.bareAll : List Node → List Node
  | [] => []
  | node :: later => node.bare :: Node.bareAll later

end

theorem Node.bareAll_eq_map (nodes : List Node) : Node.bareAll nodes = nodes.map Node.bare := by
  induction nodes with
  | nil => rfl
  | cons node later ih => rw [Node.bareAll, ih, List.map_cons]

def PlainAttribute.bare (item : PlainAttribute) : PlainAttribute := { item with value := "" }

def Tag.bare (tag : Tag) : Tag := { tag with attributes := tag.attributes.map PlainAttribute.bare }

def Frame.bare (frame : Frame) : Frame :=
  { frame with
    attributes := frame.attributes.map Attribute.bare
    children := frame.children.map Node.bare }

namespace Builder

def bare (builder : Builder) : Builder :=
  ⟨builder.tag.map Tag.bare, builder.open_.map Frame.bare, builder.root.map Node.bare⟩

theorem declare_bare (tag : Tag) (qualifier meaning : String) (position : Position) :
    (declare tag qualifier meaning position).map Tag.bare =
      declare tag.bare qualifier meaning position := by
  have same : tag.bare.declared = tag.declared := rfl
  unfold declare
  rw [same]
  split_ifs <;> rfl

theorem declareDefault_bare (tag : Tag) (meaning : String) (position : Position) :
    (declareDefault tag meaning position).map Tag.bare =
      declareDefault tag.bare meaning position := by
  unfold declareDefault
  split_ifs <;> rfl

theorem bare_addValue {tag other : Tag} (alike : tag.bare = other.bare) (name : QualifiedName)
    (value value' : String) (position : Position) :
    Tag.bare { tag with attributes := ⟨name, value, position⟩ :: tag.attributes } =
      Tag.bare { other with attributes := ⟨name, value', position⟩ :: other.attributes } :=
  congrArg (fun tag : Tag => { tag with attributes := ⟨name, "", position⟩ :: tag.attributes })
    alike

theorem addAttribute_alike {tag other : Tag} (alike : tag.bare = other.bare) (name : QualifiedName)
    (value : Cursor) (position : Position) :
    (addAttribute tag name value position).map Tag.bare =
      (addAttribute other name value position).map Tag.bare := by
  unfold addAttribute
  cases expandAttribute value with
  | error => rfl
  | ok text =>
    dsimp only [bind, Except.bind]
    split_ifs
    · rw [declare_bare, declare_bare, alike]
    · rw [declareDefault_bare, declareDefault_bare, alike]
    · exact congrArg Except.ok (bare_addValue alike ..)

/-- An attribute of this name declares no namespace: its value is only kept. -/
structure KeepsValue (name : QualifiedName) : Prop where
  qualifier : name.qualifier ≠ "xmlns".toList
  localName : name.localName ≠ "xmlns".toList

theorem addAttribute_kept {name : QualifiedName} (keeps : KeepsValue name) {value value' : Cursor}
    {text text' : List Char} (expanded : expandAttribute value = .ok text)
    (expanded' : expandAttribute value' = .ok text') (tag : Tag) (position : Position) :
    (addAttribute tag name value position).map Tag.bare =
      (addAttribute tag name value' position).map Tag.bare := by
  unfold addAttribute
  rw [expanded, expanded']
  dsimp only [bind, Except.bind]
  rw [if_neg keeps.qualifier, if_neg keeps.localName, if_neg keeps.qualifier,
    if_neg keeps.localName]
  exact congrArg Except.ok (bare_addValue rfl ..)

theorem attributeSpace_bare (scope : Scope) (item : PlainAttribute) :
    attributeSpace scope item.bare = attributeSpace scope item := rfl

theorem resolveAttributes_bare (scope : Scope) (done : List Attribute)
    (items : List PlainAttribute) :
    (resolveAttributes scope done items).map (·.map Attribute.bare) =
      resolveAttributes scope (done.map Attribute.bare) (items.map PlainAttribute.bare) := by
  induction items generalizing done with
  | nil => rfl
  | cons item later ih =>
    rw [List.map_cons, resolveAttributes, resolveAttributes, attributeSpace_bare]
    cases attributeSpace scope item with
    | error => rfl
    | ok space =>
      dsimp only [bind, Except.bind]
      rw [List.any_map]
      split
      next repeated =>
        rw [if_pos]
        · rfl
        · exact repeated
      next =>
        rw [if_neg]
        · rw [ih, List.map_append]
          rfl
        · assumption

theorem bare_append (builder : Builder) (node : Node) :
    (builder.append node).bare = builder.bare.append node.bare := by
  obtain ⟨tag, frames, root⟩ := builder
  cases frames with
  | nil => cases node <;> rfl
  | cons => rfl

theorem bare_appendText (builder : Builder) (content : String) :
    (builder.appendText content).bare = builder.bare.appendText content := by
  obtain ⟨tag, frames, root⟩ := builder
  cases frames with
  | nil => rfl
  | cons frame outer =>
    obtain ⟨name, attributes, scope, children⟩ := frame
    cases children with
    | nil => rfl
    | cons child older => cases child <;> rfl

theorem bare_close (frame : Frame) (selfClosing : Bool) :
    (Frame.close frame selfClosing).bare = Frame.close frame.bare selfClosing := by
  rw [Frame.close, Node.bare, Node.bareAll_eq_map, List.map_reverse]
  rfl

theorem outerScope_bare (builder : Builder) : builder.bare.outerScope = builder.outerScope := by
  obtain ⟨tag, frames, root⟩ := builder
  cases frames <;> rfl

theorem finishTag_bare (builder : Builder) (tag : Tag) (selfClosing : Bool) :
    (builder.finishTag tag selfClosing).map bare = builder.bare.finishTag tag.bare selfClosing := by
  have items : tag.bare.attributes.reverse = tag.attributes.reverse.map PlainAttribute.bare :=
    List.map_reverse.symm
  have resolved := resolveAttributes_bare (tag.declared ++ builder.outerScope) []
    tag.attributes.reverse
  unfold finishTag
  rw [items, outerScope_bare]
  dsimp only [Tag.bare] at resolved ⊢
  rw [List.map_nil] at resolved
  rw [← resolved]
  cases resolveAttributes (tag.declared ++ builder.outerScope) [] tag.attributes.reverse with
  | error => rfl
  | ok attributes =>
    dsimp only [bind, Except.bind, Except.map]
    cases meaningOf (tag.declared ++ builder.outerScope) tag.name.qualifier tag.position with
    | error => rfl
    | ok space =>
      cases selfClosing with
      | true => exact congrArg Except.ok ((bare_append ..).trans (congrArg _ (bare_close ..)))
      | false => rfl

theorem closeFrame_bare (builder : Builder) (name : QualifiedName) (position : Position) :
    (builder.closeFrame name position).map bare = builder.bare.closeFrame name position := by
  obtain ⟨tag, frames, root⟩ := builder
  cases frames with
  | nil => rfl
  | cons frame outer =>
    change Except.map bare (if frame.name = name then _ else _) = if frame.name = name then _ else _
    split_ifs
    · exact congrArg Except.ok ((bare_append ..).trans (congrArg _ (bare_close ..)))
    · rfl

theorem addTag_bare (builder : Builder) (added : Except Fault Tag) :
    (added.map fun tag => { builder with tag := some tag }).map bare =
      (added.map Tag.bare).map fun tag => { builder.bare with tag := some tag } := by
  cases added <;> rfl

/-- What a token does to a builder is the same up to the values of attributes. -/
theorem add_alike {builder other : Builder} (alike : builder.bare = other.bare) (token : Token) :
    (builder.add token).map bare = (other.add token).map bare := by
  have tags : builder.tag.map Tag.bare = other.tag.map Tag.bare := congrArg Builder.tag alike
  cases token with
  | tagStart name position =>
    dsimp only [add]
    split_ifs
    · rfl
    · exact congrArg (fun builder : Builder =>
        Except.ok { builder with tag := some ⟨name, position, [], []⟩ }) alike
  | «attribute» name value position =>
    dsimp only [add]
    cases one : builder.tag with
    | none =>
      rw [one] at tags
      rw [Option.map_eq_none_iff.mp tags.symm]
      exact congrArg Except.ok alike
    | some tag =>
      rw [one] at tags
      obtain ⟨tag', two, same⟩ := Option.map_eq_some_iff.mp tags.symm
      rw [two]
      dsimp only
      rw [addTag_bare, addTag_bare, addAttribute_alike same.symm, alike]
  | tagEnd selfClosing =>
    dsimp only [add]
    cases one : builder.tag with
    | none =>
      rw [one] at tags
      rw [Option.map_eq_none_iff.mp tags.symm]
      exact congrArg Except.ok alike
    | some tag =>
      rw [one] at tags
      obtain ⟨tag', two, same⟩ := Option.map_eq_some_iff.mp tags.symm
      rw [two]
      dsimp only
      rw [finishTag_bare, finishTag_bare, alike, same]
  | closeTag name position =>
    dsimp only [add]
    rw [closeFrame_bare, closeFrame_bare, alike]
  | text content =>
    dsimp only [add]
    cases expandText content with
    | error => rfl
    | ok text =>
      dsimp only [Except.map]
      rw [bare_appendText, bare_appendText, alike]
  | characterData content =>
    dsimp only [add, Except.map]
    rw [bare_appendText, bare_appendText, alike]
  | comment content | instruction target content =>
    dsimp only [add, Except.map]
    rw [bare_append, bare_append, alike]

theorem ok_of_alike {first second : Except Fault Builder} (same : first.map bare = second.map bare)
    {builder : Builder} (done : first = .ok builder) :
    ∃ other, second = .ok other ∧ other.bare = builder.bare := by
  subst done
  cases second with
  | error fault => cases same
  | ok other => exact ⟨other, rfl, (Except.ok.inj same).symm⟩

theorem foldlM_alike {builder other final : Builder} (alike : other.bare = builder.bare)
    {tokens : List Token} (built : tokens.foldlM add builder = .ok final) :
    ∃ final', tokens.foldlM add other = .ok final' ∧ final'.bare = final.bare := by
  induction tokens generalizing builder other with
  | nil =>
    cases built
    exact ⟨other, rfl, alike⟩
  | cons token later ih =>
    rw [List.foldlM_cons] at built ⊢
    obtain ⟨after, added, built⟩ := exists_ok_of_bind built
    obtain ⟨after', added', alike⟩ := ok_of_alike (add_alike alike.symm token) added
    rw [added']
    exact ih alike built

theorem add_kept {name : QualifiedName} (keeps : KeepsValue name) {value value' : Cursor}
    {position : Position} {text : List Char} (expanded : expandAttribute value' = .ok text)
    {builder after : Builder} (added : builder.add (.attribute name value position) = .ok after) :
    ∃ after', builder.add (.attribute name value' position) = .ok after' ∧
      after'.bare = after.bare := by
  refine ok_of_alike ?_ added
  dsimp only [add] at added ⊢
  cases opened : builder.tag with
  | none => rfl
  | some tag =>
    rw [opened] at added
    obtain ⟨tag', done, -⟩ := exists_ok_of_map added
    obtain ⟨known, expanded', -⟩ := exists_ok_of_bind done
    dsimp only
    rw [addTag_bare, addTag_bare, addAttribute_kept keeps expanded' expanded]

theorem finish_bare (builder : Builder) : builder.bare.finish = builder.finish.map Node.bare := by
  obtain ⟨tag, frames, root⟩ := builder
  cases frames with
  | nil => cases root <;> rfl
  | cons => rfl

end Builder

def takeTokens : Nat → Place → Cursor → Option (List Token × Place × Cursor)
  | 0, place, cursor => some ([], place, cursor)
  | count + 1, place, cursor =>
    match Step.ofPlace place cursor with
    | .ok (.next token next after) =>
      (takeTokens count next after).map fun (tokens, left) => (token :: tokens, left)
    | _ => none

theorem spellsTo_of_takeTokens {count : Nat} {place next : Place} {cursor after : Cursor}
    {tokens : List Token} (taken : takeTokens count place cursor = some (tokens, next, after)) :
    ∃ run, cursor.rest = run ++ after.rest ∧
      SpellsTo after.rest place run (tokens.map Token.unplaced) next := by
  induction count generalizing place cursor tokens with
  | zero =>
    cases taken
    exact ⟨[], rfl, .refl⟩
  | succ count ih =>
    rw [takeTokens] at taken
    split at taken
    next token middle behind found =>
      obtain ⟨⟨later, left⟩, taken, same⟩ := Option.map_eq_some_iff.mp taken
      cases same
      obtain ⟨run, rest, chain⟩ := ih taken
      obtain ⟨written, split, writes, stops⟩ := Step.takes_of_next found
      rw [rest] at split stops
      refine ⟨written ++ run, by rw [split, List.append_assoc], ?_⟩
      exact .step writes (Token.stops_unplaced.mpr stops) chain
    next => cases taken

/-- A declaration is passed over in front of every text. -/
theorem begins_behind {declaration : List Char}
    (starts : (Cursor.ofDocument declaration).startsWith "<?xml " = true)
    (found : (skipDeclaration (.ofDocument declaration)).toOption.map Cursor.rest = some [])
    (text : List Char) : ∃ start, Begins (declaration ++ text) start ∧ start.rest = text := by
  obtain ⟨after, done, ended⟩ := Option.map_eq_some_iff.mp found
  obtain ⟨run, split, again⟩ := skipDeclaration_again starts (toOption_eq_some.mp done)
  rw [ended, List.append_nil] at split
  obtain rfl : declaration = run := split
  have unmarked : skipMark (.ofDocument (declaration ++ text)) =
      .ofDocument (declaration ++ text) := by
    obtain ⟨later, rfl⟩ := List.isPrefixOf_iff_prefix.mp starts
    rfl
  obtain ⟨declared, start, done, here⟩ := @again (.ofDocument (declaration ++ text)) text rfl
  refine ⟨start, ?_, here⟩
  unfold Begins
  rw [unmarked, if_pos declared, done]

structure ValueText (value : List Char) : Prop where
  legal : Legal value
  unquoted : '"' ∉ value
  plain : '<' ∉ value

def assignment (named value : List Char) : List Char := named ++ '=' :: '"' :: (value ++ ['"'])

theorem ValueText.written {name : QualifiedName} {named value : List Char}
    (text : ValueText value) (isName : NameText name named) :
    AttributeText name value (assignment named value) :=
  ⟨⟨named, [], [], '"', rfl, isName, nofun, nofun, .inl rfl, text.unquoted⟩, text.legal, text.plain⟩

structure HoldsAttribute (document before spaces named value after : List Char)
    (name : QualifiedName) : Prop where
  whole : document = before ++ (spaces ++ (assignment named value ++ after))
  reached : ∃ start run count tokens depth cursor, Begins document start ∧
    start.rest = run ++ (spaces ++ (assignment named value ++ after)) ∧ '>' ∈ run ∧
    takeTokens count .prolog (.ofDocument (run ++ spaces)) = some (tokens, .tag depth, cursor) ∧
    cursor.rest = spaces
  filled : spaces ≠ []
  spaced : ∀ c ∈ spaces, isSpace c = true
  isName : NameText name named

/-- The tokens of a document are those of the document with another value, but for that value. -/
theorem lex_with_value {document before spaces named value value' after : List Char}
    {name : QualifiedName}
    (holds : HoldsAttribute document before spaces named value after name)
    (accepted : (lex document).fault = none) (text : ValueText value) (text' : ValueText value') :
    ∃ earlier later, (lex document).tokens.map Token.unplaced =
        earlier ++ .attribute name (.ofDocument value) .start :: later ∧
      (lex (before ++ (spaces ++ (assignment named value' ++ after)))).fault = none ∧
      (lex (before ++ (spaces ++ (assignment named value' ++ after)))).tokens.map Token.unplaced =
        earlier ++ .attribute name (.ofDocument value') .start :: later := by
  obtain ⟨whole, ⟨start, run, count, tokens, depth, cursor, begins, split, closed, taken, left⟩,
    filled, spaced, isName⟩ := holds
  obtain ⟨run', split', chain⟩ := spellsTo_of_takeTokens taken
  rw [left] at split' chain
  obtain rfl : run = run' := List.append_cancel_right split'
  obtain ⟨lead, document_eq, again⟩ := begins_again begins split closed
  obtain rfl : before = lead ++ run := by
    rw [document_eq, ← List.append_assoc] at whole
    exact (List.append_cancel_right whole).symm
  -- The tokens before the attribute stand before the spaces, whatever follows these.
  have opened (rest : List Char) : SpellsTo (spaces ++ rest) .prolog run
      (tokens.map Token.unplaced) (.tag depth) := by
    refine chain.before_of_head ?_
    cases spaces with
    | nil => exact absurd rfl filled
    | cons => rfl
  have writes {value : List Char} (text : ValueText value) :
      Writes (.tag depth) (spaces ++ assignment named value)
        (.attribute name (.ofDocument value) .start) (.tag depth) :=
    .tagAttribute filled spaced (text.written isName)
  have spells := spells_of_begins begins accepted
  rw [split] at spells
  obtain ⟨others, all, spells⟩ := (opened _).behind spells
  rw [← List.append_assoc] at spells
  obtain ⟨later, rfl, behind⟩ := spells.behind (writes text) trivial
  obtain ⟨start', begins', here⟩ := again (spaces ++ (assignment named value' ++ after))
  have spells' : Spells .prolog start'.rest (tokens.map Token.unplaced ++
      .attribute name (.ofDocument value') .start :: later) := by
    rw [here]
    refine (opened _).spells ?_
    rw [← List.append_assoc]
    exact .step (writes text') trivial behind
  rw [← List.append_assoc] at begins'
  have enough : start'.rest.length <
      (lead ++ run ++ (spaces ++ (assignment named value' ++ after))).length + 1 := by
    rw [here]
    simp only [List.length_append]
    omega
  obtain ⟨placed, lexed, same⟩ := spells'.lexFrom enough rfl
  refine ⟨tokens.map Token.unplaced, later, all, ?_⟩
  rw [lex_of_begins begins', lexed]
  exact ⟨rfl, same⟩

/-- A document is read also with another value for one of its attributes, and the tree is the same
but for values. -/
theorem read_with_value {document before spaces named value value' after text : List Char}
    {name : QualifiedName} {root : Node}
    (holds : HoldsAttribute document before spaces named value after name)
    (accepted : Node.read document = .ok root) (isValue : ValueText value)
    (isValue' : ValueText value') (keeps : Builder.KeepsValue name)
    (expanded : expandAttribute (.ofDocument value') = .ok text) :
    ∃ root', Node.read (before ++ (spaces ++ (assignment named value' ++ after))) = .ok root' ∧
      root'.bare = root.bare := by
  obtain ⟨clean, final, built, finished⟩ := built_of_read accepted
  obtain ⟨earlier, later, tokens, clean', tokens'⟩ := lex_with_value holds clean isValue isValue'
  rw [tokens, List.foldlM_append] at built
  obtain ⟨opened, before, built⟩ := exists_ok_of_bind built
  rw [List.foldlM_cons] at built
  obtain ⟨after, added, built⟩ := exists_ok_of_bind built
  obtain ⟨after', added', alike⟩ := Builder.add_kept keeps expanded added
  obtain ⟨final', built', alike⟩ := Builder.foldlM_alike alike built
  have same := Builder.finish_bare final'
  rw [alike, Builder.finish_bare, finished] at same
  obtain ⟨root', finished', bare⟩ := exists_ok_of_map same.symm
  refine ⟨root', read_iff_built.mpr ⟨clean', final', ?_, finished'⟩, bare⟩
  rw [tokens', List.foldlM_append, before]
  dsimp only [bind, Except.bind]
  rw [List.foldlM_cons, added']
  exact built'

/-- The scan for deep nesting does not look at the value, if it takes no comment for markup. -/
theorem nestsDeeperThan_with_value {document before spaces named value value' after : List Char}
    {name : QualifiedName}
    (holds : HoldsAttribute document before spaces named value after name)
    (accepted : (lex document).fault = none) (isValue : ValueText value)
    (isValue' : ValueText value')
    (passed : ∀ token ∈ (lex document).tokens, token.isPassedOver = true) (limit : Nat) :
    nestsDeeperThan limit (before ++ (spaces ++ (assignment named value' ++ after))) =
      nestsDeeperThan limit document := by
  obtain ⟨earlier, later, tokens, clean', tokens'⟩ := lex_with_value holds accepted isValue isValue'
  have unplaced {tokens : List Token} : (∀ token ∈ tokens.map Token.unplaced,
      token.isPassedOver = true) ↔ ∀ token ∈ tokens, token.isPassedOver = true := by
    simp only [List.forall_mem_map, isPassedOver_unplaced]
  have passed' : ∀ token ∈ earlier ++ .attribute name (.ofDocument value') .start :: later,
      token.isPassedOver = true := by
    have known := unplaced.mpr passed
    rw [tokens] at known
    simp only [List.forall_mem_append, List.forall_mem_cons] at known ⊢
    exact ⟨known.1, rfl, known.2.2⟩
  have same : deepest 0 (lex document).tokens =
      deepest 0 (lex (before ++ (spaces ++ (assignment named value' ++ after)))).tokens := by
    rw [← deepest_unplaced 0 (lex document).tokens, ← deepest_unplaced 0 (lex _).tokens, tokens,
      tokens']
    exact deepest_congr (fun depth => (deepest_level rfl later).trans
      (deepest_level rfl later).symm) earlier 0
  rw [← tokens', unplaced] at passed'
  rw [nestsDeeperThan_tokens accepted passed, nestsDeeperThan_tokens clean' passed', same]

end Formwright.Markup
