import Formwright.Proofs.Markup.Depth
import Formwright.Proofs.Markup.Spelling
import Mathlib.Tactic.SplitIfs

/-!
The tree of a document does not depend on where its tokens stand: positions only tell faults. What is
read, if anything, is compared as an option, without the fault.
-/

namespace Formwright.Markup

theorem expand_anywhere (normaliser : Normaliser) (done : List Char) (afterReference : Bool)
    (position other : Position) (text : List Char) :
    (expand normaliser done afterReference position text).toOption =
      (expand normaliser done afterReference other text).toOption := by
  induction done, afterReference, position, text using expand.induct normaliser generalizing other with
  | case1 done afterReference position => rw [expand, expand]
  | case2 done afterReference position rest referenced length read ih =>
    rw [expand, expand, if_pos rfl, if_pos rfl, read]
    exact ih _
  | case3 done afterReference position rest name length read =>
    rw [expand, expand, if_pos rfl, if_pos rfl, read]
    rfl
  | case4 done afterReference position rest read =>
    rw [expand, expand, if_pos rfl, if_pos rfl, read]
    rfl
  | case5 done afterReference position c rest plain ih =>
    rw [expand, expand, if_neg plain, if_neg plain]
    exact ih _

def PlainAttribute.unplaced (item : PlainAttribute) : PlainAttribute :=
  { item with position := .start }

def Tag.unplaced (tag : Tag) : Tag :=
  { tag with position := .start, attributes := tag.attributes.map PlainAttribute.unplaced }

namespace Builder

def unplaced (builder : Builder) : Builder := { builder with tag := builder.tag.map Tag.unplaced }

theorem declare_unplaced (tag : Tag) (qualifier meaning : String) (position : Position) :
    (declare tag qualifier meaning position).toOption.map Tag.unplaced =
      (declare tag.unplaced qualifier meaning .start).toOption := by
  have same : tag.unplaced.declared = tag.declared := rfl
  unfold declare
  rw [same]
  split_ifs <;> rfl

theorem declareDefault_unplaced (tag : Tag) (meaning : String) (position : Position) :
    (declareDefault tag meaning position).toOption.map Tag.unplaced =
      (declareDefault tag.unplaced meaning .start).toOption := by
  unfold declareDefault
  split_ifs <;> rfl

theorem addAttribute_unplaced (tag : Tag) (name : QualifiedName) (value : Cursor)
    (position : Position) :
    (addAttribute tag name value position).toOption.map Tag.unplaced =
      (addAttribute tag.unplaced name (.ofDocument value.rest) .start).toOption := by
  have expanded : (expandAttribute value).toOption =
      (expandAttribute (.ofDocument value.rest)).toOption := expand_anywhere ..
  unfold addAttribute
  rw [toOption_bind, toOption_bind, expanded]
  cases (expandAttribute (.ofDocument value.rest)).toOption with
  | none => rfl
  | some text =>
    dsimp only [Option.bind]
    split_ifs
    · exact declare_unplaced ..
    · exact declareDefault_unplaced ..
    · rfl

theorem meaningOf_unplaced (scope : Scope) (qualifier : List Char) (position other : Position) :
    (meaningOf scope qualifier position).toOption = (meaningOf scope qualifier other).toOption := by
  unfold meaningOf
  split_ifs
  · rfl
  · split <;> rfl

theorem attributeSpace_unplaced (scope : Scope) (item : PlainAttribute) :
    (attributeSpace scope item).toOption = (attributeSpace scope item.unplaced).toOption := by
  have same : item.unplaced.name = item.name := rfl
  unfold attributeSpace
  rw [same]
  split_ifs
  · rfl
  · exact meaningOf_unplaced ..

theorem resolveAttributes_unplaced (scope : Scope) (done : List Attribute)
    (items : List PlainAttribute) :
    (resolveAttributes scope done items).toOption =
      (resolveAttributes scope done (items.map PlainAttribute.unplaced)).toOption := by
  induction items generalizing done with
  | nil => rfl
  | cons item later ih =>
    rw [List.map_cons, resolveAttributes, resolveAttributes, toOption_bind, toOption_bind,
      attributeSpace_unplaced]
    cases (attributeSpace scope item.unplaced).toOption with
    | none => rfl
    | some space =>
      dsimp only [Option.bind, PlainAttribute.unplaced]
      split
      · rfl
      · exact ih _

theorem unplaced_append (builder : Builder) (node : Node) :
    (builder.append node).unplaced = builder.unplaced.append node := by
  obtain ⟨tag, frames, root⟩ := builder
  cases frames with
  | nil => cases node <;> rfl
  | cons => rfl

theorem unplaced_appendText (builder : Builder) (content : String) :
    (builder.appendText content).unplaced = builder.unplaced.appendText content := by
  obtain ⟨tag, frames, root⟩ := builder
  cases frames with
  | nil => rfl
  | cons frame outer =>
    obtain ⟨name, attributes, scope, children⟩ := frame
    cases children with
    | nil => rfl
    | cons child older => cases child <;> rfl

theorem finishTag_unplaced (builder : Builder) (tag : Tag) (selfClosing : Bool) :
    (builder.finishTag tag selfClosing).toOption.map unplaced =
      (builder.unplaced.finishTag tag.unplaced selfClosing).toOption := by
  have items : tag.unplaced.attributes.reverse =
      tag.attributes.reverse.map PlainAttribute.unplaced := List.map_reverse.symm
  unfold finishTag
  rw [toOption_bind, toOption_bind, items, resolveAttributes_unplaced]
  dsimp only [Tag.unplaced, unplaced, outerScope]
  cases (resolveAttributes (tag.declared ++ (builder.open_.head?.map (·.scope)).getD []) []
    (tag.attributes.reverse.map PlainAttribute.unplaced)).toOption with
  | none => rfl
  | some attributes =>
    dsimp only [Option.bind]
    rw [toOption_bind, toOption_bind, meaningOf_unplaced _ _ _ .start]
    cases (meaningOf (tag.declared ++ (builder.open_.head?.map (·.scope)).getD [])
      tag.name.qualifier .start).toOption with
    | none => rfl
    | some space =>
      cases selfClosing with
      | true => exact congrArg some (unplaced_append ..)
      | false => rfl

theorem closeFrame_unplaced (builder : Builder) (name : QualifiedName) (position : Position) :
    (builder.closeFrame name position).toOption.map unplaced =
      (builder.unplaced.closeFrame name .start).toOption := by
  obtain ⟨tag, frames, root⟩ := builder
  cases frames with
  | nil => rfl
  | cons frame outer =>
    dsimp only [closeFrame, unplaced]
    split_ifs
    · exact congrArg some (unplaced_append ..)
    · rfl

theorem add_unplaced (builder : Builder) (token : Token) :
    (builder.add token).toOption.map unplaced =
      (builder.unplaced.add token.unplaced).toOption := by
  obtain ⟨tag, frames, root⟩ := builder
  cases token with
  | tagStart name position =>
    dsimp only [add, Token.unplaced]
    split_ifs <;> rfl
  | «attribute» name value position =>
    cases tag with
    | none => rfl
    | some tag =>
      have added := addAttribute_unplaced tag name value position
      dsimp only [add, Token.unplaced, unplaced, Option.map_some]
      rw [toOption_map, toOption_map, ← added, Option.map_map, Option.map_map]
      rfl
  | tagEnd selfClosing =>
    cases tag with
    | none => rfl
    | some tag => exact finishTag_unplaced ..
  | closeTag name position => exact closeFrame_unplaced ..
  | text content =>
    have expanded : (expandText content).toOption =
        (expandText (.ofDocument content.rest)).toOption := expand_anywhere ..
    dsimp only [add, Token.unplaced]
    rw [toOption_map, toOption_map, expanded, Option.map_map]
    exact congrArg (Option.map · _) (funext fun text => unplaced_appendText ..)
  | characterData content => exact congrArg some (unplaced_appendText ..)
  | comment content => exact congrArg some (unplaced_append ..)
  | instruction target content => exact congrArg some (unplaced_append ..)

theorem foldlM_unplaced (builder : Builder) (tokens : List Token) :
    (tokens.foldlM add builder).toOption.map unplaced =
      ((tokens.map Token.unplaced).foldlM add builder.unplaced).toOption := by
  induction tokens generalizing builder with
  | nil => rfl
  | cons token later ih =>
    rw [List.map_cons, List.foldlM_cons, List.foldlM_cons, toOption_bind, toOption_bind,
      ← add_unplaced]
    cases (builder.add token).toOption with
    | none => rfl
    | some after => exact ih after

end Builder

/-- What is read of a document is read of its tokens alone. -/
theorem read_iff_built {document : List Char} {root : Node} :
    Node.read document = .ok root ↔ (lex document).fault = none ∧ ∃ final : Builder,
      ((lex document).tokens.map Token.unplaced).foldlM Builder.add .start = .ok final ∧
        final.finish = .ok root := by
  have again := Builder.foldlM_unplaced .start (lex document).tokens
  have finished (final : Builder) : final.unplaced.finish = final.finish := rfl
  constructor
  next =>
    intro accepted
    unfold Node.read at accepted
    obtain ⟨final, built, accepted⟩ := exists_ok_of_bind accepted
    split at accepted
    next => cases accepted
    next clean =>
      rw [built] at again
      exact ⟨clean, final.unplaced, toOption_eq_some.mp again.symm, accepted⟩
  next =>
    rintro ⟨clean, final, built, finished⟩
    have found : ((lex document).tokens.map Token.unplaced).foldlM Builder.add
        Builder.start.unplaced = .ok final := built
    rw [found] at again
    obtain ⟨placed, read, same⟩ := Option.map_eq_some_iff.mp again
    cases same
    unfold Node.read
    dsimp only
    rw [toOption_eq_some.mp read]
    simp only [bind, Except.bind, clean]
    exact finished

theorem built_of_read {document : List Char} {root : Node}
    (accepted : Node.read document = .ok root) :
    (lex document).fault = none ∧ ∃ final : Builder,
      ((lex document).tokens.map Token.unplaced).foldlM Builder.add .start = .ok final ∧
        final.finish = .ok root := read_iff_built.mp accepted

theorem Reads.unplaced {place next : Place} {text rest : List Char} {token : Token}
    (reads : Reads place text token next rest) : Reads place text token.unplaced next rest := by
  cases reads with
  | comment between spaced unstopped => exact .comment between spaced unstopped
  | instruction between spaced unstopped => exact .instruction between spaced unstopped
  | tagStart admits spaced nonempty nameLike => exact .tagStart admits spaced nonempty nameLike
  | tagAttribute plain isQuote closed => exact .tagAttribute plain isQuote closed
  | selfClosing spaced => exact .selfClosing spaced
  | tagEnd spaced => exact .tagEnd spaced
  | closeTag plain => exact .closeTag plain
  | text plain => exact .text plain
  | characterData unstopped => exact .characterData unstopped

/-- What is written for a token is read as it. -/
theorem reads_of_writes {place next : Place} {run rest : List Char} {token : Token}
    (writes : Writes place run token next) (stops : token.Stops rest) :
    Reads place (run ++ rest) token next rest := by
  obtain ⟨placed, after, found, left, same⟩ :=
    @Step.next_of_writes _ _ (.ofDocument (run ++ rest)) _ _ _ writes stops rfl
  have reads := (Step.reads_of_next found).unplaced
  rw [same, left] at reads
  exact reads

end Formwright.Markup
