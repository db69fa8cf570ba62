import Formwright.Markup.Tree
import Formwright.Proofs.Markup.Steps

/-!
How deep the elements of a tree nest, and how deep they have nested while the tree was built: each
token changes the deepest nesting so far in one known way.
-/

namespace Formwright.Markup

mutual

/-- The most elements with a start tag and an end tag of their own that are open at once in a
node, the node itself included. -/
def Node.openDepth : Node → Nat
  | .element _ _ selfClosing children =>
    (if selfClosing then 0 else 1) + Node.openDepthOfAll children
  | _ => 0

def Node.openDepthOfAll : List Node → Nat
  | [] => 0
  | node :: later => max node.openDepth (Node.openDepthOfAll later)

end

def Node.isElement : Node → Bool
  | .element .. => true
  | _ => false

theorem Node.openDepth_of_leaf {node : Node} (leaf : node.isElement = false) :
    node.openDepth = 0 := by
  cases node with
  | element => cases leaf
  | text | comment | instruction => rfl

theorem Node.openDepthOfAll_append (first second : List Node) :
    Node.openDepthOfAll (first ++ second) =
      max (Node.openDepthOfAll first) (Node.openDepthOfAll second) := by
  induction first with
  | nil => simp [Node.openDepthOfAll]
  | cons node first ih => simp only [List.cons_append, Node.openDepthOfAll, ih, Nat.max_assoc]

theorem Node.openDepthOfAll_reverse (nodes : List Node) :
    Node.openDepthOfAll nodes.reverse = Node.openDepthOfAll nodes := by
  induction nodes with
  | nil => rfl
  | cons node nodes ih =>
    rw [List.reverse_cons, Node.openDepthOfAll_append, ih]
    simp only [Node.openDepthOfAll]
    omega

def Token.depthAfter (depth : Nat) : Token → Nat
  | .tagEnd false => depth + 1
  | .closeTag .. => depth - 1
  | _ => depth

def deepest : Nat → List Token → Nat
  | depth, [] => depth
  | depth, token :: later => max depth (deepest (token.depthAfter depth) later)

theorem le_deepest (depth : Nat) (tokens : List Token) : depth ≤ deepest depth tokens := by
  cases tokens with
  | nil => exact Nat.le_refl _
  | cons token tokens => exact Nat.le_max_left ..

theorem Place.depth_inside (depth : Nat) : (Place.inside depth).depth = depth := by
  cases depth <;> rfl

theorem Reads.depth {place next : Place} {text rest : List Char} {token : Token}
    (reads : Reads place text token next rest) : next.depth = token.depthAfter place.depth := by
  cases reads with
  | selfClosing => exact Place.depth_inside _
  | closeTag => exact Place.depth_inside _
  | comment | instruction | tagStart | tagAttribute | tagEnd | text | characterData => rfl

namespace Builder

def reached : List Frame → Nat
  | [] => 0
  | frame :: outer => max (reached outer) (outer.length + 1 + Node.openDepthOfAll frame.children)

def peak (builder : Builder) : Nat :=
  max (reached builder.open_) ((builder.root.map Node.openDepth).getD 0)

def Fits (builder : Builder) : Place → Prop
  | .prolog => builder.tag = none ∧ builder.open_ = [] ∧ builder.root = none
  | .tag depth => builder.tag ≠ none ∧ builder.open_.length = depth ∧ builder.root = none
  | .content depth =>
    builder.tag = none ∧ builder.open_.length = depth ∧ 0 < depth ∧ builder.root = none
  | .epilog => builder.tag = none ∧ builder.open_ = [] ∧ builder.root ≠ none

theorem length_le_reached (frames : List Frame) : frames.length ≤ reached frames := by
  cases frames with
  | nil => exact Nat.le_refl _
  | cons frame outer =>
    simp only [reached, List.length_cons]
    omega

theorem length_le_peak (builder : Builder) : builder.open_.length ≤ builder.peak :=
  Nat.le_trans (length_le_reached _) (Nat.le_max_left ..)

theorem depth_eq_length {builder : Builder} {place : Place} (fits : builder.Fits place) :
    place.depth = builder.open_.length := by
  cases place with
  | prolog | epilog => rw [fits.2.1]; rfl
  | tag depth | content depth => exact fits.2.1.symm

theorem peak_append {builder : Builder} (inside : builder.open_ ≠ []) (node : Node) :
    (builder.append node).peak = max builder.peak (builder.open_.length + node.openDepth) := by
  obtain ⟨tag, frames, root⟩ := builder
  cases frames with
  | nil => exact absurd rfl inside
  | cons frame outer =>
    simp only [append, peak, reached, Node.openDepthOfAll, List.length_cons]
    omega

/-- A finished element goes to where the tag that began it was read. -/
theorem append_element (builder : Builder) (between : builder.tag = none)
    (unset : builder.root = none) (name : String) (attributes : List Attribute)
    (selfClosing : Bool) (children : List Node) :
    (builder.append (.element name attributes selfClosing children)).Fits
        (.inside builder.open_.length) ∧
      (builder.append (.element name attributes selfClosing children)).peak =
        max builder.peak (builder.open_.length +
          (Node.element name attributes selfClosing children).openDepth) := by
  obtain ⟨tag, frames, root⟩ := builder
  cases frames with
  | nil =>
    cases unset
    exact ⟨⟨between, rfl, by simp [append]⟩, by simp [append, peak, reached]⟩
  | cons frame outer =>
    exact ⟨⟨between, rfl, Nat.succ_pos _, unset⟩, peak_append (by simp) _⟩

theorem append_leaf {builder : Builder} {place : Place} (between : place.inTag = false)
    (fits : builder.Fits place) (node : Node) (leaf : node.isElement = false) :
    (builder.append node).Fits place ∧ (builder.append node).peak = builder.peak := by
  by_cases inside : builder.open_ = []
  · have same : builder.append node = builder := by
      obtain ⟨tag, frames, root⟩ := builder
      cases inside
      cases node with
      | element => cases leaf
      | text | comment | instruction => rfl
    rw [same]
    exact ⟨fits, rfl⟩
  · refine ⟨?_, ?_⟩
    · obtain ⟨tag, frames, root⟩ := builder
      cases place with
      | tag depth => cases between
      | prolog => exact absurd fits.2.1 inside
      | epilog => exact absurd fits.2.1 inside
      | content depth =>
        cases frames with
        | nil => exact absurd rfl inside
        | cons frame outer => exact fits
    · have bound := length_le_peak builder
      rw [peak_append inside, Node.openDepth_of_leaf leaf]
      omega

theorem appendText_fits {builder : Builder} {depth : Nat} (fits : builder.Fits (.content depth))
    (content : String) :
    (builder.appendText content).Fits (.content depth) ∧
      (builder.appendText content).peak = builder.peak := by
  have leaf := append_leaf rfl fits (.text content) rfl
  obtain ⟨tag, frames, root⟩ := builder
  cases frames with
  | nil => exact ⟨fits, rfl⟩
  | cons frame outer =>
    unfold appendText
    dsimp only
    split
    next earlier older same =>
      refine ⟨fits, ?_⟩
      simp [peak, reached, same, Node.openDepthOfAll, Node.openDepth]
    next => exact leaf

theorem finishTag_fits {builder after : Builder} {tag : Tag} {selfClosing : Bool}
    (unset : builder.root = none) (added : builder.finishTag tag selfClosing = .ok after) :
    after.Fits (if selfClosing then .inside builder.open_.length
        else .content (builder.open_.length + 1)) ∧
      after.peak = max builder.peak
        ((Token.tagEnd selfClosing).depthAfter builder.open_.length) := by
  unfold finishTag at added
  obtain ⟨attributes, -, added⟩ := exists_ok_of_bind added
  obtain ⟨space, -, added⟩ := exists_ok_of_bind added
  cases selfClosing with
  | true =>
    cases added
    exact append_element { builder with tag := none } rfl unset ..
  | false =>
    cases added
    refine ⟨⟨rfl, rfl, Nat.succ_pos _, unset⟩, ?_⟩
    simp only [peak, reached, Node.openDepthOfAll, Token.depthAfter]
    omega

/-- An end tag finishes the innermost open element. -/
theorem append_of_closeFrame {tag : Option Tag} {frame : Frame} {outer : List Frame}
    {root : Option Node} {name : QualifiedName} {position : Position} {after : Builder}
    (added : closeFrame ⟨tag, frame :: outer, root⟩ name position = .ok after) :
    after = append ⟨tag, outer, root⟩ (Frame.close frame false) := by
  unfold closeFrame at added
  dsimp only at added
  split at added
  next =>
    cases added
    rfl
  next => cases added

theorem closeFrame_fits {builder after : Builder} {name : QualifiedName} {position : Position}
    (fits : builder.Fits (.content builder.open_.length))
    (added : builder.closeFrame name position = .ok after) :
    after.Fits (.inside (builder.open_.length - 1)) ∧ after.peak = builder.peak := by
  obtain ⟨tag, frames, root⟩ := builder
  obtain ⟨between, -, positive, unset⟩ := fits
  cases frames with
  | nil => cases positive
  | cons frame outer =>
    obtain rfl := append_of_closeFrame added
    obtain ⟨fits, peaks⟩ := append_element ⟨tag, outer, root⟩ between unset
      (String.ofList frame.name.localName) frame.attributes false frame.children.reverse
    refine ⟨fits, peaks.trans ?_⟩
    simp only [peak, reached, Node.openDepth, Node.openDepthOfAll_reverse, Bool.false_eq_true,
      if_false]
    omega

/-- What one token does to the state of the builder. -/
theorem add_fits {builder after : Builder} {place next : Place} {text rest : List Char}
    {token : Token} (reads : Reads place text token next rest) (fits : builder.Fits place)
    (added : builder.add token = .ok after) :
    after.Fits next ∧ after.peak = max builder.peak (token.depthAfter place.depth) := by
  -- A token that opens no element leaves a depth that was already reached.
  have known : ∀ {depth : Nat}, depth ≤ builder.open_.length →
      max builder.peak depth = builder.peak := fun bound =>
    Nat.max_eq_left (Nat.le_trans bound (length_le_peak builder))
  have bound := Nat.le_of_eq (depth_eq_length fits)
  cases reads with
  | comment between =>
    cases added
    obtain ⟨fits, peaks⟩ := append_leaf between fits (.comment _) rfl
    exact ⟨fits, peaks.trans (known bound).symm⟩
  | instruction between =>
    cases added
    obtain ⟨fits, peaks⟩ := append_leaf between fits (.instruction _ _) rfl
    exact ⟨fits, peaks.trans (known bound).symm⟩
  | tagStart admits =>
    simp only [add] at added
    split at added
    next => cases added
    next =>
      cases added
      refine ⟨⟨by simp, (depth_eq_length fits).symm, ?_⟩, (known bound).symm⟩
      cases place with
      | prolog => exact fits.2.2
      | content depth => exact fits.2.2.2
      | tag depth | epilog => cases admits
  | tagAttribute =>
    obtain ⟨isTag, length, unset⟩ := fits
    simp only [add] at added
    split at added
    next absent => exact absurd absent isTag
    next tag found =>
      obtain ⟨tag, -, same⟩ := exists_ok_of_map added
      cases same
      exact ⟨⟨by simp, length, unset⟩, (known bound).symm⟩
  | selfClosing =>
    obtain ⟨isTag, rfl, unset⟩ := fits
    simp only [add] at added
    split at added
    next absent => exact absurd absent isTag
    next tag found => exact finishTag_fits unset added
  | tagEnd =>
    obtain ⟨isTag, rfl, unset⟩ := fits
    simp only [add] at added
    split at added
    next absent => exact absurd absent isTag
    next tag found => exact finishTag_fits unset added
  | closeTag =>
    have length : builder.open_.length = _ := fits.2.1
    subst length
    obtain ⟨closed, peaks⟩ := closeFrame_fits fits added
    exact ⟨closed, peaks.trans (known (Nat.sub_le ..)).symm⟩
  | text =>
    obtain ⟨content, -, same⟩ := exists_ok_of_map added
    cases same
    obtain ⟨fits, peaks⟩ := appendText_fits fits (String.ofList content)
    exact ⟨fits, peaks.trans (known bound).symm⟩
  | characterData =>
    cases added
    obtain ⟨fits, peaks⟩ := appendText_fits fits _
    exact ⟨fits, peaks.trans (known bound).symm⟩

/-- The finished tree nests as deep as the tokens did. -/
theorem openDepth_of_finish {builder final : Builder} {place : Place} {text : List Char}
    {tokens : List Token} {root : Node} (readsAll : ReadsAll place text tokens)
    (fits : builder.Fits place) (built : tokens.foldlM add builder = .ok final)
    (finished : final.finish = .ok root) :
    root.openDepth = max builder.peak (deepest place.depth tokens) := by
  induction readsAll generalizing builder with
  | @finish place text blank inTag =>
    obtain rfl : builder = final := Except.ok.inj built
    have length := depth_eq_length fits
    unfold Builder.finish at finished
    split at finished
    next => cases finished
    next found closed unique =>
      cases finished
      rw [closed] at length
      simp [peak, closed, unique, reached, deepest, length]
    next => cases finished
  | @step place next text rest token tokens first later ih =>
    rw [List.foldlM_cons] at built
    obtain ⟨after, added, built⟩ := exists_ok_of_bind built
    obtain ⟨fits', peaks⟩ := add_fits first fits added
    have known : place.depth ≤ builder.peak :=
      Nat.le_trans (Nat.le_of_eq (depth_eq_length fits)) (length_le_peak builder)
    have ahead := le_deepest (token.depthAfter place.depth) tokens
    rw [ih fits' built, peaks, first.depth, deepest]
    omega

end Builder
end Formwright.Markup
