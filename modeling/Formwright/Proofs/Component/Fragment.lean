import Formwright.Proofs.Component.Attribute
import Formwright.Proofs.Component.Rendering
import Formwright.Proofs.Entries
import Formwright.Proofs.Text.Blanks

/-!
Texts inside generated markup. A reader of the markup finds each text again, as the value of an
attribute and as the content of an element, and nothing of it is taken for markup.
-/

namespace Formwright.Component

open Mapping Text

structure InContent (text shown : String) : Prop where
  form :
    (shown = text ∧ isTrimmed text.toList = true ∧
      ∀ c ∈ text.toList, endsRun c = false ∧ c ≠ '&' ∧ c ≠ '\n' ∧ c ≠ '\r') ∨
    ∃ code, shown = braced code ∧ LiteralOf text code
  oneLine : OneLine shown.toList

theorem contentText_text (text : String) : InContent text (contentText (.text text)) := by
  by_cases plain : showsAsIs text = true
  · have same : contentText (.text text) = text := by rw [Value.text, contentText, if_pos plain]
    rw [showsAsIs, Bool.and_eq_true, Bool.and_eq_true, Bool.not_eq_true',
      Bool.not_eq_true'] at plain
    obtain ⟨⟨filled, trimmed⟩, calm⟩ := plain
    have keeps : ∀ c ∈ text.toList, endsRun c = false ∧ c ≠ '&' ∧ c ≠ '\n' ∧ c ≠ '\r' := by
      intro c mem
      have noDelimiter := List.any_eq_false.mp calm c mem
      simp only [isContentDelimiter, Bool.or_eq_true, decide_eq_true_eq, not_or] at noDelimiter
      obtain ⟨⟨⟨⟨⟨⟨opening, closing⟩, less⟩, greater⟩, reference⟩, feed⟩, carriage⟩ := noDelimiter
      exact ⟨by simp [endsRun, opening, closing, less, greater], reference, feed, carriage⟩
    rw [same]
    refine ⟨.inl ⟨rfl, trimmed, keeps⟩, ?_, fun mem => ?_, fun mem => ?_⟩
    · intro empty
      rw [String.toList_eq_nil_iff.mp empty] at filled
      exact absurd filled (by decide)
    · exact (keeps _ mem).2.2.1 rfl
    · exact (keeps _ mem).2.2.2 rfl
  · have isLiteral := literal_literalOf text
    have written : contentText (.text text) = braced (literal text) := by
      rw [Value.text, contentText, if_neg plain]
      rfl
    rw [written]
    exact ⟨.inr ⟨literal text, rfl, isLiteral⟩, oneLine_braced isLiteral.oneLine⟩

def margin : List Char := '\n' :: indentation

theorem eq_space_of_indentation {c : Char} (mem : c ∈ indentation) : c = ' ' := by
  simpa [indentation] using mem

theorem mem_margin {c : Char} (mem : c ∈ margin) : c = '\n' ∨ c = ' ' :=
  (List.mem_cons.mp mem).imp_right eq_space_of_indentation

theorem blank_margin : Blank margin := by
  intro c mem
  obtain rfl | rfl := mem_margin mem
  · decide
  · decide

theorem calm_margin {c : Char} (mem : c ∈ margin) : endsRun c = false ∧ c ≠ '&' := by
  obtain rfl | rfl := mem_margin mem
  · decide
  · decide

def nestedLines (nested : List String) : String :=
  String.join (nested.map fun part => shiftFragment part indentation ++ "\n")

def tagRest (component : String) (text : Option String) (nested : List String) : String :=
  match text, nested with
  | none, [] => " />"
  | some text, [] => ">" ++ text ++ ("</" ++ component ++ ">")
  | text, nested => ">\n" ++ nestedLines (text.toList ++ nested) ++ ("</" ++ component ++ ">")

theorem renderTag_eq (component : String) (properties : Entries Value) (nested : List String) :
    renderTag component properties nested =
      openTag component (Entries.erase properties "children") ++
        tagRest component ((Entries.find? properties "children").map contentText) nested := by
  unfold renderTag
  dsimp only
  cases (Entries.find? properties "children").map contentText with
  | none =>
    cases nested with
    | nil => rfl
    | cons first later => simp only [tagRest, nestedLines, String.append_assoc]
  | some text =>
    cases nested with
    | nil => simp only [tagRest, String.append_assoc]
    | cons first later => simp only [tagRest, nestedLines, String.append_assoc]

theorem tagRest_filled (component : String) (text : Option String) {nested : List String}
    (filled : nested ≠ []) :
    tagRest component text nested =
      ">\n" ++ nestedLines (text.toList ++ nested) ++ ("</" ++ component ++ ">") := by
  obtain ⟨first, later, rfl⟩ := List.exists_cons_of_ne_nil filled
  cases text <;> rfl

def opensMarkup (c : Char) : Bool := c = '<' || c = '{'

abbrev Fragment := { code : String // code.toList.head?.any opensMarkup = true }

theorem toList_openTag (component : String) (properties : Entries Value) :
    ∃ rest, (openTag component properties).toList = '<' :: rest := by
  rw [openTag, String.toList_join, List.flatMap_cons, String.toList_append]
  exact ⟨_, rfl⟩

theorem opensMarkup_renderTag (component : String) (properties : Entries Value)
    (nested : List String) :
    (renderTag component properties nested).toList.head?.any opensMarkup = true := by
  obtain ⟨rest, begins⟩ := toList_openTag component (Entries.erase properties "children")
  rw [renderTag_eq, String.toList_append, begins]
  rfl

theorem opensMarkup_unsupportedNote (kind : Kind) (id : String) :
    (unsupportedNote kind id).toList.head?.any opensMarkup = true := by
  have first : "\x7b/* unsupported component: ".toList.head?.any opensMarkup = true := by
    decide
  unfold unsupportedNote
  rw [String.append_assoc, String.toList_append]
  exact any_head_append first _

theorem opensMarkup_renderTree {setting : Setting} {depth : Nat} {element : Element}
    {trace later : Trace} {code : String}
    (rendered : (renderTree setting depth element).run.run trace = (.ok code, later)) :
    code.toList.head?.any opensMarkup = true := by
  rw [renderTree_eq] at rendered
  split at rendered
  next => cases rendered
  next =>
    split at rendered
    next => cases rendered
    next kind _ =>
      split at rendered
      next =>
        obtain ⟨_, _, _, noted⟩ := ok_of_bind rendered
        cases noted
        exact opensMarkup_unsupportedNote kind element.id
      next rule _ =>
        obtain ⟨_, _, _, warned⟩ := ok_of_bind rendered
        obtain ⟨_, _, _, used⟩ := ok_of_bind warned
        obtain ⟨nested, _, _, tagged⟩ := ok_of_bind used
        cases tagged
        exact opensMarkup_renderTag _ _ _

/-- What elements are rendered as are fragments, also where there is no rule for an element. -/
theorem fragments_of_renderTrees {setting : Setting} {depth : Nat} {elements : List Element}
    {trace later : Trace} {nested : List String}
    (rendered : (renderTrees setting depth elements).run.run trace = (.ok nested, later)) :
    ∃ fragments : List Fragment, nested = fragments.map (·.val) := by
  induction elements generalizing trace nested with
  | nil =>
    rw [renderTrees] at rendered
    cases rendered
    exact ⟨[], rfl⟩
  | cons element others ih =>
    rw [renderTrees_cons] at rendered
    obtain ⟨code, _, first, rest⟩ := ok_of_bind rendered
    obtain ⟨codes, _, behind, whole⟩ := ok_of_bind rest
    cases whole
    obtain ⟨fragments, rfl⟩ := ih behind
    exact ⟨⟨code, opensMarkup_renderTree first⟩ :: fragments, rfl⟩

def textLead (nested : List String) : String :=
  if nested.isEmpty then "" else "\n" ++ String.ofList indentation

def textEnd (component : String) (nested : List String) : String :=
  (if nested.isEmpty then "" else "\n") ++ nestedLines nested ++ ("</" ++ component ++ ">")

theorem renderTag_text (component : String) (properties : Entries Value) (nested : List String)
    {value : Value} (single : OneLine (contentText value).toList) :
    renderTag component (Entries.insert properties "children" value) nested =
      openTag component (Entries.erase properties "children") ++ ">" ++
        (textLead nested ++ contentText value ++ textEnd component nested) := by
  rw [renderTag_eq, Entries.find?_insert, if_pos rfl, Entries.erase_insert, Option.map_some]
  cases nested with
  | nil =>
    simp only [tagRest, textLead, textEnd, nestedLines, List.map_nil, List.isEmpty_nil, if_true,
      String.join_nil, String.empty_append, String.append_assoc]
  | cons first later =>
    have line : shiftFragment (contentText value) indentation =
        String.ofList indentation ++ contentText value := by
      rw [shiftFragment, shiftRight_oneLine single, String.ofList_append, String.ofList_toList]
    have feed : ">\n" = ">" ++ "\n" := rfl
    simp only [tagRest, textLead, textEnd, nestedLines, List.map_cons, List.isEmpty_cons,
      Bool.false_eq_true, if_false, Option.toList_some, List.singleton_append, String.join_cons,
      line, feed, String.append_assoc]

/-- Behind the text of an element comes a fragment, on its own line, or the end tag. -/
theorem toList_textEnd (component : String) (fragments : List Fragment) :
    (fragments = [] ∧ ∃ rest, (textEnd component (fragments.map (·.val))).toList = '<' :: rest) ∨
      fragments ≠ [] ∧ ∃ c rest, opensMarkup c = true ∧
        (textEnd component (fragments.map (·.val))).toList = margin ++ c :: rest := by
  cases fragments with
  | nil =>
    have whole : textEnd component [] = "</" ++ (component ++ ">") := by
      simp [textEnd, nestedLines, String.append_assoc]
    refine .inl ⟨rfl, ?_⟩
    rw [List.map_nil, whole, String.toList_append]
    exact ⟨_, rfl⟩
  | cons first later =>
    refine .inr ⟨List.cons_ne_nil _ _, ?_⟩
    obtain ⟨code, opens⟩ := first
    rw [List.map_cons]
    cases begins : code.toList with
    | nil =>
      rw [begins] at opens
      cases opens
    | cons c rest =>
      rw [begins] at opens
      have single : OneLine [c] := by
        refine ⟨by simp, fun mem => ?_, fun mem => ?_⟩
        · rw [← List.mem_singleton.mp mem] at opens
          cases opens
        · rw [← List.mem_singleton.mp mem] at opens
          cases opens
      obtain ⟨after, shifted⟩ := shiftRight_first rest indentation
      have line : (shiftFragment code indentation).toList = indentation ++ c :: after := by
        rw [shiftFragment, String.toList_ofList, begins]
        have moved := shifted [c] single
        rw [List.append_assoc] at moved
        exact moved
      have whole (behind : List String) : textEnd component (code :: behind) =
          "\n" ++ (shiftFragment code indentation ++
            ("\n" ++ (nestedLines behind ++ ("</" ++ component ++ ">")))) := by
        simp only [textEnd, nestedLines, List.isEmpty_cons, Bool.false_eq_true, if_false,
          List.map_cons, String.join_cons, String.append_assoc]
      refine ⟨c, ?_⟩
      rw [whole, String.toList_append, String.toList_append, line, List.append_assoc]
      exact ⟨_, opens, rfl⟩

/-! ## Reading -/

/-- A text without the characters that readers show in different ways. -/
def Undisputed (text : List Char) : Prop :=
  ∀ c ∈ text, c ≠ '\t' ∧ c ≠ '\u2028' ∧ c ≠ '\u2029'

def isZeroWidth (c : Char) : Bool := c = '\u200B' || c = '\uFEFF'

/-- A text that no reader takes to begin or to end with a blank, if it is trimmed. -/
def DarkEnds (text : List Char) : Prop :=
  (∀ c ∈ text.head?, isZeroWidth c = false) ∧ ∀ c ∈ text.getLast?, isZeroWidth c = false

section

variable {reader : MarkupReader} (conforms : reader.Conforms)

include conforms

theorem keeps_of_undisputed {text : List Char} (single : OneLine text)
    (undisputed : Undisputed text) : reader.space.Keeps text := by
  intro c mem
  obtain ⟨noTab, noLine, noParagraph⟩ := undisputed c mem
  refine ⟨?_, conforms.space.write c noTab⟩
  rw [Bool.eq_false_iff]
  intro breaks
  obtain rfl | rfl | rfl | rfl := conforms.space.breaks c breaks
  · exact single.2.1 mem
  · exact single.2.2 mem
  · exact noLine rfl
  · exact noParagraph rfl

theorem dark_of_ends {c : Char} (dark : isBlank c = false) (wide : isZeroWidth c = false) :
    reader.space.blank c = false := by
  rw [Bool.eq_false_iff]
  intro dropped
  obtain blank | rfl | rfl := conforms.space.blank c dropped
  · exact absurd (blank.symm.trans dark) (by decide)
  · cases wide
  · cases wide

theorem child_braced {text code : String} (isLiteral : LiteralOf text code) {before : List Char}
    (lead : before = [] ∨ before = margin) (rest : List Char) :
    reader.child (before ++ (braced code).toList ++ rest) = some (text.toList, rest) := by
  have split : before ++ (braced code).toList ++ rest =
      before ++ '{' :: (code.toList ++ '}' :: rest) := by
    rw [toList_braced]
    simp
  have read := conforms.bracedChild text.toList code.toList rest isLiteral.reads
  rw [split]
  obtain rfl | rfl := lead
  · exact read
  · have nothing : (reader.space.shown margin).isEmpty = true := by
      rw [margin, SpaceRule.shown_margin conforms.space fun c mem => eq_space_of_indentation mem]
      rfl
    rw [conforms.run margin _ (fun c mem => calm_margin mem) (.inr rfl), if_pos nothing, read]

section Plain

variable {text : List Char} (single : OneLine text) (undisputed : Undisputed text)
  (calm : ∀ c ∈ text, endsRun c = false ∧ c ≠ '&' ∧ c ≠ '\n' ∧ c ≠ '\r')
  {rest : List Char} (stops : rest.head? = some '<' ∨ rest.head? = some '{')

include single undisputed calm stops

theorem child_plain : reader.child (text ++ rest) = some (text, rest) := by
  have filled : ¬text.isEmpty = true := fun none => single.1 (List.isEmpty_iff.mp none)
  have same : reader.space.shown text = text :=
    SpaceRule.shown_line single.1 (keeps_of_undisputed conforms single undisputed)
  rw [conforms.run text rest (fun c mem => ⟨(calm c mem).1, (calm c mem).2.1⟩) stops, same,
    if_neg filled]

theorem child_between (trimmed : isTrimmed text = true) (ends : DarkEnds text) :
    reader.child (margin ++ text ++ margin ++ rest) = some (text, rest) := by
  have filled : ¬text.isEmpty = true := fun none => single.1 (List.isEmpty_iff.mp none)
  have inside : ∀ c ∈ margin ++ text ++ margin, endsRun c = false ∧ c ≠ '&' := by
    intro c mem
    rw [List.mem_append, List.mem_append] at mem
    obtain (outer | inner) | outer := mem
    · exact calm_margin outer
    · exact ⟨(calm c inner).1, (calm c inner).2.1⟩
    · exact calm_margin outer
  have same : reader.space.shown (margin ++ text ++ margin) = text := by
    obtain ⟨first, last⟩ := (isTrimmed_iff text).mp trimmed
    exact SpaceRule.shown_between conforms.space (fun c mem => eq_space_of_indentation mem)
      single.1 (keeps_of_undisputed conforms single undisputed)
      (fun c mem => dark_of_ends conforms (first c mem) (ends.1 c mem))
      (fun c mem => dark_of_ends conforms (last c mem) (ends.2 c mem))
  rw [conforms.run _ rest inside stops, same, if_neg filled]

end Plain

/-- The text of an element is found again, and what follows it is left. -/
theorem child_text {text shown : String} (inContent : InContent text shown) (component : String)
    (fragments : List Fragment)
    (clear : shown = text →
      Undisputed text.toList ∧ (fragments = [] ∨ DarkEnds text.toList)) :
    ∃ rest,
      reader.child (textLead (fragments.map (·.val)) ++ shown ++
        textEnd component (fragments.map (·.val))).toList = some (text.toList, rest) ∧
      trimStart rest = trimStart (textEnd component (fragments.map (·.val))).toList := by
  obtain ⟨form, single⟩ := inContent
  have lead : (textLead (fragments.map (·.val))).toList =
      if fragments.isEmpty then [] else margin := by
    rw [textLead, List.isEmpty_map]
    split
    · rfl
    · rw [String.toList_append, String.toList_ofList]
      rfl
  rw [String.toList_append, String.toList_append, lead]
  obtain ⟨rfl, rest, ends⟩ | ⟨filled, c, rest, opens, ends⟩ := toList_textEnd component fragments
  · obtain ⟨rfl, _, calm⟩ | ⟨code, rfl, isLiteral⟩ := form
    · have stops := congrArg List.head? ends
      exact ⟨_, child_plain conforms single (clear rfl).1 calm (.inl stops), rfl⟩
    · exact ⟨_, child_braced conforms isLiteral (.inl rfl) _, rfl⟩
  · have others : ¬fragments.isEmpty = true := fun none => filled (List.isEmpty_iff.mp none)
    rw [if_neg others]
    obtain ⟨rfl, trimmed, calm⟩ | ⟨code, rfl, isLiteral⟩ := form
    · obtain ⟨undisputed, none | dark⟩ := clear rfl
      · exact absurd none filled
      simp only [opensMarkup, Bool.or_eq_true, decide_eq_true_eq] at opens
      have stops : (c :: rest).head? = some '<' ∨ (c :: rest).head? = some '{' :=
        opens.imp (congrArg some) (congrArg some)
      have read := child_between conforms single undisputed calm stops trimmed dark
      refine ⟨c :: rest, ?_, ?_⟩
      · rw [ends, ← List.append_assoc]
        exact read
      · rw [ends, trimStart_append_blank blank_margin]
    · exact ⟨_, child_braced conforms isLiteral (.inr rfl) _, rfl⟩

end

/-- No text breaks out of the place in which generated code holds it. An attribute holds it in
quotes or as a literal in braces, the content of an element as it is or as a literal in braces. In
both places it is on one line, so that no indentation of the code around it touches it. A reader of
an attribute finds the text and goes on behind it, and so does a reader of the content, provided that
a text that stands there as it is has none of the characters that readers show in different ways. -/
theorem text_stays_in_place {reader : MarkupReader} (conforms : reader.Conforms)
    (text name component : String) (properties : Entries Value) :
    (∃ value, renderAttribute name (.text text) = name ++ "=" ++ value ∧ InAttribute text value ∧
      ∀ rest, reader.value (value.toList ++ rest) = some (text.toList, rest)) ∧
    (∃ shown, InContent text shown ∧
      (∀ nested, renderTag component (Entries.insert properties "children" (.text text)) nested =
        openTag component (Entries.erase properties "children") ++ ">" ++
          (textLead nested ++ shown ++ textEnd component nested)) ∧
      ∀ fragments : List Fragment,
        (shown = text → Undisputed text.toList ∧ (fragments = [] ∨ DarkEnds text.toList)) →
        ∃ rest,
          reader.child (textLead (fragments.map (·.val)) ++ shown ++
            textEnd component (fragments.map (·.val))).toList = some (text.toList, rest) ∧
          trimStart rest = trimStart (textEnd component (fragments.map (·.val))).toList) ∧
    ∀ leads before behind, ∃ front after, ∀ part, OneLine part →
      indent leads (before ++ part ++ behind) = front ++ part ++ after := by
  have inContent := contentText_text text
  obtain ⟨value, written, inAttribute⟩ := renderAttribute_text name text
  refine ⟨⟨value, written, inAttribute, value_of_attribute conforms inAttribute⟩, ?_, indent_around⟩
  exact ⟨contentText (.text text), inContent,
    fun nested => renderTag_text component properties nested inContent.oneLine,
    child_text conforms inContent component⟩

/-- A caption above an input field. -/
theorem caption_stays_in_place :
    let reader := plainSpace.reader
    let field : Fragment := ⟨"<input />", by decide⟩
    reader.Conforms ∧
      ∃ shown,
        renderTag "label" [("children", .text "Name")] [field.val] =
          openTag "label" [] ++ ">" ++
            (textLead [field.val] ++ shown ++ textEnd "label" [field.val]) ∧
        ∃ rest, reader.child (textLead [field.val] ++ shown ++ textEnd "label" [field.val]).toList =
          some ("Name".toList, rest) := by
  intro reader field
  have conforms := SpaceRule.conforms_reader lawful_plainSpace
  obtain ⟨_, ⟨shown, _, written, found⟩, _⟩ :=
    text_stays_in_place conforms "Name" "title" "label" []
  have undisputed : Undisputed "Name".toList := by simp [Undisputed]
  have ends : DarkEnds "Name".toList := by simp [DarkEnds, isZeroWidth]
  obtain ⟨rest, read, _⟩ := found [field] fun _ => ⟨undisputed, .inr ends⟩
  exact ⟨conforms, shown, written [field.val], rest, read⟩

/-- A tab and the line end of a script are taken as they are, and so is a zero-width space in front,
and not every reader finds them there. -/
theorem white_space_is_misread :
    let first := plainSpace.reader
    let second := scriptSpace.reader
    (first.Conforms ∧ second.Conforms) ∧
      (renderTag "label" [("children", .text "a\tb")] [] = "<label>a\tb</label>" ∧
        first.child "a\tb</label>".toList = some ("a b".toList, "</label>".toList)) ∧
      (renderTag "label" [("children", .text "a\u2028b")] [] = "<label>a\u2028b</label>" ∧
        second.child "a\u2028b</label>".toList = some ("a b".toList, "</label>".toList)) ∧
      renderTag "label" [("children", .text "\u200Bx")] ["<br />"] =
        "<label>\n  \u200Bx\n  <br />\n</label>" ∧
      second.child "\n  \u200Bx\n  <br />\n</label>".toList =
        some ("x".toList, "<br />\n</label>".toList) := by
  intro first second
  refine ⟨⟨SpaceRule.conforms_reader lawful_plainSpace,
    SpaceRule.conforms_reader lawful_scriptSpace⟩, ⟨?_, ?_⟩, ⟨?_, ?_⟩, ?_, ?_⟩
  all_goals decide +kernel

end Formwright.Component
