import Formwright.Proofs.Form.Outermost
import Formwright.Proofs.Manifest.Starter
import Formwright.Proofs.Markup.Values
import Formwright.Proofs.Text.Utf8
import Formwright.Storage.Disk

/-!
The texts of a new project. Its name stands in the manifest as it is and in the form with the marks
of markup escaped. So the form is read for every name that documents may hold, and the manifest only
for names without quotes, backslashes and control characters.
-/

namespace Formwright

open Markup (Node Attribute HoldsAttribute ValueText assignment)

/-! ## Forms and the values of attributes -/

mutual

/-- How many forms a document has does not depend on the values in it. -/
theorem length_outermostForms_bare :
    (node : Node) → (outermostForms node.bare).length = (outermostForms node).length
  | .element tag attributes _ children => by
    rw [Node.bare, outermostForms, outermostForms]
    split
    · rfl
    · exact length_outermostFormsOfAll_bare children
  | .text _ | .comment _ | .instruction _ _ => rfl

theorem length_outermostFormsOfAll_bare : (nodes : List Node) →
    (outermostFormsOfAll (Node.bareAll nodes)).length = (outermostFormsOfAll nodes).length
  | [] => rfl
  | node :: later => by
    rw [Node.bareAll, outermostFormsOfAll, outermostFormsOfAll, List.length_append,
      List.length_append, length_outermostForms_bare node, length_outermostFormsOfAll_bare later]

end

/-- A document has as many forms with another value for one of its attributes. -/
theorem readForms_with_value {document before spaces named value value' after text : List Char}
    {name : Markup.QualifiedName} {forms : List Form}
    (holds : HoldsAttribute document before spaces named value after name)
    (found : readForms (String.ofList document) = .ok forms)
    (passed : ∀ token ∈ (Markup.lex document).tokens, token.isPassedOver = true)
    (isValue : ValueText value) (isValue' : ValueText value')
    (keeps : Markup.Builder.KeepsValue name)
    (expanded : Markup.expandAttribute (.ofDocument value') = .ok text) :
    ∃ forms', readForms (String.ofList (before ++ (spaces ++ (assignment named value' ++ after)))) =
      .ok forms' ∧ forms'.length = forms.length := by
  obtain ⟨within, root, accepted, rfl⟩ := readForms_eq_ok.mp found
  rw [String.toList_ofList] at within accepted
  have clean := (Markup.built_of_read accepted).1
  rw [← Markup.nestsDeeperThan_with_value holds clean isValue isValue' passed] at within
  obtain ⟨root', accepted', same⟩ :=
    Markup.read_with_value holds accepted isValue isValue' keeps expanded
  refine ⟨outermostForms root', readForms_eq_ok.mpr ?_, ?_⟩
  · rw [String.toList_ofList]
    exact ⟨within, root', accepted', rfl⟩
  · rw [← length_outermostForms_bare root', same, length_outermostForms_bare]

namespace Workspace

/-! ## Escaped names -/

theorem expand_entity {rest : List Char} {entity : List Char} {c : Char} {done : List Char}
    {afterReference : Bool} {position : Markup.Position}
    (read : Markup.readReference (entity ++ rest) = some (.character c, entity.length)) :
    ∃ position', Markup.expand Markup.inAttribute done afterReference position
      ('&' :: (entity ++ rest)) =
        Markup.expand Markup.inAttribute (c :: done) true position' rest := by
  rw [Markup.expand, if_pos rfl, read]
  dsimp only
  rw [List.drop_left]
  exact ⟨_, rfl⟩

theorem expand_escaped (text done : List Char) (afterReference : Bool)
    (position : Markup.Position) : ∃ value, Markup.expand Markup.inAttribute done afterReference
      position (text.flatMap escapeInQuotes) = .ok value := by
  induction text generalizing done afterReference position with
  | nil => exact ⟨done.reverse, by rw [List.flatMap_nil, Markup.expand]⟩
  | cons c text ih =>
    have entity {entity : List Char} {c : Char}
        (read : Markup.readReference (entity ++ text.flatMap escapeInQuotes) =
          some (.character c, entity.length)) :
        ∃ value, Markup.expand Markup.inAttribute done afterReference position
          ('&' :: (entity ++ text.flatMap escapeInQuotes)) = .ok value := by
      obtain ⟨position', same⟩ := expand_entity read
      rw [same]
      exact ih ..
    rw [List.flatMap_cons]
    unfold escapeInQuotes
    split
    next => exact @entity "amp;".toList '&' rfl
    next => exact @entity "quot;".toList '"' rfl
    next => exact @entity "lt;".toList '<' rfl
    next c noAmpersand _ _ =>
      rw [List.singleton_append, Markup.expand, if_neg noAmpersand]
      exact ih ..

def fitsValue (c : Char) : Bool := Markup.isDocumentCharacter c && c != '"' && c != '<'

theorem fitsValue_escaped {c : Char} (known : Markup.isDocumentCharacter c = true) :
    (escapeInQuotes c).all fitsValue = true := by
  unfold escapeInQuotes
  split
  next => decide
  next => decide
  next => decide
  next _ noQuote noMarkup => simpa [fitsValue, known] using And.intro noQuote noMarkup

theorem valueText_escaped {text : List Char} (legal : Markup.Legal text) :
    ValueText (text.flatMap escapeInQuotes) := by
  have each : ∀ d ∈ text.flatMap escapeInQuotes,
      Markup.isDocumentCharacter d = true ∧ d ≠ '"' ∧ d ≠ '<' := by
    intro d mem
    obtain ⟨c, inside, mem⟩ := List.mem_flatMap.mp mem
    have fits := List.all_eq_true.mp (fitsValue_escaped (legal c inside)) d mem
    simpa [fitsValue, and_assoc] using fits
  exact ⟨fun d mem => (each d mem).1, fun mem => (each _ mem).2.1 rfl,
    fun mem => (each _ mem).2.2 rfl⟩

/-- A character that documents must not hold is not hidden by escaping. -/
theorem legal_of_escaped {text : List Char} (legal : Markup.Legal (text.flatMap escapeInQuotes)) :
    Markup.Legal text := by
  intro c mem
  by_cases kept : escapeInQuotes c = [c]
  · exact legal c (List.mem_flatMap.mpr ⟨c, mem, by rw [kept]; exact List.mem_singleton_self c⟩)
  · unfold escapeInQuotes at kept
    split at kept
    next => decide
    next => decide
    next => decide
    next => exact absurd rfl kept

/-! ## The sample form -/

def declarationLine : String := "<?xml version=\"1.0\" encoding=\"utf-8\"?>"

def rootLine : String := "<FDL version=\"2.0\">"

def formOpening : List Char :=
  "  <Form id=\"frmMain\" name=\"MainForm\" width=\"1024\" height=\"768\"".toList

def formHead : List Char := '\n' :: (rootLine.toList ++ '\n' :: formOpening)

def linesBehindForm : List String :=
  ["    <Layouts>", "      <Layout>",
    "        <Static id=\"stcTitle\" text=\"Welcome\" text-align=\"center\"/>",
    "        <Edit id=\"edtName\" placeholder=\"Your name\"/>",
    "        <Button id=\"btnGreet\" text=\"Greet\" onclick=\"btnGreet_onclick\"/>",
    "      </Layout>", "    </Layouts>", "  </Form>", "</FDL>"]

def behindTitle : List Char := '>' :: '\n' :: Toml.written linesBehindForm

def titled (value : List Char) : List Char :=
  [' '] ++ (assignment "title".toList value ++ behindTitle)

def untitledForm : List Char := (declarationLine.toList ++ formHead) ++ titled []

/-- What is computed about the sample form, at once: how its start is written, how it is read up to
the title, and that it is read as one form. -/
theorem read_untitledForm :
    "  <Form id=\"frmMain\" name=\"MainForm\" width=\"1024\" height=\"768\" title=\"".toList =
        formOpening ++ ([' '] ++ ("title".toList ++ ['=', '"'])) ∧
      (Markup.skipDeclaration (.ofDocument declarationLine.toList)).toOption.map
        Markup.Cursor.rest = some [] ∧
      (Markup.takeTokens 9 .prolog (.ofDocument (formHead ++ [' ']))).map
        (fun (_, place, cursor) => (place, cursor.rest)) = some (.tag 1, [' ']) ∧
      '>' ∈ formHead ∧
      ((Node.read untitledForm).map fun root => (outermostForms root).length).toOption = some 1 ∧
      Markup.nestsDeeperThan markupDepthLimit untitledForm = false ∧
      (Markup.lex untitledForm).tokens.all Markup.Token.isPassedOver = true := by
  delta untitledForm titled behindTitle Toml.written formHead formOpening
  simp only [Text.toList_eq_characters]
  decide +kernel

theorem toList_starterForm (name : String) :
    (starterForm name).toList =
      (declarationLine.toList ++ formHead) ++ titled (name.toList.flatMap escapeInQuotes) := by
  have whole : starterForm name = joinLines (declarationLine :: rootLine ::
      ("  <Form id=\"frmMain\" name=\"MainForm\" width=\"1024\" height=\"768\" title=\"" ++
        attributeText name ++ "\">") :: linesBehindForm) := rfl
  have opened := read_untitledForm.1
  have line : ("  <Form id=\"frmMain\" name=\"MainForm\" width=\"1024\" height=\"768\" title=\"" ++
      attributeText name ++ "\">").toList = formOpening ++ ([' '] ++
        (assignment "title".toList (name.toList.flatMap escapeInQuotes) ++ ['>'])) := by
    have escaped : (attributeText name).toList = name.toList.flatMap escapeInQuotes :=
      String.toList_ofList
    rw [String.toList_append, String.toList_append, opened, escaped, assignment]
    generalize "title".toList = word
    simp only [List.append_assoc, List.cons_append, List.nil_append]
    rfl
  rw [whole, toList_joinLines, Toml.written_cons, Toml.written_cons, Toml.written_cons, line,
    formHead, titled, behindTitle]
  generalize assignment "title".toList (name.toList.flatMap escapeInQuotes) = title
  simp only [List.append_assoc, List.cons_append, List.nil_append]

theorem begins_title (value : List Char) : ∃ start,
    Markup.Begins ((declarationLine.toList ++ formHead) ++ titled value) start ∧
      start.rest = formHead ++ titled value := by
  obtain ⟨-, declared, -⟩ := read_untitledForm
  rw [List.append_assoc]
  exact Markup.begins_behind rfl declared (formHead ++ titled value)

theorem holdsTitle : HoldsAttribute untitledForm (declarationLine.toList ++ formHead) [' ']
    "title".toList [] behindTitle ⟨[], "title".toList⟩ := by
  obtain ⟨-, -, opened, closed, -⟩ := read_untitledForm
  obtain ⟨⟨tokens, place, cursor⟩, taken, same⟩ := Option.map_eq_some_iff.mp opened
  obtain ⟨rfl, left⟩ := Prod.mk.inj same
  obtain ⟨start, begins, here⟩ := begins_title []
  refine ⟨rfl, ⟨start, _, 9, tokens, 1, cursor, begins, here, closed, taken, left⟩, ?_, ?_, ?_⟩
  · decide
  · exact List.forall_mem_singleton.mpr (by decide)
  · exact ⟨List.all_eq_true.mp (by decide), by decide⟩

/-- The sample form of a new project is read as one form exactly when documents may hold every
character of the name. -/
theorem readForms_starterForm (name : String) :
    (∃ form, readForms (starterForm name) = .ok [form]) ↔ Markup.Legal name.toList := by
  have text : starterForm name = String.ofList ((declarationLine.toList ++ formHead) ++
      titled (name.toList.flatMap escapeInQuotes)) := by
    rw [← toList_starterForm, String.ofList_toList]
  rw [text]
  constructor
  · rintro ⟨form, found⟩
    obtain ⟨-, root, accepted, -⟩ := readForms_eq_ok.mp found
    rw [String.toList_ofList] at accepted
    obtain ⟨start, begins, here⟩ := begins_title (name.toList.flatMap escapeInQuotes)
    have legal := Markup.legal_of_lex begins (Markup.built_of_read accepted).1
    rw [here] at legal
    have behind := (Markup.Legal.append.mp (Markup.Legal.append.mp legal).2).2
    rw [assignment, Markup.Legal.append, Markup.Legal.append, Markup.Legal.cons,
      Markup.Legal.cons, Markup.Legal.append] at behind
    exact legal_of_escaped behind.1.2.2.2.1
  · intro legal
    obtain ⟨-, -, -, -, one, within, passed⟩ := read_untitledForm
    obtain ⟨root, accepted, one⟩ := exists_ok_of_map (toOption_eq_some.mp one)
    obtain ⟨expanded, done⟩ := expand_escaped name.toList [] false .start
    have untitled : readForms (String.ofList untitledForm) = .ok (outermostForms root) := by
      rw [readForms_eq_ok, String.toList_ofList]
      exact ⟨within, root, accepted, rfl⟩
    obtain ⟨forms, found, many⟩ := readForms_with_value holdsTitle untitled
      (List.all_eq_true.mp passed) (by exact ⟨nofun, nofun, nofun⟩) (valueText_escaped legal)
      ⟨by decide, by decide⟩ done
    rw [one] at many
    obtain ⟨form, rfl⟩ := List.length_eq_one_iff.mp many
    exact ⟨form, found⟩

/-- The manifest of a new project is read with the name of the project in it exactly when the name
is not blank and has no quotes, backslashes and control characters. Its form is read as one form
exactly when documents may hold every character of the name. -/
theorem starter_files_read_back (name : String) :
    ((∃ manifest, Manifest.read (starterManifest name) = .ok manifest ∧ manifest.name = name) ↔
        (∀ c ∈ name.toList, Toml.standsForItself c = true) ∧ Manifest.isBlankText name = false) ∧
      ((∃ form, readForms (starterForm name) = .ok [form]) ↔
        ∀ c ∈ name.toList, Markup.isDocumentCharacter c = true) :=
  ⟨Manifest.starterManifest_iff name, readForms_starterForm name⟩

def createOn (name : String) : Except Failure Unit × Session :=
  (create name : Task (StateM Session) Unit).run.run ⟨⟨.directory [], []⟩, "", ""⟩

/-- A quote in the name ends the text that should hold it. The project is made and its form is read,
but no manifest of that name. -/
theorem quoted_name_breaks_manifest :
    (createOn "q\"uote").1.toOption = some () ∧
      (∃ form, readForms (starterForm "q\"uote") = .ok [form]) ∧
      ¬∃ manifest, Manifest.read (starterManifest "q\"uote") = .ok manifest ∧
        manifest.name = "q\"uote" := by
  have made : (createOn "q\"uote").1.toOption = some () := by
    decide +kernel
  refine ⟨made, (readForms_starterForm _).mpr (by decide), ?_⟩
  rw [Manifest.starterManifest_iff]
  rintro ⟨plain, -⟩
  exact absurd (plain '"' (by decide)) (by decide)

end Workspace
end Formwright
