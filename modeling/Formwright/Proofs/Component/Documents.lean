import Formwright.Proofs.Component.Warnings
import Formwright.Proofs.Entries

/-!
From documents and scripts to an outcome. Each document is read on its own, so one that cannot be
read takes nothing away from the others.
-/

namespace Formwright.Batch

def formsOf (document : String × String) : List Form :=
  match readForms document.2 with
  | .ok forms => forms
  | .error _ => []

def skippedOf (document : String × String) : Option Skipped :=
  match readForms document.2 with
  | .ok _ => none
  | .error error => some ⟨document.1, error.message⟩

theorem addDocument_eq (batch : Batch) (document : String × String) :
    batch.addDocument document =
      ⟨batch.forms ++ formsOf document, batch.handlers,
        batch.skipped ++ (skippedOf document).toList⟩ := by
  rw [addDocument, formsOf, skippedOf]
  cases readForms document.2 with
  | ok forms => simp
  | error error => simp

theorem foldl_addDocument (batch : Batch) (documents : Entries String) :
    documents.foldl addDocument batch =
      ⟨batch.forms ++ documents.flatMap formsOf, batch.handlers,
        batch.skipped ++ documents.filterMap skippedOf⟩ := by
  induction documents generalizing batch with
  | nil => simp
  | cons document later ih =>
    rw [List.foldl_cons, ih, addDocument_eq, List.flatMap_cons, List.filterMap_cons]
    cases skippedOf document <;> simp

theorem foldl_addScript (batch : Batch) (scripts : Entries String) :
    scripts.foldl addScript batch =
      { batch with
        handlers := Entries.insertAll batch.handlers
          (scripts.flatMap fun script => Script.handlers script.2) } := by
  induction scripts generalizing batch with
  | nil => rfl
  | cons script later ih =>
    rw [List.foldl_cons, ih, addScript, List.flatMap_cons, Entries.insertAll, Entries.insertAll,
      Entries.insertAll, List.foldl_append]

def handlersOf (scripts : Entries String) : Entries String :=
  Entries.ofPairs (scripts.flatMap fun script => Script.handlers script.2)

theorem ofSources_eq (documents scripts : Entries String) :
    ofSources documents scripts =
      ⟨documents.flatMap formsOf, handlersOf scripts, documents.filterMap skippedOf⟩ := by
  rw [ofSources, foldl_addDocument, foldl_addScript]
  rfl

theorem find?_handlersOf (scripts : Entries String) (name : String) :
    Entries.find? (handlersOf scripts) name =
      scripts.reverse.findSome? fun script => Entries.find? (Script.handlers script.2) name :=
  Entries.find?_ofPairs_flatMap scripts (fun script => Script.handlers script.2)
    (fun _ => Entries.nodup_keys_ofPairs _) name

theorem keys_handlersOf (scripts : Entries String) :
    Entries.keys (handlersOf scripts) =
      (scripts.flatMap fun script => Entries.keys (Script.handlers script.2)).eraseDups := by
  rw [handlersOf, Entries.keys_ofPairs, List.map_flatMap]
  rfl

end Formwright.Batch

namespace Formwright.Component

open Mapping Batch

variable (table : Table) (options : Options)

def skippedWarnings (documents : Entries String) : List Warning :=
  (documents.filterMap skippedOf).map fun input => .skipped input.file input.message

def skippedLines (documents : Entries String) : List String :=
  documents.filterMap fun document =>
    match readForms document.2 with
    | .ok _ => none
    | .error error => some ("skipped " ++ document.1 ++ ": " ++ error.message)

theorem message_skippedWarnings (documents : Entries String) :
    (skippedWarnings documents).map Warning.message = skippedLines documents := by
  rw [skippedWarnings, skippedLines, List.map_filterMap, List.map_filterMap]
  apply List.filterMap_congr
  intro document _
  rw [skippedOf]
  cases readForms document.2 <;> rfl

theorem skippedWarnings_append (first second : Entries String) :
    skippedWarnings (first ++ second) = skippedWarnings first ++ skippedWarnings second := by
  rw [skippedWarnings, List.filterMap_append, List.map_append]
  rfl

theorem convertTexts_eq (documents scripts : Entries String) :
    convertTexts table options documents scripts =
      (⟨[], [], skippedWarnings documents⟩ : Outcome).append
        (convertBatch table options ⟨documents.flatMap formsOf, handlersOf scripts, []⟩) := by
  rw [convertTexts, ofSources_eq, convertBatch_skipped]
  rfl

section Bad

variable {file text : String} {error : MarkupError} (bad : readForms text = .error error)

include bad

theorem flatMap_formsOf_bad (before after : Entries String) :
    (before ++ (file, text) :: after).flatMap formsOf = (before ++ after).flatMap formsOf := by
  have nothing : formsOf (file, text) = [] := by
    rw [formsOf, bad]
  rw [List.flatMap_append, List.flatMap_cons, nothing, List.nil_append, List.flatMap_append]

theorem skippedWarnings_bad (before after : Entries String) :
    skippedWarnings (before ++ (file, text) :: after) =
      skippedWarnings before ++ .skipped file error.message :: skippedWarnings after := by
  have entry : skippedOf (file, text) = some ⟨file, error.message⟩ := by
    rw [skippedOf, bad]
  rw [skippedWarnings_append]
  congr 1
  rw [skippedWarnings, List.filterMap_cons_some entry]
  rfl

end Bad

theorem skipped_notMem_elementLosses (setting : Setting) (element : Element)
    (file message : String) : .skipped file message ∉ elementLosses setting element := by
  intro mem
  rw [elementLosses] at mem
  split at mem
  next => cases mem
  next =>
    split at mem
    next => cases List.mem_singleton.mp mem
    next rule _ =>
      obtain ⟨event, _, lost⟩ := List.mem_filterMap.mp mem
      rw [eventLoss] at lost
      split at lost <;> cases lost

/-- A form is no reason to skip an input. -/
theorem skipped_notMem_formLosses (handlers : Entries String) (form : Form)
    (file message : String) : .skipped file message ∉ formLosses table handlers form := by
  rw [formLosses]
  split
  next =>
    intro mem
    obtain ⟨element, _, told⟩ := List.mem_flatMap.mp mem
    exact skipped_notMem_elementLosses _ element file message told
  next => exact List.not_mem_nil

/-- A document that cannot be read is skipped and changes nothing else: wherever it stands among the
others, the same units and the same errors come out, and one more warning, which names the document
and the reason and stands among those for other skipped documents where the document stands among
the others. From any documents come the forms of those that can be read, in order, and one entry for
each of the others. The handlers come from the scripts alone, each name where it is declared first,
with the body from the last script that declares it. -/
theorem bad_document_is_contained (before after scripts : Entries String) {file text : String}
    {error : MarkupError} (bad : readForms text = .error error) :
    let plain := convertTexts table options (before ++ after) scripts
    let extended := convertTexts table options (before ++ (file, text) :: after) scripts
    let lines (warnings : List Warning) := warnings.map Warning.message
    (extended.success = plain.success ∧ extended.units = plain.units ∧
      extended.errors = plain.errors) ∧
    (∃ formWarnings,
      plain.warnings = skippedWarnings before ++ (skippedWarnings after ++ formWarnings) ∧
      extended.warnings =
        skippedWarnings before ++
          .skipped file error.message :: (skippedWarnings after ++ formWarnings) ∧
      lines plain.warnings = skippedLines before ++ (skippedLines after ++ lines formWarnings) ∧
      lines extended.warnings =
        skippedLines before ++
          ("skipped " ++ file ++ ": " ++ error.message) ::
            (skippedLines after ++ lines formWarnings) ∧
      ∀ input : Skipped, .skipped input.file input.message ∉ formWarnings) ∧
    ∀ documents,
      (ofSources documents scripts).forms = documents.flatMap formsOf ∧
      (ofSources documents scripts).skipped = documents.filterMap skippedOf ∧
      (ofSources documents scripts).handlers = (ofSources [] scripts).handlers ∧
      Entries.keys (ofSources documents scripts).handlers =
        (scripts.flatMap fun script => Entries.keys (Script.handlers script.2)).eraseDups ∧
      ∀ name, Entries.find? (ofSources documents scripts).handlers name =
        scripts.reverse.findSome? fun script =>
          Entries.find? (Script.handlers script.2) name := by
  intro plain extended lines
  generalize kept : convertBatch table options
    ⟨(before ++ after).flatMap formsOf, handlersOf scripts, []⟩ = outcome
  have without : plain =
      ⟨outcome.units, outcome.errors,
        skippedWarnings before ++ (skippedWarnings after ++ outcome.warnings)⟩ := by
    rw [show plain = _ from convertTexts_eq .., kept, skippedWarnings_append]
    simp only [Outcome.append, List.nil_append, List.append_assoc]
  have added : extended =
      ⟨outcome.units, outcome.errors,
        skippedWarnings before ++
          .skipped file error.message :: (skippedWarnings after ++ outcome.warnings)⟩ := by
    rw [show extended = _ from convertTexts_eq .., flatMap_formsOf_bad bad, kept,
      skippedWarnings_bad bad]
    simp only [Outcome.append, List.nil_append, List.append_assoc, List.cons_append]
  rw [without, added]
  refine ⟨⟨rfl, rfl, rfl⟩, ⟨outcome.warnings, rfl, rfl, ?_, ?_, ?_⟩, ?_⟩
  next => simp only [lines, List.map_append, message_skippedWarnings]
  next =>
    simp only [lines, List.map_append, List.map_cons, message_skippedWarnings,
      Warning.message_skipped]
  next =>
    intro input mem
    rw [← kept, warnings_of_convertBatch] at mem
    obtain ⟨form, _, told⟩ := List.mem_flatMap.mp mem
    exact skipped_notMem_formLosses table _ form _ _ told
  next =>
    intro documents
    rw [ofSources_eq, ofSources_eq]
    exact ⟨rfl, rfl, rfl, keys_handlersOf scripts, find?_handlersOf scripts⟩

/-- A document with a tag that is never closed, between two others. -/
theorem unclosedTag_is_contained :
    let broken := "<Form id='lost'><Button></Form>"
    let error : MarkupError :=
      .malformed (.mismatchedTag "Button" "Form" ⟨1, 25⟩)
    let before := [("a.xfdl", "<Form id='first'/>")]
    let after := [("c.xfdl", "<Forms><Form id='second'/><Form id='third'/></Forms>")]
    let plain := convertTexts .standard {} (before ++ after) []
    let extended := convertTexts .standard {} (before ++ ("b.xfdl", broken) :: after) []
    readForms broken = .error error ∧ extended.units = plain.units ∧
      extended.warnings.map Warning.message =
        ["skipped b.xfdl: malformed markup: expected 'Button' tag, not 'Form' at 1:25"] := by
  intro broken error before after plain extended
  have bad : readForms broken = .error error := by
    have told : (match readForms broken with
        | .ok _ => none
        | .error cause => some cause) = some error := by
      decide +kernel
    split at told
    next => cases told
    next cause given =>
      rw [given, Option.some.inj told]
  obtain ⟨⟨_, units, _⟩, ⟨others, _, _, without, added, _⟩, _⟩ :=
    bad_document_is_contained .standard {} before after [] bad
  have quiet : plain.warnings.map Warning.message = [] := by decide +kernel
  rw [show plain.warnings.map Warning.message = _ from without] at quiet
  obtain ⟨first, later⟩ := List.append_eq_nil_iff.mp quiet
  refine ⟨bad, units, ?_⟩
  rw [show extended.warnings.map Warning.message = _ from added, first, later]
  decide +kernel

end Formwright.Component
