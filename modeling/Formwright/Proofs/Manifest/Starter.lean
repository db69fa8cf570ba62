import Formwright.Proofs.Effects
import Formwright.Proofs.Manifest.Reading
import Formwright.Proofs.Toml.Lines
import Formwright.Workspace.Starter

/-!
The manifest of a new project. The name of the project stands in it between quotes as it is, so it is
read back only if every character of it stands for itself there.
-/

namespace Formwright

open Toml

namespace Workspace

theorem toList_joinLines (lines : List String) : (joinLines lines).toList = written lines := by
  rw [joinLines, String.toList_join, List.flatMap_map, written]
  simp only [String.toList_append]
  rfl

def linesBehindName : List String := ["", "[input]",
    "# Directory holding legacy form markup (.xfdl) and scripts (.xjs)", "dir = \"legacy\"", "",
    "[output]", "dir = \"generated\"", "components_dir = \"src/components\"",
    "# \"tsx\" or \"jsx\"", "format = \"tsx\"", "",
    "# Project-specific mapping rules take precedence over the built-in table.", "#",
    "# [[mappings]]", "# kind = \"MaskEdit\"", "# component = \"MaskedInput\"",
    "# properties = \x7b value = \"value\", mask = \"mask\", enabled = \"disabled\" \x7d",
    "# defaults = \x7b mask = \"####-##-##\" \x7d", "# events = \x7b onchanged = \"onChange\" \x7d"]

set_option maxRecDepth 2000 in
theorem quotesApart_behindName : ∀ line ∈ linesBehindName, QuotesApart line.toList := by
  simp only [linesBehindName, List.forall_mem_cons]
  and_intros
  all_goals first | exact .ofList (by decide) | exact List.forall_mem_nil _

theorem voidLines_behindName :
    ((linesBehindName.drop 2).take 1).all isVoidLine = true ∧
      ((linesBehindName.drop 8).take 1).all isVoidLine = true ∧
      ((linesBehindName.drop 10).take 9).all isVoidLine = true := by
  simp only [linesBehindName, List.drop_succ_cons, List.drop_zero, List.take_succ_cons,
    List.take_zero, List.all_cons, Bool.and_eq_true]
  and_intros
  all_goals first | exact isVoidLine_comment (by decide) | rfl

theorem toList_starterManifest (name : String) :
    (starterManifest name).toList =
      '[' :: ("project".toList ++ ']' :: '\n' :: ("name".toList ++ (" = \"".toList ++
        (name.toList ++ '"' :: '\n' :: written linesBehindName)))) := by
  have whole : starterManifest name =
      joinLines ("[project]" :: ("name = \"" ++ name ++ "\"") :: linesBehindName) := rfl
  rw [whole, toList_joinLines, written_cons, written_cons, String.toList_append, String.toList_append]
  generalize written linesBehindName = behind
  simp

def project (content : String) : String × Draft :=
  ("project", .table .header [("name", .closed (.text content))])

theorem unmarked_starterManifest (name : String) :
    (starterManifest name).toList.head? ≠ some '\uFEFF' := by
  rw [toList_starterManifest, List.head?_cons]
  decide

theorem run_starterManifest (name : String) (fuel : Nat) :
    Reading.run (fuel + 2) ⟨[], []⟩ (starterManifest name).toList =
      (readText ('"' :: (name.toList ++ '"' :: '\n' :: written linesBehindName))).bind
        fun (content, rest) => (endOfLine rest).bind fun next =>
          Reading.run fuel ⟨[project (String.ofList content)], ["project"]⟩ next := by
  have project : BareKey "project".toList := by decide
  have key : BareKey "name".toList := by decide
  rw [toList_starterManifest]
  generalize name.toList ++ '"' :: '\n' :: written linesBehindName = text
  have line : endOfLine ('\n' :: ("name".toList ++ (" = \"".toList ++ text))) =
      some ("name".toList ++ (" = \"".toList ++ text)) := rfl
  rw [Reading.run_header project line]
  simp only [String.ofList_toList]
  have opened : Draft.openTable "project" [] = some [("project", .table .header [])] := rfl
  rw [opened]
  dsimp only [Option.bind]
  rw [Reading.run_text key]
  simp only [String.ofList_toList]
  rfl

def inputSection : String × Draft := ("input", .table .header [("dir", .closed (.text "legacy"))])

def outputSection : String × Draft :=
  ("output", .table .header [("dir", .closed (.text "generated")),
    ("components_dir", .closed (.text "src/components")), ("format", .closed (.text "tsx"))])

theorem run_behindName (content : String) :
    Reading.run 7 ⟨[project content], ["project"]⟩ (written (linesBehindName.drop 1)) =
      some ⟨[project content, inputSection, outputSection], ["output"]⟩ := by
  have input : BareKey "input".toList := by decide
  have output : BareKey "output".toList := by decide
  have directory : BareKey "dir".toList := by decide
  have components : BareKey "components_dir".toList := by decide
  have format : BareKey "format".toList := by decide
  have line := endOfLine_written
  obtain ⟨directoryNote, formatNote, rulesNote⟩ := voidLines_behindName
  calc
    _ = Reading.run 6 ⟨[project content, ("input", .table .header [])], ["input"]⟩
          (written (linesBehindName.drop 3)) :=
      Reading.run_headerLine input (by rfl) (line _ 1 directoryNote (by rfl)) (by rfl) 6
    _ = Reading.run 5 ⟨[project content, inputSection], ["input"]⟩
          (written (linesBehindName.drop 5)) :=
      Reading.run_textLine "legacy" directory (by rfl) (List.all_eq_true.mp (by decide))
        (line _ 1 (by rfl) (by rfl)) (by rfl) 5
    _ = Reading.run 4 ⟨[project content, inputSection, ("output", .table .header [])], ["output"]⟩
          (written (linesBehindName.drop 6)) :=
      Reading.run_headerLine output (by rfl) (line _ 0 (by rfl) (by rfl)) (by rfl) 4
    _ = Reading.run 3 ⟨[project content, inputSection,
          ("output", .table .header [("dir", .closed (.text "generated"))])], ["output"]⟩
          (written (linesBehindName.drop 7)) :=
      Reading.run_textLine "generated" directory (by rfl) (List.all_eq_true.mp (by decide))
        (line _ 0 (by rfl) (by rfl)) (by rfl) 3
    _ = Reading.run 2 ⟨[project content, inputSection,
          ("output", .table .header [("dir", .closed (.text "generated")),
            ("components_dir", .closed (.text "src/components"))])], ["output"]⟩
          (written (linesBehindName.drop 9)) :=
      Reading.run_textLine "src/components" components (by rfl) (List.all_eq_true.mp (by decide))
        (line _ 1 formatNote (by rfl)) (by rfl) 2
    _ = Reading.run 1 ⟨[project content, inputSection, outputSection], ["output"]⟩ (written []) :=
      Reading.run_textLine "tsx" format (by rfl) (List.all_eq_true.mp (by decide))
        (line _ 9 rulesNote (by rfl)) (by rfl) 1
    _ = some ⟨[project content, inputSection, outputSection], ["output"]⟩ := rfl

theorem sorted_sections (project input output : Value) :
    Draft.sortByKey [("project", project), ("input", input), ("output", output)] =
      [("input", input), ("output", output), ("project", project)] := by
  simp [Draft.sortByKey, List.mergeSort, List.MergeSort.Internal.splitInTwo]

theorem sorted_output (directory components format : Value) :
    Draft.sortByKey [("dir", directory), ("components_dir", components), ("format", format)] =
      [("components_dir", components), ("dir", directory), ("format", format)] := by
  simp [Draft.sortByKey, List.mergeSort, List.MergeSort.Internal.splitInTwo]

theorem sorted_single (key : String) (value : Value) :
    Draft.sortByKey [(key, value)] = [(key, value)] := List.mergeSort_singleton _

theorem parsed_starterManifest {name : String}
    (plain : ∀ c ∈ name.toList, standsForItself c = true) :
    Toml.read (starterManifest name) =
      some [("input", .table [("dir", .text "legacy")]),
        ("output", .table [("components_dir", .text "src/components"),
          ("dir", .text "generated"), ("format", .text "tsx")]),
        ("project", .table [("name", .text name)])] := by
  have enough : (starterManifest name).toList.length + 1 =
      7 + ((starterManifest name).toList.length - 8) + 2 := by
    rw [toList_starterManifest]
    have word : "project".toList.length = 7 := rfl
    rw [List.length_cons, List.length_append, word, List.length_cons]
    omega
  have line : endOfLine ('\n' :: written linesBehindName) = some (written (linesBehindName.drop 1)) :=
    endOfLine_written linesBehindName 1 rfl rfl
  rw [read_unmarked (unmarked_starterManifest name), enough, run_starterManifest, readText_plain plain]
  dsimp only [Option.bind]
  rw [line, String.ofList_toList]
  dsimp only
  rw [Reading.run_more (run_behindName name)]
  simp only [Option.map, Draft.values, project, inputSection, outputSection, Draft.value,
    sorted_sections, sorted_output, sorted_single]

end Workspace

namespace Manifest

/-- The manifest that a new project is meant to have. -/
theorem read_starterManifest {name : String}
    (plain : ∀ c ∈ name.toList, standsForItself c = true) (filled : isBlankText name = false) :
    read (Workspace.starterManifest name) = .ok { name } := by
  have apart : ∀ extension ∈ ({} : Input).markupExtensions,
      listsExtension ({} : Input).scriptExtensions extension = false := by
    decide
  exact read_eq_ok.mpr ⟨_, Workspace.parsed_starterManifest plain, rfl,
    ⟨filled, List.cons_ne_nil _ _, List.cons_ne_nil _ _, apart, nofun⟩⟩

/-! ## The name that is read -/

theorem name_of_shapeProject {entries : List (String × Toml.Value)} {name : String}
    (shaped : shapeProject (.table entries) = .ok name) :
    ∃ value, ("name", value) ∈ entries ∧ shapeText value = .ok name := by
  have folded (shape : RecordShape (Option String))
      (takes : ∀ {given key value after}, shape.take given key value = .ok after →
        after = given ∨ key = "name" ∧ ∃ name, shapeText value = .ok name ∧ after = some name)
      {start result : Option String} (done : ofEntries shape start entries = .ok result) :
      result = start ∨ ∃ value, ("name", value) ∈ entries ∧
        ∃ name, shapeText value = .ok name ∧ result = some name := by
    clear shaped
    induction entries generalizing start with
    | nil =>
      cases done
      exact .inl rfl
    | cons entry later ih =>
      obtain ⟨key, value⟩ := entry
      obtain ⟨middle, taken, done⟩ := exists_ok_of_bind done
      obtain rfl | ⟨other, mem, named⟩ := ih done
      · obtain same | ⟨rfl, named⟩ := takes taken
        · exact .inl same
        · exact .inr ⟨value, List.mem_cons_self, named⟩
      · exact .inr ⟨other, List.mem_cons_of_mem _ mem, named⟩
  obtain ⟨given, record, required⟩ := exists_ok_of_bind shaped
  have found := folded _ (fun {given key value after} taken => by
    dsimp only at taken
    split at taken
    next same =>
      obtain ⟨name, shaped, same'⟩ := exists_ok_of_bind taken
      cases same'
      exact .inr ⟨same, name, shaped, rfl⟩
    next =>
      cases taken
      exact .inl rfl) record
  obtain rfl | ⟨value, mem, name, shaped, rfl⟩ := found
  · cases required
  · cases required
    exact ⟨value, mem, shaped⟩

theorem name_of_takeSection {manifest after : PartialManifest} {key : String} {value : Toml.Value}
    (taken : takeSection manifest key value = .ok after) : after.name = manifest.name ∨
      key = "project" ∧ ∃ name, shapeProject value = .ok name ∧ after.name = some name := by
  rw [takeSection] at taken
  split at taken
  next isProject =>
    obtain ⟨name, shaped, same⟩ := exists_ok_of_bind taken
    cases same
    exact .inr ⟨isProject, name, shaped, rfl⟩
  next =>
    split at taken
    next =>
      obtain ⟨_, -, same⟩ := exists_ok_of_bind taken
      cases same
      exact .inl rfl
    next =>
      split at taken
      next =>
        obtain ⟨_, -, same⟩ := exists_ok_of_bind taken
        cases same
        exact .inl rfl
      next =>
        split at taken
        next =>
          obtain ⟨_, -, same⟩ := exists_ok_of_bind taken
          cases same
          exact .inl rfl
        next =>
          cases taken
          exact .inl rfl

theorem name_of_ofDocument {entries : List (String × Toml.Value)} {manifest : Manifest}
    (shaped : ofDocument entries = .ok manifest) :
    ∃ value, ("project", value) ∈ entries ∧ shapeProject value = .ok manifest.name := by
  have folded {start after : PartialManifest}
      (done : entries.foldlM (fun manifest entry => takeSection manifest entry.1 entry.2) start =
        .ok after) : after.name = start.name ∨ ∃ value, ("project", value) ∈ entries ∧
          ∃ name, shapeProject value = .ok name ∧ after.name = some name := by
    clear shaped
    induction entries generalizing start with
    | nil =>
      cases done
      exact .inl rfl
    | cons entry later ih =>
      obtain ⟨key, value⟩ := entry
      rw [List.foldlM_cons] at done
      obtain ⟨middle, taken, done⟩ := exists_ok_of_bind done
      obtain same | ⟨other, mem, named⟩ := ih done
      · rw [same]
        obtain same | ⟨rfl, named⟩ := name_of_takeSection taken
        · exact .inl same
        · exact .inr ⟨value, List.mem_cons_self, named⟩
      · exact .inr ⟨other, List.mem_cons_of_mem _ mem, named⟩
  obtain ⟨partial_, done, shaped⟩ := exists_ok_of_bind shaped
  obtain none | ⟨value, mem, name, isName, found⟩ := folded done
  · rw [none] at shaped
    cases shaped
  · rw [found] at shaped
    cases shaped
    exact ⟨value, mem, isName⟩

/-- The name of a project, once it is read, is the name of the manifest. -/
theorem name_of_settled {entries : Entries Draft} {content : String} {manifest : Manifest}
    (settled : Draft.Settled (.text content) ["project", "name"] entries)
    (shaped : ofDocument (Draft.sortByKey (Draft.values entries)) = .ok manifest) :
    manifest.name = content := by
  obtain ⟨value, mem, shaped⟩ := name_of_ofDocument shaped
  obtain ⟨inner, rfl, settled⟩ := settled.table_eq mem
  obtain ⟨value, mem, shaped⟩ := name_of_shapeProject shaped
  rw [settled.value_eq mem] at shaped
  cases shaped
  rfl

theorem plain_of_read {name : String} {manifest : Manifest}
    (taken : read (Workspace.starterManifest name) = .ok manifest) (same : manifest.name = name) :
    (∀ c ∈ name.toList, standsForItself c = true) ∧ isBlankText name = false := by
  obtain ⟨entries, parsed, shaped, sound⟩ := read_eq_ok.mp taken
  refine ⟨?_, same ▸ sound.named⟩
  have enough : (Workspace.starterManifest name).toList.length + 1 =
      ((Workspace.starterManifest name).toList.length - 1) + 2 := by
    rw [Workspace.toList_starterManifest, List.length_cons]
    omega
  rw [read_unmarked (Workspace.unmarked_starterManifest name), enough,
    Workspace.run_starterManifest] at parsed
  obtain ⟨final, run, rfl⟩ := Option.map_eq_some_iff.mp parsed
  obtain ⟨⟨content, rest⟩, quoted, run⟩ := Option.bind_eq_some_iff.mp run
  obtain ⟨next, -, run⟩ := Option.bind_eq_some_iff.mp run
  have settled : Draft.Settled (.text (String.ofList content)) ["project", "name"] final.root :=
    Reading.settled_run run (.inside (List.pairwise_singleton _ _) rfl
      (.here (List.pairwise_singleton _ _) rfl))
  have unclosed : ¬closingQuotes <:+: '"' :: '\n' :: written Workspace.linesBehindName :=
    QuotesApart.unclosed (List.IsChain.cons_cons (fun _ => by decide)
      (quotesApart_written Workspace.quotesApart_behindName))
  obtain plain | shorter := readText_length unclosed quoted
  · exact plain
  · rw [← same, name_of_settled settled shaped, String.toList_ofList] at shorter
    exact absurd shorter (Nat.lt_irrefl _)

/-- The manifest of a new project is read, with the name of the project in it, exactly when the name
is not blank and every character of it stands for itself between quotes. -/
theorem starterManifest_iff (name : String) :
    (∃ manifest, read (Workspace.starterManifest name) = .ok manifest ∧ manifest.name = name) ↔
      (∀ c ∈ name.toList, standsForItself c = true) ∧ isBlankText name = false := by
  constructor
  · rintro ⟨manifest, taken, same⟩
    exact plain_of_read taken same
  · rintro ⟨plain, filled⟩
    exact ⟨{ name }, read_starterManifest plain filled, rfl⟩

end Manifest
end Formwright
