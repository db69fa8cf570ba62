import Formwright.Proofs.Workspace.Keys
import Formwright.Proofs.Workspace.Walk
import Formwright.Workspace.Conversion
import Mathlib.Data.List.Forall2

/-!
Converting a project on disks that hold the same things in another order. The inputs are the same,
and so are the outcome and what is written.
-/

namespace Formwright

namespace Workspace

open Component Session

/-! ## What does not depend on the order -/

theorem blind_readInput (path : Path) : Blind (readInput path : Task (StateM Session) String) := by
  apply blind_bind (blind_readText path)
  intro result
  split
  next => exact blind_pure _
  next => exact blind_throw _

theorem blind_readInputs (files : List InputFile) :
    Blind (readInputs files : Task (StateM Session) _) := by
  induction files with
  | nil => exact blind_pure _
  | cons file later ih =>
    apply blind_bind (blind_readInput file.path)
    intro text
    exact blind_bind ih fun _ => blind_pure _

theorem blind_writeFile (file : Path) (text : String) :
    Blind (writeFile file text : Task (StateM Session) Unit) := by
  apply blind_bind (blind_write file text.toUTF8)
  intro result
  split
  next => exact blind_pure _
  next => exact blind_throw _

theorem blind_storeUnit (directory : Path) (unit : CodeUnit) :
    Blind (storeUnit directory unit : Task (StateM Session) Path) := by
  have written : Blind (do
      writeFile (unitFile directory unit) unit.code
      return unitFile directory unit : Task (StateM Session) Path) :=
    blind_bind (blind_writeFile _ _) fun _ => blind_pure _
  delta storeUnit
  dsimp only
  split
  next parent _ =>
    apply blind_bind (blind_makeDirectories parent)
    intro result
    split
    next => exact blind_bind (blind_throw _) fun _ => written
    next => exact written
  next => exact written

theorem blind_storeUnits (directory : Path) (units : List CodeUnit) :
    Blind (storeUnits directory units : Task (StateM Session) _) := by
  induction units with
  | nil => exact blind_pure _
  | cons unit later ih =>
    apply blind_bind (blind_storeUnit directory unit)
    intro target
    exact blind_bind ih fun _ => blind_pure _

def convertInputs {m : Type → Type} [Monad m] [Host m] (outputDirectory : Path)
    (manifest : Manifest) (write : Bool) (inputs : Inputs) : Task m Report := do
  let documents ← readInputs inputs.markup
  let scripts ← readInputs inputs.scripts
  let outcome := Component.convertTexts manifest.table (optionsOf manifest)
    (Entries.ofPairs documents) (Entries.ofPairs scripts)
  let written ← if write then storeUnits outputDirectory outcome.units else pure []
  return ⟨inputs.size, outputDirectory, written, outcome⟩

theorem convertProject_eq {m : Type → Type} [Monad m] [Host m] (root : Path) (manifest : Manifest)
    (write : Bool) :
    convertProject (m := m) root manifest write =
      findInputs root manifest.input >>=
        convertInputs (root.join ⟨manifest.output.directory⟩) manifest write := rfl

theorem blind_convertInputs (outputDirectory : Path) (manifest : Manifest) (write : Bool)
    (inputs : Inputs) :
    Blind (convertInputs outputDirectory manifest write inputs : Task (StateM Session) Report) := by
  apply blind_bind (blind_readInputs inputs.markup)
  intro documents
  apply blind_bind (blind_readInputs inputs.scripts)
  intro scripts
  dsimp only
  cases write with
  | false => exact blind_pure _
  | true => exact blind_bind (blind_storeUnits _ _) fun _ => blind_pure _

/-! ## What is read -/

def Reads (disk : Disk) : List InputFile → Entries String → Prop :=
  List.Forall₂ fun file pair => pair.1 = file.key ∧ disk.read file.path = .ok pair.2.toUTF8

theorem Reads.keys_eq {disk : Disk} {files : List InputFile} {texts : Entries String}
    (reads : Reads disk files texts) : Entries.keys texts = files.map (·.key) := by
  induction reads with
  | nil => rfl
  | cons same _ ih =>
    rw [Entries.keys, List.map_cons, List.map_cons, same.1]
    exact congrArg _ ih

theorem run_readInput (session : Session) (path : Path) :
    (readInput path : Task (StateM Session) String).run.run session =
      (match textAt session.disk path with
        | .ok text => .ok text
        | .error cause => .error (.notRead path cause), session) := by
  rw [readInput, run_bind, run_readText]
  cases textAt session.disk path <;> rfl

theorem ok_of_readInputs {files : List InputFile} {session later : Session}
    {texts : List (String × String)}
    (ended : (readInputs files : Task (StateM Session) _).run.run session = (.ok texts, later)) :
    later = session ∧ Reads session.disk files texts := by
  induction files generalizing texts with
  | nil =>
    cases ended
    exact ⟨rfl, .nil⟩
  | cons file files ih =>
    obtain ⟨text, middle, here, ended⟩ := ok_of_bind ended
    obtain ⟨rest, last, below, ended⟩ := ok_of_bind ended
    cases ended
    rw [run_readInput] at here
    split at here
    next text found =>
      cases here
      obtain ⟨rfl, reads⟩ := ih below
      exact ⟨rfl, .cons ⟨rfl, textAt_eq_ok.mp found⟩ reads⟩
    next => cases here

theorem reads_ofPairs {files : List InputFile} (sorted : Inputs.IsSorted files)
    {session later : Session} {texts : List (String × String)}
    (ended : (readInputs files : Task (StateM Session) _).run.run session = (.ok texts, later)) :
    Reads session.disk files (Entries.ofPairs texts) := by
  have reads := (ok_of_readInputs ended).2
  have distinct : (texts.map Prod.fst).Nodup := by
    have keys : texts.map Prod.fst = files.map (·.key) := reads.keys_eq
    rw [keys]
    refine List.pairwise_map.mpr (sorted.imp fun {first second} below same => ?_)
    rw [same] at below
    exact List.lt_irrefl _ below
  rw [Entries.ofPairs_of_nodup distinct]
  exact reads

/-- A conversion reads every input once, and counts what it has read. -/
theorem ok_of_convertInputs {outputDirectory : Path} {manifest : Manifest} {write : Bool}
    {inputs : Inputs} {session later : Session} {report : Report}
    (ended : (convertInputs outputDirectory manifest write inputs :
      Task (StateM Session) Report).run.run session = (.ok report, later)) :
    ∃ documents scripts,
      (readInputs inputs.markup : Task (StateM Session) _).run.run session =
        (.ok documents, session) ∧
      (readInputs inputs.scripts : Task (StateM Session) _).run.run session =
        (.ok scripts, session) ∧
      report.outcome = convertTexts manifest.table (optionsOf manifest)
        (Entries.ofPairs documents) (Entries.ofPairs scripts) ∧
      report.filesRead = inputs.size := by
  obtain ⟨documents, middle, markup, afterMarkup⟩ := ok_of_bind ended
  obtain ⟨rfl, -⟩ := ok_of_readInputs markup
  obtain ⟨scripts, last, bodies, afterScripts⟩ := ok_of_bind afterMarkup
  obtain ⟨rfl, -⟩ := ok_of_readInputs bodies
  clear ended afterMarkup
  cases write with
  | false =>
    cases afterScripts
    exact ⟨documents, scripts, markup, bodies, rfl, rfl⟩
  | true =>
    obtain ⟨written, _, _, afterUnits⟩ := ok_of_bind afterScripts
    cases afterUnits
    exact ⟨documents, scripts, markup, bodies, rfl, rfl⟩

end Workspace

namespace Inputs

open Disk

/-! ## What is found -/

def listed (inputs : Inputs) : InputKind → List InputFile
  | .markup => inputs.markup
  | .script => inputs.scripts

theorem listed_ofFiles (base : Path) (input : Manifest.Input) (files : List Path)
    (kind : InputKind) : (ofFiles base input files).listed kind = ofKind kind base input files := by
  cases kind <;> rfl

/-- Names lead from the input directory to a regular file, and the ignore file of the project leaves
nothing out on the way. -/
def IsKept (disk : Disk) (root directory : Path) (names : List String) : Prop :=
  ¬(disk.kind? false directory = some .directory ∧
    (rulesOf disk root).verdict directory true = .ignored) ∧
  ∃ place item content, disk.find true directory = .ok (.taken place item) ∧
    Found (rulesOf disk root) directory item names (.file content)

structure AreInputs (disk : Disk) (root : Path) (input : Manifest.Input) (inputs : Inputs) :
    Prop where
  sorted (kind : InputKind) : IsSorted (inputs.listed kind)
  mem (kind : InputKind) (file : InputFile) : file ∈ inputs.listed kind ↔
    ∃ names, IsKept disk root (root.join ⟨input.directory⟩) names ∧
      file = ⟨String.intercalate "/" names, (root.join ⟨input.directory⟩).descend names⟩ ∧
      input.kindOf file.path = some kind
  /-- It does not matter in which order a walk comes to the files. -/
  ordered (order : List Path) : order.Nodup →
    (∀ path, path ∈ order ↔ ∃ names, IsKept disk root (root.join ⟨input.directory⟩) names ∧
      path = (root.join ⟨input.directory⟩).descend names) →
    ofFiles (root.join ⟨input.directory⟩) input order = inputs

section Walk

variable {disk : Disk} {root directory : Path} {place : List String} {item : Item}
  (found : disk.find true directory = .ok (.taken place item)) {files : List Path}
  (lists : ListsInput disk (rulesOf disk root) directory item (.ok files))

include found lists

theorem mem_iff_isKept (path : Path) :
    path ∈ files ↔ ∃ names, IsKept disk root directory names ∧ path = directory.descend names := by
  rw [ListsInput] at lists
  split at lists
  next ignored =>
    cases lists
    refine iff_of_false List.not_mem_nil ?_
    rintro ⟨_, ⟨entered, _⟩, _⟩
    exact entered ignored
  next entered =>
    cases lists with
    | ok listing =>
      rw [listing.mem]
      constructor
      · rintro ⟨names, ⟨content, below⟩, same⟩
        exact ⟨names, ⟨entered, place, item, content, found, below⟩, same⟩
      · rintro ⟨names, ⟨_, _, _, content, again, below⟩, same⟩
        cases found.symm.trans again
        exact ⟨names, ⟨content, below⟩, same⟩

theorem areBelow_of_lists (orderly : disk.top.IsOrderly) : AreBelow directory files := by
  have inside : item.IsOrderly := orderly.at? (fits_of_find found)
  refine ⟨?_, fun path mem => ?_⟩
  · rw [ListsInput] at lists
    split at lists
    next =>
      cases lists
      exact List.nodup_nil
    next =>
      cases lists with
      | ok listing => exact listing.nodup
  · obtain ⟨names, ⟨_, _, _, content, again, below⟩, same⟩ :=
      (mem_iff_isKept found lists path).mp mem
    cases found.symm.trans again
    exact ⟨names, below.areNames inside, same⟩

end Walk

theorem areInputs_ofFiles {disk : Disk} (orderly : disk.top.IsOrderly) {root : Path}
    {input : Manifest.Input} {place : List String} {item : Item}
    (found : disk.find true (root.join ⟨input.directory⟩) = .ok (.taken place item))
    {files : List Path}
    (lists : ListsInput disk (rulesOf disk root) (root.join ⟨input.directory⟩) item (.ok files)) :
    AreInputs disk root input (ofFiles (root.join ⟨input.directory⟩) input files) := by
  have named := named_of_find found
  have areBelow := areBelow_of_lists found lists orderly
  have kept := mem_iff_isKept found lists
  constructor
  · intro kind
    rw [listed_ofFiles]
    exact isSorted_ofKind named areBelow kind
  · intro kind file
    rw [listed_ofFiles, mem_ofKind, kept]
    have key (names : List String)
        (isKept : IsKept disk root (root.join ⟨input.directory⟩) names) :
        keyOf (root.join ⟨input.directory⟩) ((root.join ⟨input.directory⟩).descend names) =
          String.intercalate "/" names := by
      obtain ⟨_, _, _, content, again, below⟩ := isKept
      cases found.symm.trans again
      exact keyOf_descend named (below.areNames (orderly.at? (fits_of_find found)))
    constructor
    · rintro ⟨⟨names, isKept, path⟩, kinds, keys⟩
      refine ⟨names, isKept, ?_, kinds⟩
      rw [← key names isKept, ← path, ← keys]
    · rintro ⟨names, isKept, rfl, kinds⟩
      exact ⟨⟨names, isKept, rfl⟩, kinds, (key names isKept).symm⟩
  · intro order distinct all
    have perm : files.Perm order := by
      rw [List.perm_ext_iff_of_nodup areBelow.nodup distinct]
      exact fun path => (kept path).trans (all path).symm
    exact (ofFiles_perm named areBelow perm).symm

/-- On disks that hold the same things the same inputs are found. -/
theorem exists_run_find {first second : Session} (same : first.SameAs second)
    (orderly : first.disk.top.IsOrderly) (orderlyOther : second.disk.top.IsOrderly) (root : Path)
    (input : Manifest.Input) :
    ∃ result, (find root input : Task (StateM Session) Inputs).run.run first = (result, first) ∧
      (find root input : Task (StateM Session) Inputs).run.run second = (result, second) ∧
      ∀ inputs, result = .ok inputs → AreInputs first.disk root input inputs := by
  obtain ⟨missing, answer⟩ | ⟨place, entries, result, found, lists, answer⟩ :=
    run_find first orderly root input
  · obtain ⟨-, other⟩ | ⟨_, _, _, found, _⟩ := run_find second orderlyOther root input
    · exact ⟨_, answer, other, by rintro _ ⟨⟩⟩
    · rw [kind?_sameAs same.disk, kind?, found] at missing
      exact absurd rfl missing
  · obtain ⟨missing, -⟩ | ⟨_, others, answered, foundOther, listsOther, other⟩ :=
      run_find second orderlyOther root input
    · rw [← kind?_sameAs same.disk, kind?, found] at missing
      exact absurd rfl missing
    · have items : (Item.directory entries).SameAs (.directory others) := by
        obtain ⟨_, lost, _⟩ | ⟨_, free, _⟩ | ⟨_, _, _, one, two, alike⟩ :=
          Disk.find_sameAs same.disk (root.join ⟨input.directory⟩) true
        · cases lost.symm.trans found
        · cases free.symm.trans found
        · cases one.symm.trans found
          cases two.symm.trans foundOther
          exact alike
      rw [← rulesOf_sameAs same.disk] at listsOther
      have agree := lists.agree same.disk items listsOther
      cases agree with
      | error => exact ⟨_, answer, other, by rintro _ ⟨⟩⟩
      | @ok files filesOther perm =>
        have ordered : ofFiles (root.join ⟨input.directory⟩) input files =
            ofFiles (root.join ⟨input.directory⟩) input filesOther :=
          ofFiles_perm (named_of_find found) (areBelow_of_lists found lists orderly) perm
        refine ⟨_, answer, ?_, ?_⟩
        · rw [other]
          exact congrArg (fun inputs => (Except.ok inputs, second)) ordered.symm
        · rintro _ ⟨⟩
          exact areInputs_ofFiles orderly found lists

end Inputs

namespace Workspace

open Component Session

section Found

variable {root : Path} {manifest : Manifest} {write : Bool} {session : Session}

/-- A conversion goes on with the inputs that are found. -/
theorem run_convertProject {inputs : Inputs}
    (found : (Inputs.find root manifest.input : Task (StateM Session) Inputs).run.run session =
      (.ok inputs, session)) :
    (convertProject root manifest write : Task (StateM Session) Report).run.run session =
      (convertInputs (root.join ⟨manifest.output.directory⟩) manifest write inputs :
        Task (StateM Session) Report).run.run session := by
  rw [convertProject_eq, run_bind, findInputs, run_tryCatch, found]

theorem run_convertProject_failed {cause : Failure}
    (failed : (Inputs.find root manifest.input : Task (StateM Session) Inputs).run.run session =
      (.error cause, session)) :
    (convertProject root manifest write : Task (StateM Session) Report).run.run session =
      (.error (.notDiscovered cause), session) := by
  rw [convertProject_eq, run_bind, findInputs, run_tryCatch, failed]
  rfl

end Found

/-- What is read of the inputs, and what is made of it. -/
theorem report_of_convertInputs {outputDirectory : Path} {manifest : Manifest} {write : Bool}
    {inputs : Inputs} {session later : Session} {report : Report}
    (sorted : ∀ kind, Inputs.IsSorted (inputs.listed kind))
    (ended : (convertInputs outputDirectory manifest write inputs :
      Task (StateM Session) Report).run.run session = (.ok report, later)) :
    ∃ documents scripts,
      (readInputs inputs.markup : Task (StateM Session) _).run.run session =
        (.ok documents, session) ∧
      (readInputs inputs.scripts : Task (StateM Session) _).run.run session =
        (.ok scripts, session) ∧
      Reads session.disk inputs.markup (Entries.ofPairs documents) ∧
      Reads session.disk inputs.scripts (Entries.ofPairs scripts) ∧
      report.filesRead = (Entries.ofPairs documents).length + (Entries.ofPairs scripts).length ∧
      report.outcome = convertTexts manifest.table (optionsOf manifest)
        (Entries.ofPairs documents) (Entries.ofPairs scripts) := by
  obtain ⟨documents, scripts, markup, bodies, outcome, size⟩ := ok_of_convertInputs ended
  have documentsRead : Reads session.disk inputs.markup (Entries.ofPairs documents) :=
    reads_ofPairs (sorted .markup) markup
  have scriptsRead : Reads session.disk inputs.scripts (Entries.ofPairs scripts) :=
    reads_ofPairs (sorted .script) bodies
  refine ⟨documents, scripts, markup, bodies, documentsRead, scriptsRead, ?_, outcome⟩
  rw [size, Inputs.size, documentsRead.length_eq, scriptsRead.length_eq]

/-- Disks that hold the same things are converted alike, in whatever order they list them. The
inputs are exactly the files that are kept, sorted by the bytes of their distinct keys; each is read
into an entry of its own, and these are counted and converted. -/
theorem conversion_ignores_order {first second : Session} (same : first.SameAs second)
    (orderly : first.disk.top.IsOrderly) (orderlyOther : second.disk.top.IsOrderly) (root : Path)
    (manifest : Manifest) (write : Bool) :
    let found (session : Session) :=
      (Inputs.find root manifest.input : Task (StateM Session) Inputs).run.run session
    let converted (session : Session) :=
      (convertProject root manifest write : Task (StateM Session) Report).run.run session
    (found first).1 = (found second).1 ∧
    (converted first).1 = (converted second).1 ∧
    (converted first).2.SameAs (converted second).2 ∧
    ((∃ inputs, (found first).1 = .ok inputs) ↔
      Inputs.IsWalkable first.disk root (root.join ⟨manifest.input.directory⟩)) ∧
    ∀ inputs, (found first).1 = .ok inputs →
      Inputs.AreInputs first.disk root manifest.input inputs ∧
      ∀ report, (converted first).1 = .ok report → ∃ documents scripts,
        (readInputs inputs.markup : Task (StateM Session) _).run.run first =
          (.ok documents, first) ∧
        (readInputs inputs.scripts : Task (StateM Session) _).run.run first =
          (.ok scripts, first) ∧
        Reads first.disk inputs.markup (Entries.ofPairs documents) ∧
        Reads first.disk inputs.scripts (Entries.ofPairs scripts) ∧
        report.filesRead = (Entries.ofPairs documents).length + (Entries.ofPairs scripts).length ∧
        report.outcome = convertTexts manifest.table (optionsOf manifest)
          (Entries.ofPairs documents) (Entries.ofPairs scripts) := by
  intro found converted
  obtain ⟨result, foundFirst, foundSecond, areInputs⟩ :=
    Inputs.exists_run_find same orderly orderlyOther root manifest.input
  have results : (found first).1 = result ∧ (found second).1 = result :=
    ⟨congrArg Prod.fst foundFirst, congrArg Prod.fst foundSecond⟩
  have agree : (converted first).1 = (converted second).1 ∧
      (converted first).2.SameAs (converted second).2 := by
    cases result with
    | error cause =>
      have failedFirst : converted first = _ := run_convertProject_failed foundFirst
      have failedSecond : converted second = _ := run_convertProject_failed foundSecond
      rw [failedFirst, failedSecond]
      exact ⟨rfl, same⟩
    | ok inputs =>
      have goesFirst : converted first = _ := run_convertProject foundFirst
      have goesSecond : converted second = _ := run_convertProject foundSecond
      rw [goesFirst, goesSecond]
      exact blind_convertInputs _ manifest write inputs first second same
  refine ⟨results.1.trans results.2.symm, agree.1, agree.2,
    Inputs.find_ok_iff first orderly root manifest.input, fun inputs answer => ?_⟩
  obtain rfl : result = .ok inputs := results.1.symm.trans answer
  have these := areInputs inputs rfl
  refine ⟨these, fun report ended => ?_⟩
  have goes : converted first = _ := run_convertProject foundFirst
  have whole : converted first = (.ok report, (converted first).2) := Prod.ext ended rfl
  exact report_of_convertInputs these.sorted (goes.symm.trans whole)

def shelfForm : Item := .file "<Form id=\"main\"/>".toUTF8

def shelfEntries : List (String × Item) :=
  [("b.xfdl", shelfForm), ("sub", .directory [("b.xfdl", shelfForm)]), ("a.xfdl", shelfForm)]

def shelf (entries : List (String × Item)) : Session :=
  ⟨⟨.directory [("legacy", .directory entries)], []⟩, "", ""⟩

theorem shelf_isOrderly {entries : List (String × Item)} (perm : shelfEntries.Perm entries) :
    (shelf entries).disk.top.IsOrderly := by
  have single {name : String} {item : Item} (isName : Disk.IsFileName name)
      (inside : item.IsOrderly) : (Item.directory [(name, item)]).IsOrderly := by
    apply Item.isOrderly_directory
    · exact List.nodup_singleton name
    · simpa [Entries.keys] using isName
    · simpa using inside
  have file : shelfForm.IsOrderly := Item.isOrderly_file _
  have keys : (shelfEntries.map Prod.fst).Perm (Entries.keys entries) := perm.map Prod.fst
  have names : ∀ name ∈ shelfEntries.map Prod.fst, Disk.IsFileName name := by decide
  apply single (by decide)
  apply Item.isOrderly_directory (keys.nodup (by decide))
  · exact fun name mem => names name (keys.mem_iff.mpr mem)
  · intro entry mem
    have listed : entry ∈ shelfEntries := perm.mem_iff.mpr mem
    simp only [shelfEntries, List.mem_cons, List.not_mem_nil, or_false] at listed
    obtain rfl | rfl | rfl := listed
    · exact file
    · exact single (by decide) file
    · exact file

theorem shelf_isWalkable :
    Inputs.IsWalkable (shelf shelfEntries).disk ⟨"."⟩ ((⟨"."⟩ : Path).join ⟨"legacy"⟩) := by
  refine ⟨["legacy"], shelfEntries, rfl, .inr ?_⟩
  rintro ⟨names, others, found, long⟩
  cases found with
  | here => exact absurd long (by decide)
  | @entry _ _ name inner _ _ there _ rest =>
    have mem := (Entries.find?_eq_some_iff (by decide)).mp there
    simp only [shelfEntries, List.mem_cons, List.not_mem_nil, or_false, Prod.mk.injEq] at mem
    obtain ⟨rfl, rfl⟩ | ⟨rfl, rfl⟩ | ⟨rfl, rfl⟩ := mem
    · cases rest
    · cases rest with
      | here => exact absurd long (by decide)
      | entry inside _ last =>
        have lone := (Entries.find?_eq_some_iff (by decide)).mp inside
        rw [List.mem_singleton, Prod.mk.injEq] at lone
        obtain ⟨rfl, rfl⟩ := lone
        cases last
    · cases rest

theorem conversion_of_shelves :
    let found (session : Session) :=
      (Inputs.find ⟨"."⟩ {} : Task (StateM Session) Inputs).run.run session
    let converted (session : Session) :=
      (convertProject ⟨"."⟩ { name := "demo" } true : Task (StateM Session) Report).run.run session
    (converted (shelf shelfEntries)).1 = (converted (shelf shelfEntries.reverse)).1 ∧
      ∃ inputs, (found (shelf shelfEntries)).1 = .ok inputs ∧
        (found (shelf shelfEntries.reverse)).1 = .ok inputs ∧
        ⟨"b.xfdl", ⟨"./legacy/b.xfdl"⟩⟩ ∈ inputs.markup ∧
        ⟨"sub/b.xfdl", ⟨"./legacy/sub/b.xfdl"⟩⟩ ∈ inputs.markup := by
  have perm : shelfEntries.Perm shelfEntries.reverse := (List.reverse_perm _).symm
  have entriesSame : (Item.directory shelfEntries).SameAs (.directory shelfEntries.reverse) :=
    Item.sameAs_of_perm perm (by decide)
  have same : (shelf shelfEntries).SameAs (shelf shelfEntries.reverse) :=
    ⟨⟨Item.sameAs_insert (.refl (.directory [])) entriesSame "legacy", rfl⟩, rfl, rfl⟩
  obtain ⟨found, converted, -, walkable, found_ok⟩ := conversion_ignores_order same
    (shelf_isOrderly (List.Perm.refl _)) (shelf_isOrderly perm) ⟨"."⟩ { name := "demo" } true
  obtain ⟨inputs, answer⟩ := walkable.mpr shelf_isWalkable
  have these := (found_ok inputs answer).1
  have kept (names : List String)
      (leads : ∃ content, Inputs.Found ⟨⟨"."⟩, []⟩ ⟨"./legacy"⟩ (.directory shelfEntries) names
        (.file content)) :
      Inputs.IsKept (shelf shelfEntries).disk ⟨"."⟩ ((⟨"."⟩ : Path).join ⟨"legacy"⟩) names := by
    obtain ⟨content, leads⟩ := leads
    exact ⟨fun ignored => absurd ignored.2 (by decide), ["legacy"], _, content, rfl, leads⟩
  refine ⟨converted, inputs, answer, found.symm.trans answer, ?_, ?_⟩
  · have leads := kept ["b.xfdl"] ⟨_, .entry rfl (by decide) (.here _ _)⟩
    exact (these.mem .markup _).mpr ⟨_, leads, rfl, rfl⟩
  · have leads := kept ["sub", "b.xfdl"]
      ⟨_, .entry rfl (by decide) (.entry rfl (by decide) (.here _ _))⟩
    exact (these.mem .markup _).mpr ⟨_, leads, rfl, rfl⟩

end Workspace
end Formwright
