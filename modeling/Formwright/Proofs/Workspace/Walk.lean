import Formwright.Proofs.Effects
import Formwright.Proofs.Storage.Directory
import Formwright.Proofs.Storage.Reordering
import Formwright.Workspace.Inputs
import Mathlib.Data.List.Nodup
import Mathlib.Data.List.Perm.Basic
import Mathlib.Tactic.Choose

/-!
The files below a directory. A walk finds each file that is not left out once, or comes to a path
that is too long; in which order the directories are listed makes no difference to that.
-/

namespace Formwright.Inputs

open Disk

/-! ## What is to be found -/

/-- Names lead from an item to one below it, and nothing on the way is ignored. The path leads to
the first of them. -/
inductive Found (rules : Ignore.Rules) : Path → Item → List String → Item → Prop
  | here (path : Path) (item : Item) : Found rules path item [] item
  | entry {path : Path} {entries : List (String × Item)} {name : String} {inner : Item}
      {names : List String} {item : Item} (there : Entries.find? entries name = some inner)
      (kept : rules.verdict (path.join ⟨name⟩) (inner.kind == .directory) ≠ .ignored)
      (rest : Found rules (path.join ⟨name⟩) inner names item) :
      Found rules path (.directory entries) (name :: names) item

variable {rules : Ignore.Rules} {path : Path}

theorem Found.areNames {first last : Item} {names : List String} (orderly : first.IsOrderly)
    (found : Found rules path first names last) : ∀ name ∈ names, Path.IsName name := by
  induction found with
  | here => exact fun _ mem => absurd mem List.not_mem_nil
  | entry there _ _ ih =>
    rw [List.forall_mem_cons]
    exact ⟨(orderly.isFileName there).toIsName, ih (orderly.entry there)⟩

theorem Found.sameAs {first last other : Item} {names : List String}
    (found : Found rules path first names last) (same : first.SameAs other) :
    ∃ target, Found rules path other names target ∧ last.SameAs target := by
  induction found generalizing other with
  | here path item => exact ⟨other, .here path other, same⟩
  | @entry path entries name inner names item there kept _ ih =>
    obtain ⟨_, closed, _⟩ | ⟨_, closed, _⟩ | ⟨_, others, held, rfl⟩ := same.shapes
    · cases closed
    · cases closed
    cases held
    obtain ⟨free, _⟩ | ⟨_, _, found, listed, alike⟩ := Item.sameAs_directory.mp same name
    · cases free.symm.trans there
    cases found.symm.trans there
    obtain ⟨target, below, last⟩ := ih alike
    rw [alike.kind] at kept
    exact ⟨target, .entry listed kept below, last⟩

/-- Where files are found does not depend on the order of entries. -/
theorem found_file_iff {first second : Item} (same : first.SameAs second) {names : List String} :
    (∃ content, Found rules path first names (.file content)) ↔
      ∃ content, Found rules path second names (.file content) := by
  have onward {first second : Item} (same : first.SameAs second) :
      (∃ content, Found rules path first names (.file content)) →
        ∃ content, Found rules path second names (.file content) := by
    rintro ⟨content, found⟩
    obtain ⟨target, below, alike⟩ := found.sameAs same
    obtain ⟨_, _, rfl⟩ | ⟨_, other, _⟩ | ⟨_, _, other, _⟩ := alike.shapes
    · exact ⟨_, below⟩
    · cases other
    · cases other
  exact ⟨onward same, onward same.symm⟩

def IsTooDeep (rules : Ignore.Rules) (path : Path) (item : Item) : Prop :=
  ∃ names entries, Found rules path item names (.directory entries) ∧
    maxPath < (path.descend names).text.utf8ByteSize

theorem isTooDeep_iff {first second : Item} (same : first.SameAs second) :
    IsTooDeep rules path first ↔ IsTooDeep rules path second := by
  have onward {first second : Item} (same : first.SameAs second) :
      IsTooDeep rules path first → IsTooDeep rules path second := by
    rintro ⟨names, entries, found, long⟩
    obtain ⟨target, below, alike⟩ := found.sameAs same
    obtain ⟨_, other, _⟩ | ⟨_, other, _⟩ | ⟨_, others, _, rfl⟩ := alike.shapes
    · cases other
    · cases other
    · exact ⟨names, others, below, long⟩
  exact ⟨onward same, onward same.symm⟩

structure IsListing (rules : Ignore.Rules) (path : Path) (item : Item) (files : List Path) :
    Prop where
  nodup : files.Nodup
  mem : ∀ file, file ∈ files ↔
    ∃ names, (∃ content, Found rules path item names (.file content)) ∧ file = path.descend names

theorem IsListing.perm {first second : Item} (same : first.SameAs second) {files others : List Path}
    (listing : IsListing rules path first files) (other : IsListing rules path second others) :
    files.Perm others := by
  rw [List.perm_ext_iff_of_nodup listing.nodup other.nodup]
  intro file
  simp only [listing.mem, other.mem, found_file_iff same]

inductive Lists (rules : Ignore.Rules) (path : Path) (item : Item) :
    Except SystemError (List Path) → Prop
  | ok {files : List Path} (listing : IsListing rules path item files)
      (short : ¬IsTooDeep rules path item) : Lists rules path item (.ok files)
  | error (deep : IsTooDeep rules path item) : Lists rules path item (.error .nameTooLong)

theorem Lists.agree {first second : Item} (same : first.SameAs second)
    {result other : Except SystemError (List Path)} (lists : Lists rules path first result)
    (listsOther : Lists rules path second other) : Answers List.Perm result other := by
  cases lists with
  | ok listing short =>
    cases listsOther with
    | ok listingOther => exact .ok (listing.perm same listingOther)
    | error deep => exact absurd ((isTooDeep_iff same).mpr deep) short
  | error deep =>
    cases listsOther with
    | ok _ short => exact absurd ((isTooDeep_iff same).mp deep) short
    | error => exact .error _

/-! ## Files and directories -/

theorem lists_file (path : Path) (content : ByteArray) :
    Lists rules path (.file content) (.ok [path]) := by
  refine .ok ⟨List.nodup_singleton path, fun file => ?_⟩ ?_
  · rw [List.mem_singleton]
    constructor
    · rintro rfl
      exact ⟨[], ⟨content, .here file _⟩, rfl⟩
    · rintro ⟨names, ⟨_, found⟩, rfl⟩
      cases found
      rfl
  · rintro ⟨names, entries, found, _⟩
    cases found

theorem lists_link (path : Path) (target : String) :
    Lists rules path (.link target) (.ok []) := by
  refine .ok ⟨List.nodup_nil, fun file => iff_of_false List.not_mem_nil ?_⟩ ?_
  · rintro ⟨names, ⟨_, found⟩, _⟩
    cases found
  · rintro ⟨names, entries, found, _⟩
    cases found

/-- What the parts list together, or the failure of one of them. -/
theorem flatten_parts {α : Type} (part : α → Except SystemError (List Path)) (items : List α) :
    (∃ files : α → List Path, (∀ item ∈ items, part item = .ok (files item)) ∧
      ((items.map part).mapM id).map List.flatten = .ok (items.flatMap files)) ∨
    ∃ item ∈ items, ∃ error, part item = .error error ∧
      ((items.map part).mapM id).map List.flatten = .error error := by
  have step (item : α) (later : List α) : (((item :: later).map part).mapM id).map List.flatten =
      match part item with
      | .error error => .error error
      | .ok files => (((later.map part).mapM id).map List.flatten).map (files ++ ·) := by
    rw [List.map_cons, List.mapM_cons]
    show Except.map _ (part item >>= _) = _
    cases part item with
    | error => rfl
    | ok files =>
      show Except.map _ ((later.map part).mapM id >>= _) = _
      generalize (later.map part).mapM id = rest
      cases rest <;> rfl
  let files (item : α) : List Path := (part item).toOption.getD []
  suffices (∀ item ∈ items, part item = .ok (files item)) ∧
      ((items.map part).mapM id).map List.flatten = .ok (items.flatMap files) ∨
      ∃ item ∈ items, ∃ error, part item = .error error ∧
        ((items.map part).mapM id).map List.flatten = .error error from
    this.imp_left fun all => ⟨files, all⟩
  induction items with
  | nil => exact .inl ⟨fun _ mem => absurd mem List.not_mem_nil, rfl⟩
  | cons item later ih =>
    rw [step]
    cases here : part item with
    | error error => exact .inr ⟨item, List.mem_cons_self, error, here, rfl⟩
    | ok found =>
      have kept : files item = found := by
        show (part item).toOption.getD [] = found
        rw [here]
        rfl
      obtain ⟨all, flat⟩ | ⟨other, mem, error, failed, flat⟩ := ih
      · left
        rw [flat, List.forall_mem_cons, List.flatMap_cons, kept]
        exact ⟨⟨here, all⟩, rfl⟩
      · right
        rw [flat]
        exact ⟨other, List.mem_cons_of_mem _ mem, error, failed, rfl⟩

def ListsEntry (rules : Ignore.Rules) (path : Path) (entry : String × Item)
    (result : Except SystemError (List Path)) : Prop :=
  if rules.verdict (path.join ⟨entry.1⟩) (entry.2.kind == .directory) = .ignored then
    result = .ok []
  else Lists rules (path.join ⟨entry.1⟩) entry.2 result

section Entry

variable {name : String} {inner : Item} {files : List Path}
  (lists : ListsEntry rules path (name, inner) (.ok files))

include lists

theorem ListsEntry.nodup : files.Nodup := by
  rw [ListsEntry] at lists
  split at lists
  next =>
    cases lists
    exact List.nodup_nil
  next =>
    cases lists with
    | ok listing => exact listing.nodup

theorem ListsEntry.mem (file : Path) : file ∈ files ↔
    rules.verdict (path.join ⟨name⟩) (inner.kind == .directory) ≠ .ignored ∧
      ∃ names, (∃ content, Found rules (path.join ⟨name⟩) inner names (.file content)) ∧
        file = path.descend (name :: names) := by
  rw [ListsEntry] at lists
  split at lists
  next ignored =>
    cases lists
    exact iff_of_false List.not_mem_nil fun found => found.1 ignored
  next kept =>
    cases lists with
    | ok listing =>
      rw [listing.mem, and_iff_right kept]
      rfl

theorem ListsEntry.short
    (kept : rules.verdict (path.join ⟨name⟩) (inner.kind == .directory) ≠ .ignored) :
    ¬IsTooDeep rules (path.join ⟨name⟩) inner := by
  rw [ListsEntry, if_neg kept] at lists
  cases lists with
  | ok _ short => exact short

end Entry

section Entries

variable {entries : List (String × Item)} (orderly : (Item.directory entries).IsOrderly)
  {files : String × Item → List Path}
  (each : ∀ name inner, Entries.find? entries name = some inner →
    ListsEntry rules path (name, inner) (.ok (files (name, inner))))

include orderly each

/-- Entries of different names list no file in common. -/
theorem nodup_flatMap_entries (named : path.text ≠ "") : (entries.flatMap files).Nodup := by
  have unique := (orderly [] entries rfl).1
  have listed (entry : String × Item) (mem : entry ∈ entries) :
      Entries.find? entries entry.1 = some entry.2 ∧
        ListsEntry rules path entry (.ok (files entry)) := by
    have there := (Entries.find?_eq_some_iff unique).mpr mem
    exact ⟨there, each entry.1 entry.2 there⟩
  have apart : entries.Pairwise fun first second => first.1 ≠ second.1 :=
    List.pairwise_map.mp unique
  rw [List.nodup_flatMap]
  refine ⟨fun entry mem => (listed entry mem).2.nodup, apart.imp_of_mem ?_⟩
  intro first second mem memOther differ file inFirst inSecond
  obtain ⟨there, lists⟩ := listed first mem
  obtain ⟨thereOther, listsOther⟩ := listed second memOther
  obtain ⟨kept, names, ⟨_, found⟩, same⟩ := (lists.mem file).mp inFirst
  obtain ⟨keptOther, others, ⟨_, foundOther⟩, sameOther⟩ := (listsOther.mem file).mp inSecond
  have steps : first.1 :: names = second.1 :: others := Path.descend_injective named
    (Found.areNames orderly (.entry there kept found))
    (Found.areNames orderly (.entry thereOther keptOther foundOther)) (same.symm.trans sameOther)
  exact differ (List.cons.inj steps).1

theorem isListing_directory (named : path.text ≠ "") :
    IsListing rules path (.directory entries) (entries.flatMap files) := by
  have unique := (orderly [] entries rfl).1
  refine ⟨nodup_flatMap_entries orderly each named, fun file => ?_⟩
  rw [List.mem_flatMap]
  constructor
  · rintro ⟨⟨name, inner⟩, mem, inFiles⟩
    have there := (Entries.find?_eq_some_iff unique).mpr mem
    obtain ⟨kept, names, ⟨content, found⟩, same⟩ := ((each name inner there).mem file).mp inFiles
    exact ⟨name :: names, ⟨content, .entry there kept found⟩, same⟩
  · rintro ⟨names, ⟨content, found⟩, same⟩
    cases found with
    | @entry _ _ name inner names _ there kept found =>
      exact ⟨(name, inner), (Entries.find?_eq_some_iff unique).mp there,
        ((each name inner there).mem file).mpr ⟨kept, names, ⟨content, found⟩, same⟩⟩

end Entries

theorem lists_directory {entries : List (String × Item)}
    (orderly : (Item.directory entries).IsOrderly) (named : path.text ≠ "")
    (short : path.text.utf8ByteSize ≤ maxPath)
    {part : String × Item → Except SystemError (List Path)}
    (each : ∀ entry ∈ entries, ListsEntry rules path entry (part entry)) :
    Lists rules path (.directory entries) (((entries.map part).mapM id).map List.flatten) := by
  have unique := (orderly [] entries rfl).1
  obtain ⟨files, all, flat⟩ | ⟨⟨name, inner⟩, mem, error, failed, flat⟩ := flatten_parts part entries
  · have whole (name : String) (inner : Item)
        (there : Entries.find? entries name = some inner) :
        ListsEntry rules path (name, inner) (.ok (files (name, inner))) := by
      have mem := (Entries.find?_eq_some_iff unique).mp there
      rw [← all _ mem]
      exact each _ mem
    rw [flat]
    refine .ok (isListing_directory orderly whole named) ?_
    rintro ⟨names, others, found, long⟩
    cases found with
    | here => exact absurd long (Nat.not_lt.mpr short)
    | entry there kept found => exact (whole _ _ there).short kept ⟨_, others, found, long⟩
  · have here := each _ mem
    rw [ListsEntry, failed] at here
    split at here
    next => cases here
    next kept =>
      cases here with
      | error deep =>
        obtain ⟨names, others, found, long⟩ := deep
        have there := (Entries.find?_eq_some_iff unique).mpr mem
        rw [flat]
        exact .error ⟨name :: names, others, .entry there kept found, long⟩

/-! ## Walks -/

def walkEntry {m : Type → Type} [Monad m] [Host m] (rules : Ignore.Rules) (fuel : Nat)
    (directory : Path) (entry : String × FileKind) : m (Except SystemError (List Path)) :=
  let path := directory.join ⟨entry.1⟩
  if rules.verdict path (entry.2 == .directory) == .ignored then return .ok []
  else
    match entry.2 with
    | .file => return .ok [path]
    | .directory => filesBelow rules fuel path
    | .link => return .ok []

theorem filesBelow_succ {m : Type → Type} [Monad m] [Host m] (rules : Ignore.Rules) (fuel : Nat)
    (directory : Path) :
    filesBelow (m := m) rules (fuel + 1) directory = do
      match ← Host.list directory with
      | .error error => return .error error
      | .ok entries =>
        let parts ← entries.mapM (walkEntry rules fuel directory)
        return (parts.mapM id).map List.flatten := rfl

variable {ε : Type} {session : Session} {place : List String} {entries : List (String × Item)}

theorem run_filesBelow_succ {fuel : Nat}
    (found : session.disk.find true path = .ok (.taken place (.directory entries)))
    {part : String × Item → Except SystemError (List Path)}
    (each : ∀ entry ∈ entries, (walkEntry rules fuel path (entry.1, entry.2.kind) :
      ExceptT ε (StateM Session) _).run.run session = (.ok (part entry), session)) :
    (filesBelow rules (fuel + 1) path : ExceptT ε (StateM Session) _).run.run session =
      (.ok (((entries.map part).mapM id).map List.flatten), session) := by
  have asked : (Host.list path : ExceptT ε (StateM Session) _).run.run session =
      (.ok (.ok (entries.map fun entry => (entry.1, entry.2.kind))), session) := by
    show (Except.ok (session.disk.list path), session) = _
    rw [list, found]
  have walked : ((entries.map fun entry => (entry.1, entry.2.kind)).mapM
      (walkEntry rules fuel path : _ → ExceptT ε (StateM Session) _)).run.run session =
        (.ok (entries.map part), session) := by
    rw [List.mapM_map]
    exact run_mapM each
  rw [filesBelow_succ, run_bind, asked]
  dsimp only
  rw [run_bind, walked]
  rfl

theorem run_filesBelow_failed {fuel : Nat} {error : SystemError}
    (lost : session.disk.find true path = .error error) :
    (filesBelow rules (fuel + 1) path : ExceptT ε (StateM Session) _).run.run session =
      (.ok (.error error), session) := by
  have asked : (Host.list path : ExceptT ε (StateM Session) _).run.run session =
      (.ok (.error error), session) := by
    show (Except.ok (session.disk.list path), session) = _
    rw [list, lost]
  rw [filesBelow_succ, run_bind, asked]
  rfl

theorem run_walkEntry (orderly : session.disk.top.IsOrderly) {fuel : Nat}
    (found : session.disk.find true path = .ok (.taken place (.directory entries)))
    (enough : maxPath + 1 < fuel + 1 + path.text.utf8ByteSize)
    (below : ∀ {path : Path} {place : List String} {entries : List (String × Item)},
      session.disk.find true path = .ok (.taken place (.directory entries)) →
        maxPath + 1 < fuel + path.text.utf8ByteSize →
          ∃ result, (filesBelow rules fuel path : ExceptT ε (StateM Session) _).run.run session =
            (.ok result, session) ∧ Lists rules path (.directory entries) result)
    {entry : String × Item} (mem : entry ∈ entries) :
    ∃ result, (walkEntry rules fuel path (entry.1, entry.2.kind) :
        ExceptT ε (StateM Session) _).run.run session = (.ok result, session) ∧
      ListsEntry rules path entry result := by
  obtain ⟨name, inner⟩ := entry
  have opened : (Item.directory entries).IsOrderly := orderly.at? (fits_of_find found)
  have there := (Entries.find?_eq_some_iff (opened [] entries rfl).1).mpr mem
  have isName : IsFileName name := opened.isFileName there
  have grown := Path.size_join (named_of_find found) isName.toIsName
  have short := (find_eq_ok.mp found).1.short
  have hasFuel : fuel ≠ 0 := by omega
  by_cases ignored : rules.verdict (path.join ⟨name⟩) (inner.kind == .directory) = .ignored
  · refine ⟨.ok [], ?_, ?_⟩
    · rw [walkEntry, if_pos (beq_iff_eq.mpr ignored)]
      rfl
    · rw [ListsEntry, if_pos ignored]
  · have entered : walkEntry (m := ExceptT ε (StateM Session)) rules fuel path (name, inner.kind) =
        match inner.kind with
        | .file => return .ok [path.join ⟨name⟩]
        | .directory => filesBelow rules fuel (path.join ⟨name⟩)
        | .link => return .ok [] :=
      if_neg (by simpa using ignored)
    have lists {result : Except SystemError (List Path)}
        (lists : Lists rules (path.join ⟨name⟩) inner result) :
        ListsEntry rules path (name, inner) result := by
      rw [ListsEntry, if_neg ignored]
      exact lists
    rw [entered]
    cases inner with
    | file content => exact ⟨_, rfl, lists (lists_file _ content)⟩
    | link target => exact ⟨_, rfl, lists (lists_link _ target)⟩
    | directory others =>
      by_cases long : maxPath < (path.join ⟨name⟩).text.utf8ByteSize
      · obtain ⟨less, rfl⟩ : ∃ less, fuel = less + 1 := Nat.exists_eq_succ_of_ne_zero hasFuel
        exact ⟨_, run_filesBelow_failed (find_join_long found isName long),
          lists (.error ⟨[], others, .here _ _, long⟩)⟩
      · have inside := find_join found isName there (by rintro _ ⟨⟩) (Nat.le_of_not_lt long)
        obtain ⟨result, walked, listed⟩ := below inside (by omega)
        exact ⟨result, walked, lists listed⟩

/-- A walk changes nothing. It lists the files, or fails at a path that is too long; its fuel lasts
since a path that a directory is found by is not longer than a path may be. -/
theorem run_filesBelow (orderly : session.disk.top.IsOrderly) {fuel : Nat}
    (found : session.disk.find true path = .ok (.taken place (.directory entries)))
    (enough : maxPath + 1 < fuel + path.text.utf8ByteSize) :
    ∃ result, (filesBelow rules fuel path : ExceptT ε (StateM Session) _).run.run session =
      (.ok result, session) ∧ Lists rules path (.directory entries) result := by
  have short := (find_eq_ok.mp found).1.short
  induction fuel generalizing path place entries with
  | zero => omega
  | succ fuel ih =>
    have opened : session.disk.top.at? place = some (.directory entries) := fits_of_find found
    have : Nonempty (Except SystemError (List Path)) := ⟨.ok []⟩
    choose! part run lists using fun entry (mem : entry ∈ entries) =>
      run_walkEntry orderly found enough (fun found enough =>
        ih found enough (find_eq_ok.mp found).1.short) mem
    exact ⟨_, run_filesBelow_succ found run,
      lists_directory (orderly.at? opened) (named_of_find found) short lists⟩

/-! ## Inputs -/

def rulesOf (disk : Disk) (root : Path) : Ignore.Rules :=
  match disk.read (root.join ⟨".gitignore"⟩) with
  | .ok bytes => .ofLines root (dropMarks (textLines bytes))
  | .error _ => .ofLines root []

theorem rulesOf_sameAs {first second : Disk} (same : first.SameAs second) (root : Path) :
    rulesOf first root = rulesOf second root := by
  rw [rulesOf, rulesOf, read_sameAs same]

theorem run_ignoreRules (session : Session) (root : Path) :
    (ignoreRules root : ExceptT ε (StateM Session) _).run.run session =
      (.ok (rulesOf session.disk root), session) := by
  have asked : (Host.read (root.join ⟨".gitignore"⟩) : ExceptT ε (StateM Session) _).run.run
      session = (.ok (session.disk.read (root.join ⟨".gitignore"⟩)), session) := rfl
  rw [ignoreRules, run_bind, asked, rulesOf]
  cases session.disk.read (root.join ⟨".gitignore"⟩) <;> rfl

/-- What the walk below the input directory answers. A directory that is ignored is not entered,
unless it is a link that leads to it. -/
def ListsInput (disk : Disk) (rules : Ignore.Rules) (directory : Path) (item : Item)
    (result : Except SystemError (List Path)) : Prop :=
  if disk.kind? false directory = some .directory ∧ rules.verdict directory true = .ignored then
    result = .ok []
  else Lists rules directory item result

theorem ListsInput.agree {first second : Disk} (same : first.SameAs second) {directory : Path}
    {item other : Item} (items : item.SameAs other) {result answer : Except SystemError (List Path)}
    (lists : ListsInput first rules directory item result)
    (listsOther : ListsInput second rules directory other answer) :
    Answers List.Perm result answer := by
  rw [ListsInput] at lists listsOther
  rw [← kind?_sameAs same] at listsOther
  split at lists
  next ignored =>
    rw [if_pos ignored] at listsOther
    rw [lists, listsOther]
    exact .ok (List.Perm.refl _)
  next entered =>
    rw [if_neg entered] at listsOther
    exact lists.agree items listsOther

theorem run_filesOf (orderly : session.disk.top.IsOrderly)
    (found : session.disk.find true path = .ok (.taken place (.directory entries))) :
    ∃ result, (filesOf rules path : ExceptT ε (StateM Session) _).run.run session =
      (.ok result, session) ∧ ListsInput session.disk rules path (.directory entries) result := by
  have named : path.text.utf8ByteSize ≠ 0 :=
    mt String.utf8ByteSize_eq_zero_iff.mp (named_of_find found)
  have asked : (Host.ownKind path : ExceptT ε (StateM Session) _).run.run session =
      (.ok (session.disk.kind? false path), session) := rfl
  rw [filesOf, run_bind, asked]
  dsimp only
  by_cases ignored : session.disk.kind? false path = some .directory ∧
      rules.verdict path true = .ignored
  · refine ⟨.ok [], ?_, ?_⟩
    · rw [ignored.1, ignored.2]
      rfl
    · rw [ListsInput, if_pos ignored]
  · have entered : ¬(session.disk.kind? false path == some .directory &&
        rules.verdict path true == .ignored) = true := by
      simpa using ignored
    obtain ⟨result, walked, lists⟩ := @run_filesBelow rules path ε session place entries orderly
      depthLimit found (by rw [depthLimit, maxPath]; omega)
    refine ⟨result, ?_, ?_⟩
    · rw [if_neg entered]
      exact walked
    · rw [ListsInput, if_neg ignored]
      exact lists

/-- What is found is what the walk lists. -/
theorem run_find (session : Session) (orderly : session.disk.top.IsOrderly) (root : Path)
    (input : Manifest.Input) :
    let directory := root.join ⟨input.directory⟩
    let answer := (find root input : Task (StateM Session) Inputs).run.run session
    (session.disk.kind? true directory ≠ some .directory ∧
      answer = (.error (.inputMissing input.directory), session)) ∨
    ∃ place entries result,
      session.disk.find true directory = .ok (.taken place (.directory entries)) ∧
      ListsInput session.disk (rulesOf session.disk root) directory (.directory entries) result ∧
      answer = (match result with
        | .ok files => .ok (ofFiles directory input files)
        | .error cause => .error (.walkBroken directory cause), session) := by
  intro directory answer
  have asked : (Host.leadsToDirectory directory : Task (StateM Session) Bool).run.run session =
      (.ok (session.disk.kind? true directory == some .directory), session) := rfl
  by_cases there : session.disk.kind? true directory = some .directory
  · right
    obtain ⟨place, entries, found⟩ := find_of_kind? there
    obtain ⟨result, walked, lists⟩ := @run_filesOf (rulesOf session.disk root) directory Failure
      session place entries orderly found
    refine ⟨place, entries, result, found, lists, ?_⟩
    show (find root input : Task (StateM Session) Inputs).run.run session = _
    rw [find, run_bind, asked, there]
    dsimp only
    rw [beq_self_eq_true, Bool.not_true, if_neg Bool.false_ne_true, run_bind, run_ignoreRules]
    dsimp only
    rw [run_bind, walked]
    cases result <;> rfl
  · left
    refine ⟨there, ?_⟩
    show (find root input : Task (StateM Session) Inputs).run.run session = _
    rw [find, run_bind, asked, beq_eq_false_iff_ne.mpr there]
    rfl

def IsWalkable (disk : Disk) (root directory : Path) : Prop :=
  ∃ place entries, disk.find true directory = .ok (.taken place (.directory entries)) ∧
    ((disk.kind? false directory = some .directory ∧
      (rulesOf disk root).verdict directory true = .ignored) ∨
    ¬IsTooDeep (rulesOf disk root) directory (.directory entries))

theorem ListsInput.ok_iff {disk : Disk} {directory : Path} {item : Item}
    {result : Except SystemError (List Path)} (lists : ListsInput disk rules directory item result) :
    (∃ files, result = .ok files) ↔
      (disk.kind? false directory = some .directory ∧ rules.verdict directory true = .ignored) ∨
        ¬IsTooDeep rules directory item := by
  rw [ListsInput] at lists
  split at lists
  next ignored => exact iff_of_true ⟨[], lists⟩ (.inl ignored)
  next entered =>
    rw [or_iff_right entered]
    cases lists with
    | ok _ short => exact iff_of_true ⟨_, rfl⟩ short
    | error deep => exact iff_of_false (by rintro ⟨_, ⟨⟩⟩) (not_not.mpr deep)

theorem find_ok_iff (session : Session) (orderly : session.disk.top.IsOrderly) (root : Path)
    (input : Manifest.Input) :
    (∃ inputs, ((find root input : Task (StateM Session) Inputs).run.run session).1 = .ok inputs) ↔
      IsWalkable session.disk root (root.join ⟨input.directory⟩) := by
  obtain ⟨missing, answer⟩ | ⟨place, entries, result, found, lists, answer⟩ :=
    run_find session orderly root input
  · rw [answer]
    refine iff_of_false (by rintro ⟨_, ⟨⟩⟩) ?_
    rintro ⟨place, entries, found, _⟩
    rw [kind?, found] at missing
    exact missing rfl
  · have walked : IsWalkable session.disk root (root.join ⟨input.directory⟩) ↔
        ∃ files, result = .ok files := by
      rw [lists.ok_iff]
      constructor
      · rintro ⟨_, _, again, walkable⟩
        cases found.symm.trans again
        exact walkable
      · exact fun walkable => ⟨place, entries, found, walkable⟩
    rw [answer, walked]
    cases result with
    | ok files => exact iff_of_true ⟨_, rfl⟩ ⟨files, rfl⟩
    | error => exact iff_of_false (by rintro ⟨_, ⟨⟩⟩) (by rintro ⟨_, ⟨⟩⟩)

end Formwright.Inputs
