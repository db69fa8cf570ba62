import Formwright.Proofs.Component.Conversion
import Formwright.Proofs.Component.Name
import Formwright.Proofs.Storage.Session
import Formwright.Workspace.Conversion
import Mathlib.Data.List.Find
import Mathlib.Data.List.Nodup

/-!
Storing the units of a batch. Every path that was written reads as the code that was last written
through it; two paths come to the same file when the forms have names that derive the same one.
-/

namespace Formwright.Workspace

open Component Disk Text

/-! ## Files -/

variable {directory : Path} {session later : Session}

theorem ok_of_writeFile {file : Path} {text : String} {result : Unit}
    (stored : (writeFile file text : Task (StateM Session) Unit).run.run session =
      (.ok result, later)) :
    session.disk.write file text.toUTF8 = .ok later.disk := by
  obtain ⟨answer, middle, asked, ended⟩ := ok_of_bind stored
  cases answer with
  | ok =>
    cases ended
    exact Session.disk_of_write asked
  | error => cases ended

theorem ok_of_storeUnit {unit : CodeUnit} {target : Path}
    (stored : (storeUnit directory unit : Task (StateM Session) Path).run.run session =
      (.ok target, later)) :
    target = unitFile directory unit ∧
      ∃ disk, Continues [] session.disk disk ∧
        disk.write target unit.code.toUTF8 = .ok later.disk := by
  delta storeUnit at stored
  generalize unitFile directory unit = file at stored ⊢
  have written {middle : Session}
      (ended : (do writeFile file unit.code; return file : Task (StateM Session) Path).run.run
        middle = (.ok target, later)) :
      target = file ∧ middle.disk.write target unit.code.toUTF8 = .ok later.disk := by
    obtain ⟨_, _, done, ended⟩ := ok_of_bind ended
    cases ended
    exact ⟨rfl, ok_of_writeFile done⟩
  simp only at stored
  cases above : file.parent? with
  | none =>
    rw [above] at stored
    obtain ⟨same, done⟩ := written stored
    exact ⟨same, session.disk, .refl _, done⟩
  | some parent =>
    rw [above] at stored
    obtain ⟨answer, middle, asked, stored⟩ := ok_of_bind stored
    have leads : Leads Session.Gains (Host.makeDirectories parent : Task (StateM Session) _) :=
      Session.gains_makeDirectories parent
    have gains := leads session
    rw [asked] at gains
    cases answer with
    | error cause =>
      obtain ⟨_, _, ended, _⟩ := ok_of_bind stored
      cases ended
    | ok =>
      obtain ⟨same, done⟩ := written stored
      exact ⟨same, middle.disk, gains, done⟩

def lastAt (disk : Disk) (directory : Path) (units : List CodeUnit) (unit : CodeUnit) :
    Option CodeUnit :=
  units.reverse.find? fun other =>
    disk.place? (unitFile directory other) == disk.place? (unitFile directory unit)

theorem lastAt_cons (disk : Disk) (unit : CodeUnit) (units : List CodeUnit) (other : CodeUnit) :
    lastAt disk directory (unit :: units) other =
      (lastAt disk directory units other).or
        ([unit].find? fun first =>
          disk.place? (unitFile directory first) == disk.place? (unitFile directory other)) := by
  rw [lastAt, List.reverse_cons, List.find?_append]
  rfl

theorem lastAt_eq_some {disk : Disk} {units : List CodeUnit} {unit writer : CodeUnit}
    (isLast : lastAt disk directory units unit = some writer) :
    writer ∈ units ∧
      disk.place? (unitFile directory writer) = disk.place? (unitFile directory unit) := by
  have chosen := List.find?_some isLast
  exact ⟨List.mem_reverse.mp (List.mem_of_find?_eq_some isLast), eq_of_beq chosen⟩

theorem lastAt_eq_none {disk : Disk} {units : List CodeUnit} {unit : CodeUnit}
    (nobody : lastAt disk directory units unit = none) :
    ∀ other ∈ units,
      disk.place? (unitFile directory other) ≠ disk.place? (unitFile directory unit) := by
  intro other mem same
  apply List.find?_eq_none.mp nobody other (List.mem_reverse.mpr mem)
  rw [same]
  exact beq_self_eq_true _

/-- What a disk holds after units were stored: only their files have changed, and each of these is
as the last unit that came to it left it. -/
structure Stored (directory : Path) (units : List CodeUnit) (old new : Disk) : Prop where
  continues : ∃ places, Continues places old new ∧
    units.map (fun unit => new.place? (unitFile directory unit)) = places.map some
  last : ∀ unit ∈ units, ∃ place writer, lastAt new directory units unit = some writer ∧
    new.find true (unitFile directory unit) = .ok (.taken place (.file writer.code.toUTF8))

theorem stored_cons {unit : CodeUnit} {units : List CodeUnit} {old middle new : Disk}
    {place : List String} (changed : Continues [place] old middle)
    (found : middle.find true (unitFile directory unit) =
      .ok (.taken place (.file unit.code.toUTF8)))
    (stored : Stored directory units middle new) : Stored directory (unit :: units) old new := by
  obtain ⟨⟨places, continues, leads⟩, last⟩ := stored
  obtain ⟨item, there, _, same⟩ := continues.find_taken found
  have here : new.place? (unitFile directory unit) = some place := place?_of_find there
  constructor
  next =>
    refine ⟨[place] ++ places, changed.trans continues, ?_⟩
    rw [List.map_cons, here, leads]
    rfl
  next =>
    intro other mem
    rw [lastAt_cons]
    obtain rfl | behind := List.mem_cons.mp mem
    next =>
      cases again : lastAt new directory units other with
      | none =>
        -- no later unit came to this place, so the file is still as it was written
        have apart : place ∉ places := by
          intro written
          have written : some place ∈ places.map some := List.mem_map_of_mem written
          rw [← leads] at written
          obtain ⟨later, listed, leadsThere⟩ := List.mem_map.mp written
          exact lastAt_eq_none again later listed (leadsThere.trans here.symm)
        rw [same apart _ rfl] at there
        exact ⟨place, other, by simp, there⟩
      | some writer =>
        -- a later unit came to it, and what is known of that one's path holds for this place
        obtain ⟨listed, leadsThere⟩ := lastAt_eq_some again
        obtain ⟨target, final, isLast, read⟩ := last writer listed
        rw [lastAt, leadsThere, ← lastAt, again] at isLast
        obtain rfl := Option.some.inj isLast
        rw [place?_of_find read, here] at leadsThere
        obtain rfl := Option.some.inj leadsThere
        have content := fits_of_find there
        rw [Spot.Fits, fits_of_find read] at content
        obtain rfl := Option.some.inj content
        exact ⟨target, writer, rfl, there⟩
    next =>
      obtain ⟨target, writer, isLast, read⟩ := last other behind
      exact ⟨target, writer, by rw [isLast]; rfl, read⟩

theorem stored_of_storeUnits {units : List CodeUnit} {written : List Path}
    (stored : (storeUnits directory units : Task (StateM Session) (List Path)).run.run session =
      (.ok written, later)) :
    written = units.map (unitFile directory) ∧
      Stored directory units session.disk later.disk := by
  induction units generalizing session written with
  | nil =>
    cases stored
    exact ⟨rfl, ⟨[], .refl _, rfl⟩, by rintro _ ⟨⟩⟩
  | cons unit units ih =>
    rw [storeUnits] at stored
    obtain ⟨target, middle, first, stored⟩ := ok_of_bind stored
    obtain ⟨others, last, rest, ended⟩ := ok_of_bind stored
    cases ended
    obtain ⟨rfl, disk, gains, done⟩ := ok_of_storeUnit first
    obtain ⟨rfl, kept⟩ := ih rest
    obtain ⟨place, changed, found⟩ := continues_write done
    exact ⟨rfl, stored_cons (gains.trans changed) found kept⟩

/-! ## Names -/

def fileName (options : Options) (name : String) : String := name ++ "." ++ options.format.suffix

theorem unitPath_eq (options : Options) (name : String) :
    unitPath options name = trimSlashes options.directory ++ "/" ++ fileName options name := by
  simp only [unitPath, fileName, String.append_assoc]

theorem fileName_injective (options : Options) {first second : String}
    (same : fileName options first = fileName options second) : first = second := by
  rw [fileName, fileName, String.append_assoc, String.append_assoc] at same
  exact (String.append_left_inj ("." ++ options.format.suffix)).mp same

theorem unitPath_injective (options : Options) {first second : String}
    (same : unitPath options first = unitPath options second) : first = second := by
  rw [unitPath_eq, unitPath_eq] at same
  have files := (String.append_right_inj (trimSlashes options.directory ++ "/")).mp same
  exact fileName_injective options files

theorem fileName_plain (options : Options) {form : Form} {name : String}
    (named : unitName form = some name) :
    '/' ∉ (fileName options name).toList ∧
      fileName options name ≠ "" ∧ fileName options name ≠ "." ∧ fileName options name ≠ ".." := by
  obtain ⟨derived, first, later, text, -⟩ := unitName_eq_some.mp named
  have plain : AllPlain name.toList := by
    rw [derived]
    exact allPlain_pascalCase _
  have head {file : String} (same : fileName options name = file) :
      file.toList.head? = some first := by
    rw [← same, fileName, String.append_assoc, String.toList_append, text]
    rfl
  have start : first ≠ '.' := by
    rintro rfl
    exact absurd (plain '.' (text ▸ List.mem_cons_self)) (by decide)
  refine ⟨?_, ?_, ?_, ?_⟩
  next =>
    rw [fileName, String.append_assoc, String.toList_append, List.mem_append]
    rintro (inName | inSuffix)
    · exact absurd (plain '/' inName) (by decide)
    · revert inSuffix
      cases options.format <;> decide
  next =>
    intro same
    cases head same
  next => exact fun same => start (Option.some.inj (head same)).symm
  next => exact fun same => start (Option.some.inj (head same)).symm

structure Derived (options : Options) (unit : CodeUnit) : Prop where
  name : ∃ form, unitName form = some unit.name
  path : unit.path = unitPath options unit.name

theorem derived_of_convertBatch {table : Mapping.Table} {options : Options} {batch : Batch}
    {unit : CodeUnit} (mem : unit ∈ (convertBatch table options batch).units) :
    Derived options unit := by
  obtain ⟨names, paths⟩ :=
    names_of_convertBatch table options batch.handlers batch.forms batch.skipped
  have listed := List.mem_map_of_mem mem (f := (·.name))
  rw [names] at listed
  obtain ⟨form, _, named⟩ := List.mem_filterMap.mp listed
  exact ⟨⟨form, named⟩, paths unit mem⟩

theorem name_eq_of_place {options : Options} {disk : Disk} {first second : CodeUnit}
    {place : List String} (derived : Derived options first ∧ Derived options second)
    (firstLeads : disk.place? (unitFile directory first) = some place)
    (secondLeads : disk.place? (unitFile directory second) = some place)
    (solid : disk.kind? false (unitFile directory first) ≠ some .link ∧
      disk.kind? false (unitFile directory second) ≠ some .link) :
    first.name = second.name := by
  obtain ⟨lead, below⟩ := directory.exists_join_below (trimSlashes options.directory)
  have file {unit : CodeUnit} (derived : Derived options unit) :
      unitFile directory unit = ⟨lead ++ "/" ++ fileName options unit.name⟩ := by
    rw [unitFile, derived.path, unitPath_eq, below]
  rw [file derived.1] at firstLeads solid
  rw [file derived.2] at secondLeads solid
  obtain ⟨_, firstNamed⟩ := derived.1.name
  obtain ⟨_, secondNamed⟩ := derived.2.name
  obtain ⟨firstPlain, firstProper⟩ := fileName_plain options firstNamed
  obtain ⟨secondPlain, secondProper⟩ := fileName_plain options secondNamed
  obtain ⟨_, firstFound⟩ := find_of_place? firstLeads
  obtain ⟨_, secondFound⟩ := find_of_place? secondLeads
  obtain ⟨parent, _, opened, firstSits⟩ := find_below firstPlain firstProper firstFound
  obtain ⟨same, _, again, secondSits⟩ := find_below secondPlain secondProper secondFound
  rw [opened] at again
  cases again
  have firstPlace := firstSits.resolve_right solid.1
  have secondPlace := secondSits.resolve_right solid.2
  rw [firstPlace] at secondPlace
  exact fileName_injective options (List.append_inj_right' secondPlace rfl |> List.cons.inj).1

theorem place_eq_iff {options : Options} {units : List CodeUnit} {old new : Disk}
    (derived : ∀ unit ∈ units, Derived options unit) (stored : Stored directory units old new)
    (solid : ∀ unit ∈ units, new.kind? false (unitFile directory unit) ≠ some .link)
    {first second : CodeUnit} (firstMem : first ∈ units) (secondMem : second ∈ units) :
    new.place? (unitFile directory first) = new.place? (unitFile directory second) ↔
      first.name = second.name := by
  constructor
  next =>
    intro same
    obtain ⟨place, _, _, found⟩ := stored.last first firstMem
    have leads := place?_of_find found
    exact name_eq_of_place ⟨derived first firstMem, derived second secondMem⟩ leads
      (same ▸ leads) ⟨solid first firstMem, solid second secondMem⟩
  next =>
    intro same
    rw [unitFile, unitFile, (derived first firstMem).path, (derived second secondMem).path, same]

/-- Units have the names that the forms without an obstacle derive, in order, and two of them have
one path exactly when they have one name. When storing them succeeds, every one was written to its
path, and its file is as the last unit left it whose path comes to the same file. If none of the
files is a link, this is the last unit of that name: units of different names are found as they
were generated, and one whose name a later unit has is lost. -/
theorem last_unit_of_name_is_stored (table : Mapping.Table) (options : Options) (batch : Batch)
    (directory : Path) {session later : Session} {written : List Path}
    (stored : (storeUnits directory (convertBatch table options batch).units :
      Task (StateM Session) (List Path)).run.run session = (.ok written, later)) :
    let units := (convertBatch table options batch).units
    let file := unitFile directory
    units.map (·.name) =
      (batch.forms.filter fun form => (obstacle table form).isNone).filterMap unitName ∧
    (∀ first ∈ units, ∀ second ∈ units, first.path = second.path ↔ first.name = second.name) ∧
    written = units.map file ∧
    (∀ unit ∈ units, ∃ writer, lastAt later.disk directory units unit = some writer ∧
      later.disk.read (file unit) = .ok writer.code.toUTF8) ∧
    ((∀ unit ∈ units, later.disk.kind? false (file unit) ≠ some .link) →
      (∀ unit ∈ units, ∃ writer, units.reverse.find? (·.name == unit.name) = some writer ∧
        later.disk.read (file unit) = .ok writer.code.toUTF8) ∧
      ((units.map (·.name)).Nodup →
        ∀ unit ∈ units, later.disk.read (file unit) = .ok unit.code.toUTF8)) := by
  intro units file
  have derived (unit : CodeUnit) (mem : unit ∈ units) : Derived options unit :=
    derived_of_convertBatch mem
  obtain ⟨names, _⟩ :=
    names_of_convertBatch table options batch.handlers batch.forms batch.skipped
  obtain ⟨targets, kept⟩ := stored_of_storeUnits stored
  have last (unit : CodeUnit) (mem : unit ∈ units) :
      ∃ writer, lastAt later.disk directory units unit = some writer ∧
        later.disk.read (file unit) = .ok writer.code.toUTF8 := by
    obtain ⟨_, writer, isLast, found⟩ := kept.last unit mem
    exact ⟨writer, isLast, read_of_find found⟩
  refine ⟨names, ?_, targets, last, ?_⟩
  next =>
    intro first firstMem second secondMem
    rw [(derived first firstMem).path, (derived second secondMem).path]
    exact ⟨unitPath_injective options, congrArg (unitPath options)⟩
  next =>
    intro solid
    have named (unit : CodeUnit) (mem : unit ∈ units) :
        ∃ writer, units.reverse.find? (·.name == unit.name) = some writer ∧
          later.disk.read (file unit) = .ok writer.code.toUTF8 := by
      obtain ⟨writer, isLast, read⟩ := last unit mem
      refine ⟨writer, ?_, read⟩
      rw [← isLast, lastAt]
      apply List.find?_congr
      intro other listed
      rw [Bool.eq_iff_iff, beq_iff_eq, beq_iff_eq]
      exact (place_eq_iff derived kept solid (List.mem_reverse.mp listed) mem).symm
    refine ⟨named, ?_⟩
    intro distinct unit mem
    obtain ⟨writer, isLast, read⟩ := named unit mem
    have listed : writer ∈ units := List.mem_reverse.mp (List.mem_of_find?_eq_some isLast)
    have sameName : writer.name = unit.name := by
      have chosen := List.find?_some isLast
      exact eq_of_beq chosen
    rw [List.inj_on_of_nodup_map distinct listed mem sameName] at read
    exact read

/-! ## Two forms -/

def twoForms (first second : String) : Batch where
  forms := [⟨"orders", first, [("title", .text "Orders")], []⟩, ⟨"stock", second, [], []⟩]
  handlers := []
  skipped := []

def outcomeOf (batch : Batch) : Outcome := convertBatch .standard ⟨.tsx, "ui"⟩ batch

def storeOn (batch : Batch) : Except Failure (List Path) × Session :=
  (storeUnits ⟨"out"⟩ (outcomeOf batch).units : Task (StateM Session) (List Path)).run.run
    ⟨⟨.directory [], []⟩, "", ""⟩

theorem ok_of_toOption {ε σ value : Type} {ended : Except ε value × σ} {result : value}
    (told : ended.1.toOption = some result) : ended = (.ok result, ended.2) := by
  obtain ⟨_ | given, state⟩ := ended
  next => cases told
  next =>
    cases told
    rfl

theorem differentNames_are_stored :
    let batch := twoForms "orders" "stock"
    (storeOn batch).1.toOption = some [⟨"out/ui/Orders.tsx"⟩, ⟨"out/ui/Stock.tsx"⟩] ∧
      ∀ unit ∈ (outcomeOf batch).units,
        (storeOn batch).2.disk.read (unitFile ⟨"out"⟩ unit) = .ok unit.code.toUTF8 := by
  intro batch
  have told : (storeOn batch).1.toOption =
      some [⟨"out/ui/Orders.tsx"⟩, ⟨"out/ui/Stock.tsx"⟩] := by
    decide +kernel
  have solid : ∀ unit ∈ (outcomeOf batch).units,
      (storeOn batch).2.disk.kind? false (unitFile ⟨"out"⟩ unit) ≠ some .link := by
    decide +kernel
  have distinct : ((outcomeOf batch).units.map (·.name)).Nodup := by
    decide
  have stored := ok_of_toOption told
  have found := last_unit_of_name_is_stored .standard ⟨.tsx, "ui"⟩ batch ⟨"out"⟩ stored
  exact ⟨told, (found.2.2.2.2 solid).2 distinct⟩

theorem pair_of_units {units : List CodeUnit} {path : String}
    (paths : units.map (·.path) = [path, path]) (codes : (units.map (·.code)).Nodup) :
    ∃ first second, units = [first, second] ∧ first.path = second.path ∧
      first.code ≠ second.code := by
  have two : units.length = 2 := by
    rw [← List.length_map, paths]
    rfl
  obtain ⟨first, second, rfl⟩ := List.length_eq_two.mp two
  simp only [List.map_cons, List.map_nil, List.cons.injEq, and_true] at paths
  rw [List.map_cons, List.map_cons, List.map_nil, List.nodup_cons, List.mem_singleton] at codes
  exact ⟨first, second, rfl, paths.1.trans paths.2.symm, codes.1⟩

/-- Units of one path are overwritten by the last of them. -/
theorem read_of_namesakes {first second : CodeUnit} {old new : Disk} {directory : Path}
    (stored : Stored directory [first, second] old new) (same : first.path = second.path) :
    new.read (unitFile directory first) = .ok second.code.toUTF8 := by
  obtain ⟨place, writer, isLast, found⟩ := stored.last first List.mem_cons_self
  have leads : unitFile directory second = unitFile directory first := by
    rw [unitFile, unitFile, same]
  rw [lastAt, List.reverse_cons, List.reverse_singleton, List.singleton_append,
    List.find?_cons_of_pos (by rw [leads]; exact beq_self_eq_true _)] at isLast
  obtain rfl := Option.some.inj isLast
  exact read_of_find found

/-- Two names that derive the same one. Nothing is reported, both units are said to be written, and
only the second is left. -/
theorem namesake_is_overwritten :
    let batch := twoForms "main" "Main"
    (outcomeOf batch).errors = [] ∧ (outcomeOf batch).warnings = [] ∧
      (storeOn batch).1.toOption = some [⟨"out/ui/Main.tsx"⟩, ⟨"out/ui/Main.tsx"⟩] ∧
      ∃ first second, (outcomeOf batch).units = [first, second] ∧ first.path = second.path ∧
        first.code ≠ second.code ∧
        (storeOn batch).2.disk.read (unitFile ⟨"out"⟩ first) = .ok second.code.toUTF8 := by
  intro batch
  have silent : (outcomeOf batch).errors = [] ∧ (outcomeOf batch).warnings = [] := by
    exact ⟨rfl, rfl⟩
  have told : (storeOn batch).1.toOption = some [⟨"out/ui/Main.tsx"⟩, ⟨"out/ui/Main.tsx"⟩] := by
    decide +kernel
  have paths : (outcomeOf batch).units.map (·.path) = ["ui/Main.tsx", "ui/Main.tsx"] := by
    rfl
  have codes : ((outcomeOf batch).units.map (·.code)).Nodup := by
    decide +kernel
  obtain ⟨first, second, units, same, differ⟩ := pair_of_units paths codes
  have stored := ok_of_toOption told
  have kept := (stored_of_storeUnits stored).2
  rw [units] at kept
  exact ⟨silent.1, silent.2, told, first, second, units, same, differ, read_of_namesakes kept same⟩

end Formwright.Workspace
