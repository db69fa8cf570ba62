import Formwright.Proofs.Entries
import Formwright.Storage.Disk

/-!
What a change leaves of a disk. Writing a file and making a directory add something and lose
nothing, so that every path that led somewhere leads there again, and no file but the one that is
written changes.
-/

namespace Formwright

namespace Item

/-! ## Places -/

theorem at?_directory (entries : List (String × Item)) (name : String) (place : List String) :
    (directory entries).at? (name :: place) = (Entries.find? entries name).bind (at? place) := rfl

theorem at?_append (first second : List String) (item : Item) :
    item.at? (first ++ second) = (item.at? first).bind (·.at? second) := by
  induction first generalizing item with
  | nil => rfl
  | cons name later ih =>
    cases item with
    | file content => rfl
    | link target => rfl
    | directory entries =>
      rw [List.cons_append, at?_directory, at?_directory]
      cases Entries.find? entries name with
      | none => rfl
      | some inner => exact ih inner

theorem at?_name {top : Item} {place : List String} {entries : List (String × Item)}
    (opened : top.at? place = some (.directory entries)) (name : String) :
    top.at? (place ++ [name]) = Entries.find? entries name := by
  rw [at?_append, opened]
  show (Entries.find? entries name).bind (at? []) = _
  cases Entries.find? entries name <;> rfl

theorem at?_put (new : Item) (place : List String) (top : Item) :
    (put new place top).at? place = some new := by
  induction place generalizing top with
  | nil => rfl
  | cons name later ih =>
    have found (entries : List (String × Item)) (inner : Item) :
        (directory (Entries.insert entries name (put new later inner))).at? (name :: later) =
          some new := by
      rw [at?_directory, Entries.find?_insert, if_pos rfl]
      exact ih inner
    cases top with
    | directory entries => exact found entries _
    | file content => exact found [] _
    | link target => exact found [] _

/-! ## Changes -/

inductive Alike : Item → Item → Prop
  | file (old new : ByteArray) : Alike (.file old) (.file new)
  | directory (old new : List (String × Item)) : Alike (.directory old) (.directory new)
  | link (target : String) : Alike (.link target) (.link target)

theorem Alike.refl : (item : Item) → Alike item item
  | .file content => .file content content
  | .directory entries => .directory entries entries
  | .link target => .link target

theorem Alike.trans {first second third : Item} (before : Alike first second)
    (after : Alike second third) : Alike first third := by
  cases before <;> cases after <;> constructor

/-- Nothing goes away: where something was, there is something of its kind, and a file is the same as
before unless it is at one of the places. -/
def Keeps (written : List (List String)) (old new : Item) : Prop :=
  ∀ place item, old.at? place = some item →
    ∃ later, new.at? place = some later ∧ Alike item later ∧
      (place ∉ written → ∀ content, item = .file content → later = item)

theorem Keeps.refl (item : Item) : Keeps [] item item :=
  fun _ found here => ⟨found, here, .refl found, fun _ _ _ => rfl⟩

theorem Keeps.trans {first second : List (List String)} {old middle new : Item}
    (before : Keeps first old middle) (after : Keeps second middle new) :
    Keeps (first ++ second) old new := by
  intro place item here
  obtain ⟨between, there, alike, same⟩ := before place item here
  obtain ⟨later, last, still, unchanged⟩ := after place between there
  refine ⟨later, last, alike.trans still, ?_⟩
  intro apart content isFile
  have kept := same (fun mem => apart (List.mem_append_left _ mem)) content isFile
  rw [unchanged (fun mem => apart (List.mem_append_right _ mem)) content (kept.trans isFile), kept]

theorem Keeps.directory {written : List (List String)} {old new : Item}
    (keeps : Keeps written old new) {place : List String} {entries : List (String × Item)}
    (opened : old.at? place = some (.directory entries)) :
    ∃ later, new.at? place = some (.directory later) := by
  obtain ⟨_, still, alike, _⟩ := keeps place _ opened
  cases alike with
  | directory _ later => exact ⟨later, still⟩

theorem Keeps.entry {written : List (List String)} {old new : Item} (keeps : Keeps written old new)
    {place : List String} {entries : List (String × Item)} {name : String} {item : Item}
    (opened : old.at? place = some (.directory entries))
    (there : Entries.find? entries name = some item) :
    ∃ later found, new.at? place = some (.directory later) ∧
      Entries.find? later name = some found ∧ Alike item found := by
  obtain ⟨later, still⟩ := keeps.directory opened
  obtain ⟨found, kept, alike, _⟩ := keeps (place ++ [name]) item ((at?_name opened name).trans there)
  exact ⟨later, found, still, (at?_name still name).symm.trans kept, alike⟩

/-- A change of one entry of a directory. -/
theorem keeps_insert {entries : List (String × Item)} {name : String} {place : List String}
    {changed : Item}
    (inside : ∀ known, Entries.find? entries name = some known → Keeps [place] known changed) :
    Keeps [name :: place] (.directory entries)
      (.directory (Entries.insert entries name changed)) := by
  intro target item here
  cases target with
  | nil =>
    injection here with same
    subst same
    refine ⟨_, rfl, .directory _ _, ?_⟩
    rintro _ _ ⟨⟩
  | cons first inner =>
    rw [at?_directory] at here ⊢
    rw [Entries.find?_insert]
    by_cases hit : first = name
    · obtain ⟨known, found, below⟩ := Option.bind_eq_some_iff.mp here
      rw [hit] at found
      obtain ⟨later, there, alike, same⟩ := inside known found inner item below
      rw [if_pos hit]
      refine ⟨later, there, alike, fun apart => same ?_⟩
      intro equal
      rw [hit, List.mem_singleton.mp equal] at apart
      exact apart List.mem_cons_self
    · rw [if_neg hit]
      exact ⟨item, here, .refl item, fun _ _ _ => rfl⟩

def Replaces (old : Option Item) (new : Item) : Prop :=
  old = none ∨ ∃ before after, old = some (.file before) ∧ new = .file after

theorem keeps_file (before after : ByteArray) : Keeps [[]] (.file before) (.file after) := by
  intro place item here
  cases place with
  | nil =>
    injection here with same
    subst same
    exact ⟨_, rfl, .file _ _, fun apart => (apart List.mem_cons_self).elim⟩
  | cons => cases here

theorem keeps_put {new : Item} {name : String} {entries : List (String × Item)}
    (directory : List String) {top : Item} (opened : top.at? directory = some (.directory entries))
    (replaces : Replaces (Entries.find? entries name) new) :
    Keeps [directory ++ [name]] top (put new (directory ++ [name]) top) := by
  induction directory generalizing top with
  | nil =>
    injection opened with same
    subst same
    apply keeps_insert
    intro known found
    obtain free | ⟨before, after, taken, rfl⟩ := replaces
    · rw [free] at found
      cases found
    · rw [taken] at found
      cases found
      exact keeps_file before after
  | cons outer deeper ih =>
    cases top with
    | file content => cases opened
    | link target => cases opened
    | directory fields =>
      obtain ⟨child, known, below⟩ := Option.bind_eq_some_iff.mp opened
      have changed : put new (outer :: deeper ++ [name]) (.directory fields) =
          .directory (Entries.insert fields outer (put new (deeper ++ [name]) child)) := by
        rw [List.cons_append, put, known]
        rfl
      rw [changed]
      apply keeps_insert
      intro inner found
      rw [known] at found
      cases found
      exact ih below

end Item
end Formwright
