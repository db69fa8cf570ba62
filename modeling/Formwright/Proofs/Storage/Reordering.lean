import Formwright.Proofs.Storage.Session
import Mathlib.Data.Option.Basic

/-!
Disks that hold the same things but list them in another order. Only listing a directory tells them
apart: paths lead to the same places, files read the same, and what is written to both keeps them
alike.
-/

namespace Formwright

/-! ## Items -/

inductive Face
  | file (content : ByteArray)
  | directory
  | link (target : String)

namespace Item

def face : Item → Face
  | .file content => .file content
  | .directory _ => .directory
  | .link target => .link target

def SameAs (first second : Item) : Prop :=
  ∀ place, (first.at? place).map face = (second.at? place).map face

variable {first second : Item}

theorem SameAs.refl (item : Item) : item.SameAs item := fun _ => rfl

theorem SameAs.symm (same : first.SameAs second) : second.SameAs first :=
  fun place => (same place).symm

theorem SameAs.shapes (same : first.SameAs second) :
    (∃ content, first = .file content ∧ second = .file content) ∨
      (∃ target, first = .link target ∧ second = .link target) ∨
      ∃ entries others, first = .directory entries ∧ second = .directory others := by
  have faces : first.face = second.face := Option.some.inj (same [])
  cases first with
  | file content =>
    cases second <;> cases faces
    exact .inl ⟨content, rfl, rfl⟩
  | link target =>
    cases second <;> cases faces
    exact .inr (.inl ⟨target, rfl, rfl⟩)
  | directory entries =>
    cases second <;> cases faces
    exact .inr (.inr ⟨entries, _, rfl, rfl⟩)

theorem SameAs.kind (same : first.SameAs second) : first.kind = second.kind := by
  obtain ⟨_, rfl, rfl⟩ | ⟨_, rfl, rfl⟩ | ⟨_, _, rfl, rfl⟩ := same.shapes <;> rfl

def BothSame (first second : Option Item) : Prop :=
  (first = none ∧ second = none) ∨
    ∃ inner other, first = some inner ∧ second = some other ∧ inner.SameAs other

theorem bothSame_of_faces {first second : Option Item}
    (same : ∀ place, (first.bind (at? place)).map face = (second.bind (at? place)).map face) :
    BothSame first second := by
  have here := same []
  cases first with
  | none =>
    cases second with
    | none => exact .inl ⟨rfl, rfl⟩
    | some => cases here
  | some inner =>
    cases second with
    | none => cases here
    | some other => exact .inr ⟨inner, other, rfl, rfl, same⟩

theorem SameAs.at? (same : first.SameAs second) (place : List String) :
    BothSame (first.at? place) (second.at? place) := by
  apply bothSame_of_faces
  intro deeper
  rw [← at?_append, ← at?_append]
  exact same (place ++ deeper)

/-- Directories hold the same things when they do so under every name. -/
theorem sameAs_directory {entries others : List (String × Item)} :
    (directory entries).SameAs (.directory others) ↔
      ∀ name, BothSame (Entries.find? entries name) (Entries.find? others name) := by
  constructor
  · intro same name
    exact bothSame_of_faces fun place => same (name :: place)
  · intro same place
    cases place with
    | nil => rfl
    | cons name deeper =>
      rw [at?_directory, at?_directory]
      obtain ⟨free, unused⟩ | ⟨inner, other, there, found, alike⟩ := same name
      · rw [free, unused]
      · rw [there, found]
        exact alike deeper

theorem sameAs_of_perm {entries others : List (String × Item)} (perm : entries.Perm others)
    (unique : (Entries.keys entries).Nodup) : (directory entries).SameAs (.directory others) := by
  rw [sameAs_directory]
  intro name
  rw [Entries.find?_perm perm unique]
  cases Entries.find? others name with
  | none => exact .inl ⟨rfl, rfl⟩
  | some inner => exact .inr ⟨inner, inner, rfl, rfl, .refl inner⟩

theorem sameAs_insert {entries others : List (String × Item)} {inner other : Item}
    (same : (directory entries).SameAs (.directory others)) (alike : inner.SameAs other)
    (name : String) :
    (directory (Entries.insert entries name inner)).SameAs
      (.directory (Entries.insert others name other)) := by
  rw [sameAs_directory] at same ⊢
  intro wanted
  rw [Entries.find?_insert, Entries.find?_insert]
  split
  · exact .inr ⟨inner, other, rfl, rfl, alike⟩
  · exact same wanted

theorem sameAs_put (new : Item) (place : List String) (same : first.SameAs second) :
    (put new place first).SameAs (put new place second) := by
  induction place generalizing first second with
  | nil => exact .refl new
  | cons name deeper ih =>
    obtain ⟨_, rfl, rfl⟩ | ⟨_, rfl, rfl⟩ | ⟨entries, others, rfl, rfl⟩ := same.shapes
    · exact .refl _
    · exact .refl _
    · have inner : ((Entries.find? entries name).getD (.directory [])).SameAs
          ((Entries.find? others name).getD (.directory [])) := by
        obtain ⟨free, unused⟩ | ⟨_, _, there, found, alike⟩ := sameAs_directory.mp same name
        · rw [free, unused]
          exact .refl _
        · rw [there, found]
          exact alike
      exact sameAs_insert same (ih inner) name

end Item

/-! ## Paths -/

inductive Spot.SameAs : Spot → Spot → Prop
  | taken (place : List String) {first second : Item} (same : first.SameAs second) :
      SameAs (.taken place first) (.taken place second)
  | free (place : List String) : SameAs (.free place) (.free place)

/-- Answers that agree: both are errors, and the same one, or the results are related. -/
inductive Answers {α : Type} (related : α → α → Prop) :
    Except SystemError α → Except SystemError α → Prop
  | ok {first second : α} (same : related first second) :
      Answers related (.ok first) (.ok second)
  | error (error : SystemError) : Answers related (.error error) (.error error)

namespace Disk

structure SameAs (first second : Disk) : Prop where
  top : first.top.SameAs second.top
  here : first.here = second.here

section Walk

variable {first second : Item} (same : first.SameAs second) (follow : Bool)

include same

theorem walkFrom_sameAs {jump other : List String → List String → Except SystemError Spot}
    (jumps : ∀ start names, Answers Spot.SameAs (jump start names) (other start names))
    (place names : List String) :
    Answers Spot.SameAs (walkFrom first follow jump place names)
      (walkFrom second follow other place names) := by
  induction names generalizing place with
  | nil =>
    rw [walkFrom, walkFrom]
    obtain ⟨lost, gone⟩ | ⟨_, _, here, there, alike⟩ := same.at? place
    · rw [lost, gone]
      exact .error _
    · rw [here, there]
      exact .ok (.taken place alike)
  | cons name names ih =>
    rw [walkFrom, walkFrom]
    obtain ⟨lost, gone⟩ | ⟨_, _, here, there, alike⟩ := same.at? place
    · rw [lost, gone]
      exact .error _
    rw [here, there]
    obtain ⟨_, rfl, rfl⟩ | ⟨_, rfl, rfl⟩ | ⟨entries, others, rfl, rfl⟩ := alike.shapes
    · exact .error _
    · exact .error _
    dsimp only
    split
    next => exact ih place
    split
    next => exact ih place.dropLast
    split
    next => exact .error _
    obtain ⟨free, unused⟩ | ⟨_, _, inside, found, within⟩ := Item.sameAs_directory.mp alike name
    · rw [free, unused]
      dsimp only
      split
      next => exact .ok (.free _)
      next => exact .error _
    rw [inside, found]
    obtain ⟨_, rfl, rfl⟩ | ⟨target, rfl, rfl⟩ | ⟨_, _, rfl, rfl⟩ := within.shapes
    · exact ih (place ++ [name])
    · dsimp only
      split
      next => exact .ok (.taken _ (.refl _))
      next => exact jumps _ _
    · exact ih (place ++ [name])

theorem walk_sameAs (links : Nat) (place names : List String) :
    Answers Spot.SameAs (walk first follow links place names)
      (walk second follow links place names) := by
  induction links generalizing place names with
  | zero => exact walkFrom_sameAs same follow (fun _ _ => .error _) place names
  | succ links ih => exact walkFrom_sameAs same follow ih place names

end Walk

variable {first second : Disk} (same : first.SameAs second) (path : Path)

include same

theorem find_sameAs (follow : Bool) :
    (∃ error, first.find follow path = .error error ∧ second.find follow path = .error error) ∨
      (∃ place, first.find follow path = .ok (.free place) ∧
        second.find follow path = .ok (.free place)) ∨
      ∃ place item other, first.find follow path = .ok (.taken place item) ∧
        second.find follow path = .ok (.taken place other) ∧ item.SameAs other := by
  have agree : Answers Spot.SameAs (first.find follow path) (second.find follow path) := by
    rw [find, find, same.here]
    dsimp only
    split
    next => exact .error _
    split
    next => exact .error _
    split
    next => exact .error _
    exact walk_sameAs same.top follow maxLinks _ _
  generalize first.find follow path = ended at agree ⊢
  generalize second.find follow path = other at agree ⊢
  cases agree with
  | error error => exact .inl ⟨error, rfl, rfl⟩
  | ok spots =>
    cases spots with
    | free place => exact .inr (.inl ⟨place, rfl, rfl⟩)
    | taken place items => exact .inr (.inr ⟨place, _, _, rfl, rfl, items⟩)

theorem kind?_sameAs (follow : Bool) : first.kind? follow path = second.kind? follow path := by
  rw [kind?, kind?]
  obtain ⟨_, one, two⟩ | ⟨_, one, two⟩ | ⟨_, _, _, one, two, items⟩ := find_sameAs same path follow
  · rw [one, two]
  · rw [one, two]
  · rw [one, two]
    exact congrArg some items.kind

theorem read_sameAs : first.read path = second.read path := by
  rw [read, read]
  obtain ⟨_, one, two⟩ | ⟨_, one, two⟩ | ⟨_, _, _, one, two, items⟩ := find_sameAs same path true
  · rw [one, two]
  · rw [one, two]
  · rw [one, two]
    obtain ⟨_, rfl, rfl⟩ | ⟨_, rfl, rfl⟩ | ⟨_, _, rfl, rfl⟩ := items.shapes <;> rfl

theorem put_sameAs (place : List String) (item : Item) :
    (first.put place item).SameAs (second.put place item) :=
  ⟨Item.sameAs_put item place same.top, same.here⟩

theorem write_sameAs (content : ByteArray) :
    Answers SameAs (first.write path content) (second.write path content) := by
  rw [write, write]
  obtain ⟨_, one, two⟩ | ⟨place, one, two⟩ | ⟨place, _, _, one, two, items⟩ :=
    find_sameAs same path true
  · rw [one, two]
    exact .error _
  · rw [one, two]
    exact .ok (put_sameAs same place _)
  · rw [one, two]
    obtain ⟨_, rfl, rfl⟩ | ⟨_, rfl, rfl⟩ | ⟨_, _, rfl, rfl⟩ := items.shapes
    · exact .ok (put_sameAs same place _)
    · exact .error _
    · exact .error _

theorem makeDirectory_sameAs :
    Answers SameAs (first.makeDirectory path) (second.makeDirectory path) := by
  rw [makeDirectory, makeDirectory]
  obtain ⟨_, one, two⟩ | ⟨place, one, two⟩ | ⟨_, _, _, one, two, _⟩ :=
    find_sameAs same (trimSeparators path) false
  · rw [one, two]
    exact .error _
  · rw [one, two]
    exact .ok (put_sameAs same place _)
  · rw [one, two]
    exact .error _

end Disk

/-! ## Work -/

namespace Session

variable {ε α β : Type}

structure SameAs (first second : Session) : Prop where
  disk : first.disk.SameAs second.disk
  printed : first.printed = second.printed
  errors : first.errors = second.errors

/-- Work that does not tell sessions apart that differ only in how their disks are listed. -/
def Blind (work : ExceptT ε (StateM Session) α) : Prop :=
  ∀ first second : Session, first.SameAs second →
    (work.run.run first).1 = (work.run.run second).1 ∧
      (work.run.run first).2.SameAs (work.run.run second).2

theorem blind_bind {work : ExceptT ε (StateM Session) α}
    {next : α → ExceptT ε (StateM Session) β} (blind : Blind work)
    (blindNext : ∀ value, Blind (next value)) : Blind (work >>= next) := by
  intro first second same
  obtain ⟨results, sessions⟩ := blind first second same
  rw [run_bind, run_bind]
  generalize work.run.run first = ended at results sessions ⊢
  generalize work.run.run second = other at results sessions ⊢
  obtain ⟨result, later⟩ := ended
  obtain ⟨_, after⟩ := other
  cases results
  cases result with
  | ok value => exact blindNext value later after sessions
  | error => exact ⟨rfl, sessions⟩

theorem blind_pure (value : α) : Blind (pure value : ExceptT ε (StateM Session) α) :=
  fun _ _ same => ⟨rfl, same⟩

theorem blind_throw (failure : ε) : Blind (throw failure : ExceptT ε (StateM Session) α) :=
  fun _ _ same => ⟨rfl, same⟩

theorem blind_kind (path : Path) : Blind (Host.kind path : ExceptT ε (StateM Session) _) :=
  fun _ _ same => ⟨congrArg Except.ok (Disk.kind?_sameAs same.disk path true), same⟩

theorem blind_attempt {change : Disk → Except SystemError Disk}
    (agree : ∀ first second : Disk, first.SameAs second →
      Answers Disk.SameAs (change first) (change second)) :
    Blind (ExceptT.lift (attempt change) : ExceptT ε (StateM Session) _) := by
  intro first second same
  rw [run_lift, run_lift, attempt, attempt]
  have changed := agree _ _ same.disk
  generalize change first.disk = one at changed ⊢
  generalize change second.disk = two at changed ⊢
  cases changed with
  | error => exact ⟨rfl, same⟩
  | ok disks => exact ⟨rfl, disks, same.printed, same.errors⟩

theorem blind_write (path : Path) (content : ByteArray) :
    Blind (Host.write path content : ExceptT ε (StateM Session) _) :=
  blind_attempt fun _ _ same => Disk.write_sameAs same path content

theorem blind_makeDirectory (path : Path) :
    Blind (Host.makeDirectory path : ExceptT ε (StateM Session) _) :=
  blind_attempt fun _ _ same => Disk.makeDirectory_sameAs same path

theorem blind_makeDirectories (path : Path) :
    Blind (Host.makeDirectories path : ExceptT ε (StateM Session) _) :=
  Closed.makeDirectories ⟨blind_pure, blind_bind, blind_kind, blind_makeDirectory⟩ path

theorem blind_readText (path : Path) :
    Blind (Host.readText path : ExceptT ε (StateM Session) _) := by
  intro first second same
  rw [run_readText, run_readText, textAt, textAt, Disk.read_sameAs same.disk]
  exact ⟨rfl, same⟩

end Session
end Formwright
