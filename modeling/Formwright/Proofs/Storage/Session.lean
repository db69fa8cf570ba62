import Formwright.Proofs.Effects
import Formwright.Proofs.Storage.Writing
import Formwright.Proofs.Text.Utf8

/-!
Work on the disk of a session. Making directories, however many of them, only adds to the disk.
-/

namespace Formwright.Session

open Disk

variable {ε : Type}

/-! ## Making directories -/

/-- What holds of work whatever it is made of, if it holds of asking what is there and of making a
directory. -/
structure Closed (holds : {α : Type} → ExceptT ε (StateM Session) α → Prop) : Prop where
  pure {α : Type} (value : α) : holds (pure value)
  bind {α β : Type} {work : ExceptT ε (StateM Session) α}
    {next : α → ExceptT ε (StateM Session) β} (first : holds work)
    (later : ∀ value, holds (next value)) : holds (work >>= next)
  kind (path : Path) : holds (Host.kind path)
  makeDirectory (path : Path) : holds (Host.makeDirectory path)

namespace Closed

variable {holds : {α : Type} → ExceptT ε (StateM Session) α → Prop} (closed : Closed holds)

include closed

theorem settle (path : Path) (result : Except SystemError Unit) :
    holds (Host.settle path result) := by
  cases result with
  | ok => exact closed.pure _
  | error error =>
    apply closed.bind
    · exact closed.bind (closed.kind path) fun _ => closed.pure _
    · intro there
      exact closed.pure _

theorem makeDirectoriesFrom (fuel : Nat) (path : Path) :
    holds (Host.makeDirectoriesFrom fuel path) := by
  induction fuel generalizing path with
  | zero => exact closed.pure _
  | succ fuel ih =>
    rw [Host.makeDirectoriesFrom]
    split
    next => exact closed.pure _
    next =>
      apply closed.bind (closed.makeDirectory path)
      intro result
      split
      next =>
        split
        next => exact closed.pure _
        next parent _ =>
          apply closed.bind (ih parent)
          intro above
          split
          next => exact closed.pure _
          next =>
            exact closed.bind (closed.makeDirectory path) fun again => closed.settle path again
      next => exact closed.settle path result

theorem makeDirectories (path : Path) : holds (Host.makeDirectories path) :=
  closed.makeDirectoriesFrom _ path

end Closed

/-! ## Disks that grow -/

def Gains (old new : Session) : Prop := Continues [] old.disk new.disk

theorem Gains.trans (first second third : Session) (before : Gains first second)
    (after : Gains second third) : Gains first third :=
  Continues.trans before after

theorem gains_bind {first second : Type} {work : ExceptT ε (StateM Session) first}
    {next : first → ExceptT ε (StateM Session) second} (leads : Leads Gains work)
    (leadsNext : ∀ value, Leads Gains (next value)) : Leads Gains (work >>= next) :=
  leads_bind Gains.trans leads leadsNext

theorem gains_pure {value : Type} (result : value) :
    Leads Gains (pure result : ExceptT ε (StateM Session) value) :=
  fun session => .refl session.disk

theorem gains_kind (path : Path) : Leads Gains (Host.kind path : ExceptT ε (StateM Session) _) :=
  fun session => .refl session.disk

theorem makeDirectory_eq (path : Path) :
    (Host.makeDirectory path : ExceptT ε (StateM Session) (Except SystemError Unit)) =
      ExceptT.lift (attempt (·.makeDirectory path)) := rfl

theorem write_eq (path : Path) (content : ByteArray) :
    (Host.write path content : ExceptT ε (StateM Session) (Except SystemError Unit)) =
      ExceptT.lift (attempt (·.write path content)) := rfl

theorem gains_makeDirectory (path : Path) :
    Leads Gains (Host.makeDirectory path : ExceptT ε (StateM Session) _) := by
  intro session
  rw [makeDirectory_eq, run_lift, attempt]
  split
  next disk made => exact continues_makeDirectory made
  next => exact .refl session.disk

theorem gains_makeDirectories (path : Path) :
    Leads Gains (Host.makeDirectories path : ExceptT ε (StateM Session) _) :=
  Closed.makeDirectories ⟨gains_pure, gains_bind, gains_kind, gains_makeDirectory⟩ path

/-! ## Reading -/

def textAt (disk : Disk) (path : Path) : Except ReadError String :=
  match disk.read path with
  | .error error => .error (.system error)
  | .ok bytes =>
    match Text.decodeStrict bytes with
    | some text => .ok text
    | none => .error .notText

theorem textAt_eq_ok {disk : Disk} {path : Path} {text : String} :
    textAt disk path = .ok text ↔ disk.read path = .ok text.toUTF8 := by
  rw [textAt]
  cases disk.read path with
  | error error => exact iff_of_false (by rintro ⟨⟩) (by rintro ⟨⟩)
  | ok bytes =>
    dsimp only
    rw [Except.ok.injEq, ← Text.decodeStrict_eq_some]
    cases Text.decodeStrict bytes with
    | none => exact iff_of_false (by rintro ⟨⟩) (by rintro ⟨⟩)
    | some decoded => rw [Except.ok.injEq, Option.some.injEq]

theorem run_readText (session : Session) (path : Path) :
    (Host.readText path : ExceptT ε (StateM Session) _).run.run session =
      (.ok (textAt session.disk path), session) := by
  have asked : (Host.read path : ExceptT ε (StateM Session) _).run.run session =
      (.ok (session.disk.read path), session) := rfl
  rw [Host.readText, run_bind, asked, textAt]
  cases session.disk.read path with
  | error error => rfl
  | ok bytes =>
    dsimp only
    cases Text.decodeStrict bytes <;> rfl

/-! ## Writing -/

theorem disk_of_write {path : Path} {content : ByteArray} {session later : Session}
    (asked : (Host.write path content : ExceptT ε (StateM Session) _).run.run session =
      (.ok (.ok ()), later)) :
    session.disk.write path content = .ok later.disk := by
  rw [write_eq, run_lift, attempt] at asked
  split at asked
  next disk written =>
    cases asked
    exact written
  next => cases asked

end Formwright.Session
