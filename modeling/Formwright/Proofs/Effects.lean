/-!
Work that may fail, with a state and without one: what two pieces in a row do.
-/

namespace Formwright

variable {ε σ α β : Type}

/-! ## Without a state -/

theorem exists_ok_of_bind {first : Except ε α} {next : α → Except ε β} {result : β}
    (done : first >>= next = .ok result) :
    ∃ value, first = .ok value ∧ next value = .ok result := by
  cases first with
  | error failure => cases done
  | ok value => exact ⟨value, rfl, done⟩

theorem exists_ok_of_map {first : Except ε α} {change : α → β} {result : β}
    (done : first.map change = .ok result) :
    ∃ value, first = .ok value ∧ change value = result := by
  cases first with
  | error failure => cases done
  | ok value => exact ⟨value, rfl, Except.ok.inj done⟩

theorem ok_of_unless {refused : Prop} [Decidable refused] {failure : ε} {next : Unit → Except ε α}
    {result : α} (done : (if refused then throw failure >>= next else next ()) = .ok result) :
    ¬refused ∧ next () = .ok result := by
  split at done
  next => cases done
  next accepted => exact ⟨accepted, done⟩

theorem toOption_bind (first : Except ε α) (next : α → Except ε β) :
    (first >>= next).toOption = first.toOption.bind fun value => (next value).toOption := by
  cases first <;> rfl

theorem toOption_map (first : Except ε α) (change : α → β) :
    (first.map change).toOption = first.toOption.map change := by
  cases first <;> rfl

theorem toOption_eq_some {ended : Except ε α} {value : α} :
    ended.toOption = some value ↔ ended = .ok value := by
  cases ended with
  | error => exact ⟨nofun, nofun⟩
  | ok => exact ⟨fun same => congrArg _ (Option.some.inj same), fun same => by rw [same]; rfl⟩

/-! ## With a state -/

theorem run_bind (work : ExceptT ε (StateM σ) α) (next : α → ExceptT ε (StateM σ) β) (state : σ) :
    (work >>= next).run.run state =
      match work.run.run state with
      | (.ok value, later) => (next value).run.run later
      | (.error error, later) => (.error error, later) := by
  rw [ExceptT.run_bind, StateT.run_bind]
  generalize work.run.run state = ended
  obtain ⟨result, later⟩ := ended
  cases result <;> rfl

theorem run_tryCatch (work : ExceptT ε (StateM σ) α) (handle : ε → ExceptT ε (StateM σ) α)
    (state : σ) :
    (tryCatch work handle : ExceptT ε (StateM σ) α).run.run state =
      match work.run.run state with
      | (.ok value, later) => (.ok value, later)
      | (.error error, later) => (handle error).run.run later := by
  rw [ExceptT.run_tryCatch, StateT.run_bind]
  generalize work.run.run state = ended
  obtain ⟨result, later⟩ := ended
  cases result <;> rfl

theorem ok_of_bind {work : ExceptT ε (StateM σ) α} {next : α → ExceptT ε (StateM σ) β}
    {state later : σ} {result : β}
    (ended : (work >>= next).run.run state = (.ok result, later)) :
    ∃ value middle, work.run.run state = (.ok value, middle) ∧
      (next value).run.run middle = (.ok result, later) := by
  rw [run_bind] at ended
  split at ended
  next value middle same => exact ⟨value, middle, same, ended⟩
  next => cases ended

theorem run_lift (work : StateM σ α) (state : σ) :
    (ExceptT.lift work : ExceptT ε (StateM σ) α).run.run state =
      (.ok (work state).1, (work state).2) := rfl

/-- Work on every item of a list that leaves the state as it is. -/
theorem run_mapM {work : α → ExceptT ε (StateM σ) β} {result : α → β} {state : σ} {items : List α}
    (each : ∀ item ∈ items, (work item).run.run state = (.ok (result item), state)) :
    (items.mapM work).run.run state = (.ok (items.map result), state) := by
  induction items with
  | nil => rfl
  | cons item later ih =>
    rw [List.mapM_cons, run_bind, each item List.mem_cons_self]
    dsimp only
    rw [run_bind, ih fun other mem => each other (List.mem_cons_of_mem _ mem)]
    rfl

/-- Whatever the work answers, the state that it leaves is related to the one that it finds. -/
def Leads (relation : σ → σ → Prop) (work : ExceptT ε (StateM σ) α) : Prop :=
  ∀ state, relation state (work.run.run state).2

theorem leads_bind {relation : σ → σ → Prop}
    (trans : ∀ first second third, relation first second → relation second third →
      relation first third)
    {work : ExceptT ε (StateM σ) α} {next : α → ExceptT ε (StateM σ) β}
    (leads : Leads relation work) (leadsNext : ∀ value, Leads relation (next value)) :
    Leads relation (work >>= next) := by
  intro state
  have before := leads state
  rw [run_bind]
  generalize work.run.run state = ended at before ⊢
  obtain ⟨result, middle⟩ := ended
  cases result with
  | ok value => exact trans _ _ _ before (leadsNext value middle)
  | error => exact before

end Formwright
