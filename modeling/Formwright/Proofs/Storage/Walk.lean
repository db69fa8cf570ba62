import Formwright.Proofs.Storage.Disk

/-!
Walks along the names of a path, as sequences of steps. Where a path led before a file was written
or a directory made, it leads afterwards, so that a file that was written can be read until another
is written there.
-/

namespace Formwright

def Spot.place : Spot → List String
  | .taken place _ => place
  | .free place => place

def Spot.Fits (top : Item) : Spot → Prop
  | .taken place item => top.at? place = some item
  | .free place =>
    ∃ directory name entries, place = directory ++ [name] ∧
      top.at? directory = some (.directory entries) ∧ Entries.find? entries name = none

namespace Disk

open Item

/-! ## Steps -/

structure IsEntryName (name : String) : Prop where
  ne_dot : name ≠ "."
  ne_up : name ≠ ".."
  short : name.utf8ByteSize ≤ maxName

def linkStart (directory : List String) (target : String) : List String :=
  if (Path.mk target).isAbsolute then [] else directory

/-- Names lead from a place to a spot. Behind a link `jump` tells how it goes on. -/
inductive Walks (top : Item) (follow : Bool)
    (jump : List String → List String → Except SystemError Spot) :
    List String → List String → Spot → Prop
  | here {place item} (there : top.at? place = some item) :
      Walks top follow jump place [] (.taken place item)
  | stay {place names spot entries} (opened : top.at? place = some (.directory entries))
      (rest : Walks top follow jump place names spot) :
      Walks top follow jump place ("." :: names) spot
  | up {place names spot entries} (opened : top.at? place = some (.directory entries))
      (rest : Walks top follow jump place.dropLast names spot) :
      Walks top follow jump place (".." :: names) spot
  | free {place name entries} (opened : top.at? place = some (.directory entries))
      (proper : IsEntryName name) (unused : Entries.find? entries name = none) :
      Walks top follow jump place [name] (.free (place ++ [name]))
  | link {place name entries target} (opened : top.at? place = some (.directory entries))
      (proper : IsEntryName name) (there : Entries.find? entries name = some (.link target))
      (own : follow = false) :
      Walks top follow jump place [name] (.taken (place ++ [name]) (.link target))
  | jump {place name names spot entries target}
      (opened : top.at? place = some (.directory entries)) (proper : IsEntryName name)
      (there : Entries.find? entries name = some (.link target))
      (passed : names ≠ [] ∨ follow = true)
      (rest : jump (linkStart place target) (namesOf target.toList ++ names) = .ok spot) :
      Walks top follow jump place (name :: names) spot
  | enter {place name names spot entries item}
      (opened : top.at? place = some (.directory entries)) (proper : IsEntryName name)
      (there : Entries.find? entries name = some item) (solid : ∀ target, item ≠ .link target)
      (rest : Walks top follow jump (place ++ [name]) names spot) :
      Walks top follow jump place (name :: names) spot

section Steps

variable {top : Item} {follow : Bool} {jump : List String → List String → Except SystemError Spot}
  {place names : List String} {spot : Spot}

theorem walks_of_walkFrom (ended : walkFrom top follow jump place names = .ok spot) :
    Walks top follow jump place names spot := by
  induction names generalizing place with
  | nil =>
    rw [walkFrom] at ended
    split at ended
    next item there =>
      cases ended
      exact .here there
    next => cases ended
  | cons name names ih =>
    rw [walkFrom] at ended
    split at ended
    next entries opened =>
      by_cases dot : name = "."
      · rw [if_pos dot] at ended
        exact dot ▸ .stay opened (ih ended)
      by_cases up : name = ".."
      · rw [if_neg dot, if_pos up] at ended
        exact up ▸ .up opened (ih ended)
      by_cases long : maxName < name.utf8ByteSize
      · rw [if_neg dot, if_neg up, if_pos long] at ended
        cases ended
      rw [if_neg dot, if_neg up, if_neg long] at ended
      have proper : IsEntryName name := ⟨dot, up, Nat.le_of_not_lt long⟩
      split at ended
      next unused =>
        split at ended
        next last =>
          cases ended
          rw [List.isEmpty_iff.mp last]
          exact .free opened proper unused
        next => cases ended
      next target there =>
        split at ended
        next stops =>
          rw [Bool.and_eq_true, List.isEmpty_iff, Bool.not_eq_true'] at stops
          cases ended
          rw [stops.1]
          exact .link opened proper there stops.2
        next passes =>
          refine .jump opened proper there ?_ ended
          by_cases last : names = []
          · right
            simpa [last] using passes
          · exact .inl last
      next item solid there => exact .enter opened proper there solid (ih ended)
    next => cases ended
    next => cases ended

theorem walkFrom_of_walks (walks : Walks top follow jump place names spot) :
    walkFrom top follow jump place names = .ok spot := by
  induction walks with
  | here there => simp only [walkFrom, there]
  | stay opened _ ih => simp only [walkFrom, opened, if_pos, ih]
  | up opened _ ih =>
    rw [walkFrom, opened]
    exact ih
  | free opened proper unused =>
    simp only [walkFrom, opened, if_neg proper.ne_dot, if_neg proper.ne_up,
      if_neg (Nat.not_lt.mpr proper.short), unused]
    rfl
  | link opened proper there own =>
    simp only [walkFrom, opened, if_neg proper.ne_dot, if_neg proper.ne_up,
      if_neg (Nat.not_lt.mpr proper.short), there, own]
    rfl
  | jump opened proper there passed rest =>
    simp only [walkFrom, opened, if_neg proper.ne_dot, if_neg proper.ne_up,
      if_neg (Nat.not_lt.mpr proper.short), there]
    rw [if_neg]
    · exact rest
    · rw [Bool.and_eq_true, List.isEmpty_iff, Bool.not_eq_true']
      rintro ⟨last, own⟩
      obtain more | follows := passed
      · exact more last
      · cases own.symm.trans follows
  | @enter _ _ _ _ _ item opened proper there solid _ ih =>
    simp only [walkFrom, opened, if_neg proper.ne_dot, if_neg proper.ne_up,
      if_neg (Nat.not_lt.mpr proper.short), there]
    cases item with
    | file => exact ih
    | directory => exact ih
    | link target => exact (solid target rfl).elim

theorem walkFrom_eq_ok :
    walkFrom top follow jump place names = .ok spot ↔ Walks top follow jump place names spot :=
  ⟨walks_of_walkFrom, walkFrom_of_walks⟩

theorem fits_of_walks (jumps : ∀ start names, jump start names = .ok spot → spot.Fits top)
    (walks : Walks top follow jump place names spot) : spot.Fits top := by
  induction walks with
  | here there => exact there
  | stay _ _ ih => exact ih jumps
  | up _ _ ih => exact ih jumps
  | free opened _ unused => exact ⟨_, _, _, rfl, opened, unused⟩
  | link opened _ there => exact (at?_name opened _).trans there
  | jump _ _ _ _ rest => exact jumps _ _ rest
  | enter _ _ _ _ _ ih => exact ih jumps

theorem fits_of_walk {links : Nat} (ended : walk top follow links place names = .ok spot) :
    spot.Fits top := by
  induction links generalizing place names with
  | zero => exact fits_of_walks (by rintro _ _ ⟨⟩) (walkFrom_eq_ok.mp ended)
  | succ links ih => exact fits_of_walks (fun _ _ => ih) (walkFrom_eq_ok.mp ended)

end Steps

/-! ## The last name -/

section Last

variable {top : Item} {last : String} {target : List String} {item : Item}

/-- Names, and one more behind them: the names alone lead to a directory, and the last one leads to
its entry of that name unless this is a link. -/
def LeadsInto (last : String) (target : List String) (follow own : List String → Spot → Prop)
    (names : List String) : Prop :=
  ∃ directory entries, follow (names ++ ["."]) (.taken directory (.directory entries)) ∧
    (target = directory ++ [last] ∨
      ∃ goal, own (names ++ [last]) (.taken (directory ++ [last]) (.link goal)))

theorem LeadsInto.after {follow own before beforeOwn : List String → Spot → Prop}
    {name : String} {names : List String} (leads : LeadsInto last target follow own names)
    (step : ∀ more spot, more ≠ [] → follow more spot → before (name :: more) spot)
    (stepOwn : ∀ more spot, more ≠ [] → own more spot → beforeOwn (name :: more) spot) :
    LeadsInto last target before beforeOwn (name :: names) := by
  obtain ⟨directory, entries, opened, sits⟩ := leads
  refine ⟨directory, entries, step _ _ (by simp) opened, sits.imp_right ?_⟩
  rintro ⟨goal, found⟩
  exact ⟨goal, stepOwn _ _ (by simp) found⟩

theorem walks_last (plain : last ≠ "." ∧ last ≠ "..")
    {jump own : List String → List String → Except SystemError Spot}
    (jumps : ∀ start names, jump start (names ++ [last]) = .ok (.taken target item) →
      LeadsInto last target (fun more spot => jump start more = .ok spot)
        (fun more spot => own start more = .ok spot) names)
    {place names : List String}
    (walks : Walks top true jump place (names ++ [last]) (.taken target item)) :
    LeadsInto last target (Walks top true jump place) (Walks top false own place) names := by
  induction names generalizing place with
  | nil =>
    rw [List.nil_append] at walks
    cases walks with
    | stay => exact (plain.1 rfl).elim
    | up => exact (plain.2 rfl).elim
    | link _ _ _ own => cases own
    | jump opened proper there =>
      -- followed, the link leads anywhere, but not followed it is an entry of the directory
      exact ⟨place, _, .stay opened (.here opened), .inr ⟨_, .link opened proper there rfl⟩⟩
    | enter opened _ _ _ rest =>
      cases rest
      exact ⟨place, _, .stay opened (.here opened), .inl rfl⟩
  | cons name names ih =>
    rw [List.cons_append] at walks
    generalize whole : names ++ [last] = later at walks
    cases walks with
    | stay opened rest =>
      subst whole
      exact (ih rest).after (fun _ _ _ => .stay opened) fun _ _ _ => .stay opened
    | up opened rest =>
      subst whole
      exact (ih rest).after (fun _ _ _ => .up opened) fun _ _ _ => .up opened
    | link _ _ _ own => cases own
    | @jump _ _ _ _ _ goal opened proper there _ rest =>
      rw [← whole, ← List.append_assoc] at rest
      have inside : LeadsInto last target
          (fun more spot => jump (linkStart place goal) (namesOf goal.toList ++ more) = .ok spot)
          (fun more spot => own (linkStart place goal) (namesOf goal.toList ++ more) = .ok spot)
          names := by
        simpa only [LeadsInto, List.append_assoc] using jumps _ _ rest
      exact inside.after (fun _ _ filled => .jump opened proper there (.inl filled))
        fun _ _ filled => .jump opened proper there (.inl filled)
    | enter opened proper there solid rest =>
      subst whole
      exact (ih rest).after (fun _ _ _ => .enter opened proper there solid) fun _ _ _ =>
        .enter opened proper there solid

theorem walk_last (plain : last ≠ "." ∧ last ≠ "..") {links : Nat} {place names : List String}
    (ended : walk top true links place (names ++ [last]) = .ok (.taken target item)) :
    LeadsInto last target (fun more spot => walk top true links place more = .ok spot)
      (fun more spot => walk top false links place more = .ok spot) names := by
  induction links generalizing place names with
  | zero =>
    simp only [walk, walkFrom_eq_ok] at ended ⊢
    exact walks_last plain (by rintro _ _ ⟨⟩) ended
  | succ links ih =>
    simp only [walk, walkFrom_eq_ok] at ended ⊢
    exact walks_last plain (fun _ _ => ih) ended

end Last

/-! ## Walks before and after a change -/

section Change

variable {written : List (List String)} {old new : Item} (keeps : Keeps written old new)
  {spot : Spot} {item : Item} (now : new.at? spot.place = some item)
  (solid : ∀ place, spot = .free place → ∀ target, item ≠ .link target)

include keeps now solid

/-- A walk takes the same steps, and at its end finds what is there now. -/
theorem walks_keeps {follow : Bool}
    {before after : List String → List String → Except SystemError Spot}
    (jumps : ∀ start names, before start names = .ok spot →
      after start names = .ok (.taken spot.place item))
    {place names : List String} (walks : Walks old follow before place names spot) :
    Walks new follow after place names (.taken spot.place item) := by
  induction walks with
  | here => exact .here now
  | stay opened _ ih =>
    obtain ⟨_, still⟩ := keeps.directory opened
    exact .stay still (ih now solid jumps)
  | up opened _ ih =>
    obtain ⟨_, still⟩ := keeps.directory opened
    exact .up still (ih now solid jumps)
  | free opened proper =>
    obtain ⟨_, still⟩ := keeps.directory opened
    exact .enter still proper ((at?_name still _).symm.trans now) (solid _ rfl) (.here now)
  | link opened proper there own =>
    obtain ⟨_, _, still, kept, alike⟩ := keeps.entry opened there
    cases alike
    cases ((at?_name still _).trans kept).symm.trans now
    exact .link still proper kept own
  | jump opened proper there passed rest =>
    obtain ⟨_, _, still, kept, alike⟩ := keeps.entry opened there
    cases alike
    exact .jump still proper kept passed (jumps _ _ rest)
  | enter opened proper there other _ ih =>
    obtain ⟨_, found, still, kept, alike⟩ := keeps.entry opened there
    refine .enter still proper kept ?_ (ih now solid jumps)
    rintro target rfl
    cases alike
    exact other target rfl

theorem walk_keeps {follow : Bool} {links : Nat} {place names : List String}
    (ended : walk old follow links place names = .ok spot) :
    walk new follow links place names = .ok (.taken spot.place item) := by
  induction links generalizing place names with
  | zero =>
    simp only [walk, walkFrom_eq_ok] at ended ⊢
    exact walks_keeps keeps now solid (by rintro _ _ ⟨⟩) ended
  | succ links ih =>
    simp only [walk, walkFrom_eq_ok] at ended ⊢
    exact walks_keeps keeps now solid (fun _ _ => ih) ended

end Change

end Disk
end Formwright
