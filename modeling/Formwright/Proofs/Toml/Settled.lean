import Formwright.Proofs.Entries
import Formwright.Proofs.Toml.Numbers

/-!
A value that a document has given to a key stays, whatever the document says behind it: a second
value for the key would make the document invalid.
-/

namespace Formwright.Toml

namespace Draft

/-- A value lies at the end of a path of keys, in tables that headers have opened. -/
inductive Settled (value : Value) : List String → Entries Draft → Prop
  | here {key : String} {entries : Entries Draft} (unique : (Entries.keys entries).Nodup)
      (found : Entries.find? entries key = some (.closed value)) : Settled value [key] entries
  | inside {key : String} {path : List String} {entries inner : Entries Draft}
      (unique : (Entries.keys entries).Nodup)
      (found : Entries.find? entries key = some (.table .header inner))
      (settled : Settled value path inner) : Settled value (key :: path) entries

def isOpen : Draft → Bool
  | .closed _ | .table .header _ => false
  | .table .implied _ | .table .dotted _ | .tables _ _ => true

variable {value : Value} {path : List String} {entries changed : Entries Draft}

theorem nodup_insert (unique : (Entries.keys entries).Nodup) (key : String) (draft : Draft) :
    (Entries.keys (Entries.insert entries key draft)).Nodup := by
  rw [Entries.keys_insert]
  split
  next => exact unique
  next fresh =>
    rw [List.nodup_append]
    refine ⟨unique, List.pairwise_singleton _ _, ?_⟩
    intro other mem new single same
    rw [List.mem_singleton.mp single] at same
    exact fresh (same ▸ mem)

/-- An entry that is still open is none on the way to a settled value. -/
theorem Settled.insert (settled : Settled value path entries) {key : String}
    (others : ∀ draft ∈ Entries.find? entries key, draft.isOpen = true)
    (draft : Draft) : Settled value path (Entries.insert entries key draft) := by
  have kept {wanted : String} {final : Draft} (found : Entries.find? entries wanted = some final)
      (isFinal : final.isOpen = false) :
      Entries.find? (Entries.insert entries key draft) wanted = some final := by
    rw [Entries.find?_insert, if_neg, found]
    rintro rfl
    rw [others final found] at isFinal
    cases isFinal
  cases settled with
  | here unique found => exact .here (nodup_insert unique key draft) (kept found rfl)
  | inside unique found settled =>
    exact .inside (nodup_insert unique key draft) (kept found rfl) settled

/-- A table on the way may change, if the value stays in it. -/
theorem Settled.insert_table (settled : Settled value path entries) {key : String}
    {origin : Origin} {inner after : Entries Draft}
    (found : Entries.find? entries key = some (.table origin inner))
    (keeps : ∀ {path}, Settled value path inner → Settled value path after) :
    Settled value path (Entries.insert entries key (.table origin after)) := by
  by_cases opened : (Draft.table origin inner).isOpen = true
  · exact settled.insert (by simp [found, opened]) _
  · have known (wanted : String) := Entries.find?_insert entries key wanted (.table origin after)
    cases settled with
    | @here wanted _ unique there =>
      refine .here (nodup_insert unique ..) ?_
      rw [known, if_neg, there]
      rintro rfl
      rw [found] at there
      cases there
    | @inside wanted path _ deeper unique there settled =>
      by_cases same : wanted = key
      · subst same
        rw [found] at there
        cases there
        refine .inside (nodup_insert unique ..) ?_ (keeps settled)
        rw [known, if_pos rfl]
      · refine .inside (nodup_insert unique ..) ?_ settled
        rw [known, if_neg same, there]

theorem Settled.openTable {key : String} (settled : Settled value path entries)
    (done : openTable key entries = some changed) : Settled value path changed := by
  rw [Draft.openTable] at done
  split at done
  next found =>
    cases done
    exact settled.insert (by simp [found]) _
  next found =>
    cases done
    exact settled.insert (by simp [found, isOpen]) _
  next => cases done

theorem Settled.openNext {key : String} (settled : Settled value path entries)
    (done : openNext key entries = some changed) : Settled value path changed := by
  rw [Draft.openNext] at done
  split at done
  next found =>
    cases done
    exact settled.insert (by simp [found]) _
  next found =>
    cases done
    exact settled.insert (by simp [found, isOpen]) _
  next => cases done

theorem Settled.addValue {new : Value} {key : String} {open_ : Bool} {route : List String}
    (settled : Settled value path entries)
    (done : addValue new key open_ route entries = some changed) : Settled value path changed := by
  cases route with
  | nil =>
    rw [Draft.addValue] at done
    split at done
    next => cases done
    next fresh =>
      cases done
      have absent : Entries.find? entries key = none := by
        simp only [Bool.or_eq_true, not_or, Entries.contains] at fresh
        exact Option.not_isSome_iff_eq_none.mp fresh.2
      exact settled.insert (by simp [absent]) _
  | cons name route =>
    rw [Draft.addValue] at done
    split at done
    next found =>
      obtain ⟨inner, -, rfl⟩ := Option.map_eq_some_iff.mp done
      exact settled.insert (by simp [found]) _
    next found =>
      obtain ⟨inner, -, rfl⟩ := Option.map_eq_some_iff.mp done
      exact settled.insert (by simp [found, isOpen]) _
    next found =>
      obtain ⟨inner, -, rfl⟩ := Option.map_eq_some_iff.mp done
      exact settled.insert (by simp [found, isOpen]) _
    next found =>
      obtain ⟨inner, -, rfl⟩ := Option.map_eq_some_iff.mp done
      exact settled.insert (by simp [found, isOpen]) _
    next => cases done

theorem Settled.within {change : Entries Draft → Option (Entries Draft)}
    (keeps : ∀ {path before after}, change before = some after → Settled value path before →
      Settled value path after) {route : List String} (settled : Settled value path entries)
    (done : within change route entries = some changed) : Settled value path changed := by
  induction route generalizing path entries changed with
  | nil => exact keeps done settled
  | cons key route ih =>
    rw [Draft.within] at done
    split at done
    next found =>
      obtain ⟨inner, -, rfl⟩ := Option.map_eq_some_iff.mp done
      exact settled.insert (by simp [found]) _
    next found =>
      obtain ⟨inner, taken, rfl⟩ := Option.map_eq_some_iff.mp done
      exact settled.insert_table found fun settled => ih settled taken
    next found =>
      obtain ⟨inner, -, rfl⟩ := Option.map_eq_some_iff.mp done
      exact settled.insert (by simp [found, isOpen]) _
    next => cases done

end Draft

namespace Reading

variable {value : Value} {path : List String} {reading after : Reading} {text rest : List Char}

theorem settled_step (found : reading.step text = some (after, rest))
    (settled : Draft.Settled value path reading.root) : Draft.Settled value path after.root := by
  unfold step at found
  split at found
  next =>
    obtain ⟨⟨route, key, behind⟩, -, found⟩ := Option.bind_eq_some_iff.mp found
    obtain ⟨inner, -, found⟩ := Option.bind_eq_some_iff.mp found
    obtain ⟨final, -, found⟩ := Option.bind_eq_some_iff.mp found
    obtain ⟨root, opened, same⟩ := Option.bind_eq_some_iff.mp found
    cases same
    exact settled.within (fun done settled => settled.openNext done) opened
  next =>
    obtain ⟨⟨route, key, behind⟩, -, found⟩ := Option.bind_eq_some_iff.mp found
    obtain ⟨final, -, found⟩ := Option.bind_eq_some_iff.mp found
    obtain ⟨root, opened, same⟩ := Option.bind_eq_some_iff.mp found
    cases same
    exact settled.within (fun done settled => settled.openTable done) opened
  next =>
    obtain ⟨⟨route, key, behind⟩, -, found⟩ := Option.bind_eq_some_iff.mp found
    obtain ⟨given, -, found⟩ := Option.bind_eq_some_iff.mp found
    obtain ⟨⟨new, final⟩, -, found⟩ := Option.bind_eq_some_iff.mp found
    obtain ⟨root, added, same⟩ := Option.bind_eq_some_iff.mp found
    cases same
    exact settled.within (fun done settled => settled.addValue done) added

theorem settled_run {fuel : Nat} (found : run fuel reading text = some after)
    (settled : Draft.Settled value path reading.root) : Draft.Settled value path after.root := by
  induction fuel generalizing reading text with
  | zero => cases found
  | succ fuel ih =>
    rw [run] at found
    obtain ⟨start, -, found⟩ := Option.bind_eq_some_iff.mp found
    dsimp only at found
    split at found
    next =>
      cases found
      exact settled
    next =>
      obtain ⟨⟨stepped, behind⟩, taken, found⟩ := Option.bind_eq_some_iff.mp found
      obtain ⟨next, -, found⟩ := Option.bind_eq_some_iff.mp found
      exact ih found (settled_step taken settled)

/-- A document that is read with some fuel is read with more. -/
theorem run_more {fuel : Nat} (found : run fuel reading text = some after) (more : Nat) :
    run (fuel + more) reading text = some after := by
  induction fuel generalizing reading text with
  | zero => cases found
  | succ fuel ih =>
    rw [run] at found
    obtain ⟨start, void, found⟩ := Option.bind_eq_some_iff.mp found
    rw [Nat.succ_add, run, void]
    dsimp only [bind, Option.bind] at found ⊢
    split at found
    next => exact found
    next =>
      obtain ⟨⟨stepped, behind⟩, taken, found⟩ := Option.bind_eq_some_iff.mp found
      obtain ⟨next, line, found⟩ := Option.bind_eq_some_iff.mp found
      simp only [taken, line]
      exact ih found

end Reading

/-! ## Settled values of the finished table -/

namespace Draft

variable {value : Value} {entries : Entries Draft}

theorem find?_of_mem {key : String} {draft : Draft} (unique : (Entries.keys entries).Nodup)
    (mem : (key, draft) ∈ entries) : Entries.find? entries key = some draft := by
  induction entries with
  | nil => cases mem
  | cons entry later ih =>
    obtain ⟨other, first⟩ := entry
    obtain ⟨fresh, unique⟩ := List.nodup_cons.mp unique
    rw [Entries.find?_cons]
    cases List.mem_cons.mp mem with
    | inl same =>
      cases same
      rw [if_pos rfl]
    | inr mem =>
      have listed : key ∈ later.map Prod.fst := List.mem_map_of_mem mem
      have differs : key ≠ other := fun same => fresh (same ▸ listed)
      rw [if_neg differs, ih unique mem]

theorem Settled.value_eq {key : String} {found : Value} (settled : Settled value [key] entries)
    (mem : (key, found) ∈ sortByKey (values entries)) : found = value := by
  obtain ⟨⟨other, draft⟩, listed, same⟩ := mem_values.mp (List.mem_mergeSort.mp mem)
  cases same
  cases settled with
  | here unique there =>
    rw [find?_of_mem unique listed] at there
    cases there
    rfl
  | inside _ _ deeper => cases deeper

theorem Settled.table_eq {key next : String} {path : List String} {found : Value}
    (settled : Settled value (key :: next :: path) entries)
    (mem : (key, found) ∈ sortByKey (values entries)) :
    ∃ inner, found = .table (sortByKey (values inner)) ∧ Settled value (next :: path) inner := by
  obtain ⟨⟨other, draft⟩, listed, same⟩ := mem_values.mp (List.mem_mergeSort.mp mem)
  cases same
  cases settled with
  | inside unique there settled =>
    rw [find?_of_mem unique listed] at there
    cases there
    exact ⟨_, rfl, settled⟩

end Draft
end Formwright.Toml
