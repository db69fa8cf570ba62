import Formwright.Entries
import Mathlib.Data.List.Induction
import Mathlib.Data.List.Nodup

/-!
What a map holds of the pairs that are put into it one after the other: each key where it came
first, with the value that came last.
-/

namespace Formwright.Entries

variable {α : Type}

theorem eraseDups_append_single (keys : List String) (last : String) :
    (keys ++ [last]).eraseDups = if last ∈ keys then keys.eraseDups else keys.eraseDups ++ [last] := by
  rw [List.eraseDups_append]
  split
  next known => simp [List.removeAll, known]
  next fresh => simp [List.removeAll, List.eraseDups_cons, fresh]

theorem nodup_eraseDups (keys : List String) : keys.eraseDups.Nodup := by
  induction keys using List.reverseRecOn with
  | nil => exact List.nodup_nil
  | append_singleton keys last ih =>
    rw [eraseDups_append_single]
    split
    next => exact ih
    next fresh =>
      rw [← List.concat_eq_append, List.nodup_concat, List.mem_eraseDups]
      exact ⟨fresh, ih⟩

theorem insert_cons (other key : String) (old value : α) (rest : Entries α) :
    insert ((other, old) :: rest) key value =
      if other = key then (key, value) :: rest else (other, old) :: insert rest key value := rfl

theorem find?_cons (other wanted : String) (value : α) (rest : Entries α) :
    find? ((other, value) :: rest) wanted =
      if wanted = other then some value else find? rest wanted := by
  rw [find?, List.lookup_cons]
  by_cases same : wanted = other
  · rw [if_pos same, beq_iff_eq.mpr same]
  · rw [if_neg same, beq_eq_false_iff_ne.mpr same]
    rfl

theorem mem_insert {entries : Entries α} {key : String} {value : α} {pair : String × α}
    (mem : pair ∈ insert entries key value) : pair = (key, value) ∨ pair ∈ entries := by
  induction entries with
  | nil => exact .inl (List.mem_singleton.mp mem)
  | cons entry rest ih =>
    obtain ⟨other, old⟩ := entry
    rw [insert_cons] at mem
    split at mem
    · cases List.mem_cons.mp mem with
      | inl same => exact .inl same
      | inr later => exact .inr (List.mem_cons_of_mem _ later)
    · cases List.mem_cons.mp mem with
      | inl same => exact .inr (same ▸ List.mem_cons_self)
      | inr later => exact (ih later).imp_right (List.mem_cons_of_mem _)

theorem find?_insert (entries : Entries α) (key wanted : String) (value : α) :
    find? (insert entries key value) wanted =
      if wanted = key then some value else find? entries wanted := by
  induction entries with
  | nil => exact find?_cons key wanted value []
  | cons entry rest ih =>
    obtain ⟨other, old⟩ := entry
    rw [insert_cons, find?_cons]
    by_cases known : other = key
    · subst known
      rw [if_pos rfl, find?_cons]
      split <;> rfl
    · rw [if_neg known, find?_cons, ih]
      by_cases here : wanted = other
      · have differs : wanted ≠ key := here ▸ known
        rw [if_pos here, if_neg differs, if_pos here]
      · rw [if_neg here, if_neg here]

/-- Where a value is put does not depend on it. -/
theorem insert_around (entries : Entries α) (key : String) :
    ∃ earlier later, ∀ value, insert entries key value = earlier ++ (key, value) :: later := by
  induction entries with
  | nil => exact ⟨[], [], fun _ => rfl⟩
  | cons entry rest ih =>
    obtain ⟨other, old⟩ := entry
    by_cases known : other = key
    · exact ⟨[], rest, fun value => by rw [insert_cons, if_pos known]; rfl⟩
    · obtain ⟨earlier, later, inserted⟩ := ih
      refine ⟨(other, old) :: earlier, later, fun value => ?_⟩
      rw [insert_cons, if_neg known, inserted, List.cons_append]

theorem erase_insert (entries : Entries α) (key : String) (value : α) :
    erase (insert entries key value) key = erase entries key := by
  have erased (other : String) (old : α) (rest : Entries α) :
      erase ((other, old) :: rest) key =
        if other = key then erase rest key else (other, old) :: erase rest key := by
    by_cases same : other = key
    · simp [erase, same]
    · simp [erase, same]
  induction entries with
  | nil => rw [insert, erased, if_pos rfl]
  | cons entry rest ih =>
    obtain ⟨other, old⟩ := entry
    rw [insert_cons]
    by_cases known : other = key
    · rw [if_pos known, erased, erased, if_pos rfl, if_pos known]
    · rw [if_neg known, erased, erased, if_neg known, if_neg known, ih]

theorem keys_insert (entries : Entries α) (key : String) (value : α) :
    keys (insert entries key value) =
      if key ∈ keys entries then keys entries else keys entries ++ [key] := by
  induction entries with
  | nil => rfl
  | cons entry rest ih =>
    obtain ⟨other, old⟩ := entry
    have whole : keys ((other, old) :: rest) = other :: keys rest := rfl
    rw [insert_cons, whole]
    by_cases known : other = key
    · rw [if_pos known, if_pos (known ▸ List.mem_cons_self), ← known]
      rfl
    · have later : key ∈ other :: keys rest ↔ key ∈ keys rest :=
        List.mem_cons.trans (or_iff_right fun same => known same.symm)
      have inserted : keys ((other, old) :: insert rest key value) =
          other :: keys (insert rest key value) := rfl
      rw [if_neg known, inserted, ih, if_congr later rfl rfl]
      split <;> rfl

/-- Keys that stand in the order in which they came first go on to do so. -/
theorem keys_insert_eraseDups {entries : Entries α} {names : List String}
    (inOrder : keys entries = names.eraseDups) (key : String) (value : α) :
    keys (insert entries key value) = (names ++ [key]).eraseDups := by
  rw [keys_insert, inOrder, eraseDups_append_single]
  exact if_congr List.mem_eraseDups rfl rfl

/-- The value that is there already changes nothing. -/
theorem insert_same {entries : Entries α} {key : String} {value : α}
    (found : find? entries key = some value) : insert entries key value = entries := by
  induction entries with
  | nil => cases found
  | cons entry rest ih =>
    obtain ⟨other, old⟩ := entry
    rw [find?_cons] at found
    rw [insert_cons]
    by_cases here : key = other
    · rw [if_pos here] at found
      rw [if_pos here.symm, here, Option.some.inj found]
    · rw [if_neg here] at found
      rw [if_neg fun same => here same.symm, ih found]

theorem insertAll_append (entries : Entries α) (first second : List (String × α)) :
    insertAll entries (first ++ second) = insertAll (insertAll entries first) second :=
  List.foldl_append

theorem insert_fresh {entries : Entries α} {key : String} (fresh : key ∉ keys entries)
    (value : α) :
    insert entries key value = entries ++ [(key, value)] := by
  induction entries with
  | nil => rfl
  | cons entry rest ih =>
    obtain ⟨other, old⟩ := entry
    obtain ⟨differs, fresh⟩ := not_or.mp fun mem => fresh (List.mem_cons.mpr mem)
    rw [insert_cons, if_neg fun same => differs same.symm, ih fresh, List.cons_append]

theorem keys_append (first second : Entries α) :
    keys (first ++ second) = keys first ++ keys second := List.map_append

theorem nodup_keys_append_single {entries : Entries α} {last : String × α} :
    (keys (entries ++ [last])).Nodup ↔ last.1 ∉ keys entries ∧ (keys entries).Nodup := by
  rw [keys_append, ← List.nodup_concat, List.concat_eq_append]
  rfl

theorem ofPairs_append (pairs : List (String × α)) (pair : String × α) :
    ofPairs (pairs ++ [pair]) = insert (ofPairs pairs) pair.1 pair.2 := by
  rw [ofPairs, insertAll, List.foldl_append]
  rfl

/-- Pairs of distinct keys are kept as they are. -/
theorem ofPairs_of_nodup {pairs : List (String × α)} (distinct : (pairs.map Prod.fst).Nodup) :
    ofPairs pairs = pairs := by
  induction pairs using List.reverseRecOn with
  | nil => rfl
  | append_singleton pairs last ih =>
    obtain ⟨fresh, before⟩ := nodup_keys_append_single.mp distinct
    rw [ofPairs_append, ih before, insert_fresh fresh]

theorem mem_of_mem_ofPairs {pairs : List (String × α)} {pair : String × α}
    (mem : pair ∈ ofPairs pairs) : pair ∈ pairs := by
  induction pairs using List.reverseRecOn with
  | nil => cases mem
  | append_singleton pairs last ih =>
    rw [ofPairs_append] at mem
    cases mem_insert mem with
    | inl same => exact List.mem_append_right _ (List.mem_singleton.mpr same)
    | inr before => exact List.mem_append_left _ (ih before)

/-- The last value given to a key counts. -/
theorem find?_ofPairs (pairs : List (String × α)) (wanted : String) :
    find? (ofPairs pairs) wanted = pairs.reverse.lookup wanted := by
  induction pairs using List.reverseRecOn with
  | nil => rfl
  | append_singleton pairs last ih =>
    rw [ofPairs_append, find?_insert, ih, List.reverse_append]
    exact (find?_cons last.1 wanted last.2 pairs.reverse).symm

/-- Keys stand in the order in which they came first. -/
theorem keys_ofPairs (pairs : List (String × α)) :
    keys (ofPairs pairs) = (pairs.map Prod.fst).eraseDups := by
  induction pairs using List.reverseRecOn with
  | nil => rfl
  | append_singleton pairs last ih =>
    rw [ofPairs_append, List.map_append]
    exact keys_insert_eraseDups ih last.1 last.2

theorem nodup_keys_ofPairs (pairs : List (String × α)) : (keys (ofPairs pairs)).Nodup := by
  rw [keys_ofPairs]
  exact nodup_eraseDups _

theorem find?_eq_none {entries : Entries α} {wanted : String} (fresh : wanted ∉ keys entries) :
    find? entries wanted = none := by
  induction entries with
  | nil => rfl
  | cons entry rest ih =>
    obtain ⟨other, value⟩ := entry
    have apart : ¬(wanted = other ∨ wanted ∈ keys rest) := fun mem => fresh (List.mem_cons.mpr mem)
    rw [find?_cons, if_neg fun same => apart (.inl same)]
    exact ih fun later => apart (.inr later)

/-- Where no key comes twice, a value is found exactly under the key that it stands with. -/
theorem find?_eq_some_iff {entries : Entries α} (unique : (keys entries).Nodup) {wanted : String}
    {value : α} : find? entries wanted = some value ↔ (wanted, value) ∈ entries := by
  induction entries with
  | nil => exact iff_of_false (by rintro ⟨⟩) List.not_mem_nil
  | cons entry rest ih =>
    obtain ⟨other, held⟩ := entry
    obtain ⟨fresh, later⟩ := List.nodup_cons.mp unique
    rw [find?_cons, List.mem_cons, Prod.mk.injEq]
    by_cases here : wanted = other
    · have apart : (wanted, value) ∉ rest := by
        intro mem
        have known : wanted ∈ keys rest := List.mem_map_of_mem mem
        exact fresh (here ▸ known)
      rw [if_pos here, Option.some_inj, or_iff_left apart]
      exact ⟨fun same => ⟨here, same.symm⟩, fun same => same.2.symm⟩
    · rw [if_neg here, ih later]
      exact (or_iff_right fun same => here same.1).symm

/-- The order of distinct keys does not matter to what is found. -/
theorem find?_perm {entries others : Entries α} (perm : List.Perm entries others)
    (unique : (keys entries).Nodup) (wanted : String) :
    find? entries wanted = find? others wanted := by
  have uniqueOther : (keys others).Nodup := (perm.map Prod.fst).nodup unique
  ext value
  rw [find?_eq_some_iff unique, find?_eq_some_iff uniqueOther, perm.mem_iff]

theorem contains_iff {entries : Entries α} {key : String} :
    contains entries key = true ↔ key ∈ keys entries := by
  rw [contains]
  induction entries with
  | nil => simp [find?, keys]
  | cons entry rest ih =>
    obtain ⟨other, value⟩ := entry
    have whole : keys ((other, value) :: rest) = other :: keys rest := rfl
    rw [find?_cons, whole, List.mem_cons, ← ih]
    by_cases here : key = other
    · simp [here]
    · simp [here]

theorem find?_append (first second : Entries α) (wanted : String) :
    find? (first ++ second) wanted = (find? first wanted).or (find? second wanted) :=
  List.lookup_append

/-! ## Filling in -/

theorem insertMissing_append (entries : Entries α) (pairs : List (String × α))
    (last : String × α) :
    insertMissing entries (pairs ++ [last]) =
      if last.1 ∈ keys (insertMissing entries pairs) then insertMissing entries pairs
      else insertMissing entries pairs ++ [last] := by
  have step : insertMissing entries (pairs ++ [last]) =
      if contains (insertMissing entries pairs) last.1 then insertMissing entries pairs
      else insert (insertMissing entries pairs) last.1 last.2 := List.foldl_append
  rw [step, if_congr contains_iff rfl rfl]
  split
  next => rfl
  next fresh => rw [insert_fresh fresh]

/-- What is there stays in front. -/
theorem prefix_insertMissing (entries : Entries α) (pairs : List (String × α)) :
    entries <+: insertMissing entries pairs := by
  induction pairs using List.reverseRecOn with
  | nil => exact List.prefix_refl entries
  | append_singleton pairs last ih =>
    rw [insertMissing_append]
    split
    next => exact ih
    next => exact ih.trans (List.prefix_append _ _)

theorem find?_insertMissing (entries : Entries α) (pairs : List (String × α)) (wanted : String) :
    find? (insertMissing entries pairs) wanted = (find? entries wanted).or (find? pairs wanted) := by
  induction pairs using List.reverseRecOn with
  | nil => exact Option.or_none.symm
  | append_singleton pairs last ih =>
    have behind : find? (insertMissing entries (pairs ++ [last])) wanted =
        (find? (insertMissing entries pairs) wanted).or (find? [last] wanted) := by
      rw [insertMissing_append]
      split
      next known =>
        obtain ⟨value, found⟩ := Option.isSome_iff_exists.mp (contains_iff.mpr known)
        by_cases here : wanted = last.1
        · rw [here, found, Option.some_or]
        · have passed : find? [last] wanted = none := by
            rw [find?_cons, if_neg here]
            rfl
          rw [passed, Option.or_none]
      next => exact find?_append ..
    rw [behind, ih, find?_append, Option.or_assoc]

/-- What is filled in stands behind, in order and each key once. -/
theorem keys_insertMissing (entries : Entries α) (pairs : List (String × α)) :
    keys (insertMissing entries pairs) =
      keys entries ++ ((keys pairs).filter (· ∉ keys entries)).eraseDups := by
  induction pairs using List.reverseRecOn with
  | nil => exact (List.append_nil _).symm
  | append_singleton pairs last ih =>
    rw [insertMissing_append, keys_append, List.filter_append]
    by_cases known : last.1 ∈ keys entries
    · have there : last.1 ∈ keys (insertMissing entries pairs) := by
        rw [ih]
        exact List.mem_append_left _ known
      have passed : (keys [last]).filter (· ∉ keys entries) = [] :=
        List.filter_cons_of_neg (by simpa using known)
      rw [if_pos there, ih, passed, List.append_nil]
    · have taken : (keys [last]).filter (· ∉ keys entries) = [last.1] :=
        List.filter_cons_of_pos (by simpa using known)
      have there : last.1 ∈ keys (insertMissing entries pairs) ↔
          last.1 ∈ (keys pairs).filter (· ∉ keys entries) := by
        rw [ih, List.mem_append, List.mem_eraseDups]
        exact or_iff_right known
      rw [taken, eraseDups_append_single, if_congr there rfl rfl]
      split
      next => exact ih
      next =>
        rw [keys_append, ih, List.append_assoc]
        rfl

/-- Where no key comes twice, it does not matter from which end one looks. -/
theorem find?_reverse {entries : Entries α} (unique : (keys entries).Nodup) (wanted : String) :
    find? entries.reverse wanted = find? entries wanted := by
  induction entries with
  | nil => rfl
  | cons entry rest ih =>
    obtain ⟨other, value⟩ := entry
    obtain ⟨fresh, later⟩ := List.nodup_cons.mp unique
    rw [List.reverse_cons, find?_append, ih later, find?_cons, find?_cons]
    by_cases here : wanted = other
    · rw [if_pos here, if_pos here, here, find?_eq_none fresh]
      rfl
    · rw [if_neg here, if_neg here]
      exact Option.or_none

/-- What is put in from several maps, one after the other, is found in the last that holds it. -/
theorem find?_ofPairs_flatMap {β : Type} (sources : List β) (entriesOf : β → Entries α)
    (unique : ∀ source, (keys (entriesOf source)).Nodup) (wanted : String) :
    find? (ofPairs (sources.flatMap entriesOf)) wanted =
      sources.reverse.findSome? fun source => find? (entriesOf source) wanted := by
  rw [find?_ofPairs]
  show find? _ wanted = _
  induction sources with
  | nil => rfl
  | cons source later ih =>
    rw [List.flatMap_cons, List.reverse_append, find?_append, ih, find?_reverse (unique source),
      List.reverse_cons, List.findSome?_append, List.findSome?_singleton]

end Formwright.Entries
