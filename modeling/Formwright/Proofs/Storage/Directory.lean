import Formwright.Proofs.Storage.Descent
import Formwright.Proofs.Storage.Writing

/-!
Directories and what is in them. A path to a directory leads on to each of its entries, as long as
it is not longer than a path may be.
-/

namespace Formwright

open Disk

structure Disk.IsFileName (name : String) : Prop extends Path.IsName name where
  short : name.utf8ByteSize ≤ maxName
  noZero : '\x00' ∉ name.toList

instance (name : String) : Decidable (Disk.IsFileName name) :=
  decidable_of_iff (name ≠ "" ∧ '/' ∉ name.toList ∧ name ≠ "." ∧ name ≠ ".." ∧
      name.utf8ByteSize ≤ maxName ∧ '\x00' ∉ name.toList)
    ⟨fun ⟨nonempty, plain, dot, up, short, noZero⟩ => ⟨⟨nonempty, plain, dot, up⟩, short, noZero⟩,
      fun isName => ⟨isName.nonempty, isName.plain, isName.ne_dot, isName.ne_up, isName.short,
        isName.noZero⟩⟩

def Item.IsOrderly (item : Item) : Prop :=
  ∀ place entries, item.at? place = some (.directory entries) →
    (Entries.keys entries).Nodup ∧ ∀ name ∈ Entries.keys entries, IsFileName name

theorem Item.isOrderly_file (content : ByteArray) : (file content).IsOrderly := by
  intro place entries opened
  cases place <;> cases opened

theorem Item.isOrderly_directory {entries : List (String × Item)}
    (unique : (Entries.keys entries).Nodup) (names : ∀ name ∈ Entries.keys entries, IsFileName name)
    (inside : ∀ entry ∈ entries, entry.2.IsOrderly) : (directory entries).IsOrderly := by
  intro place others opened
  cases place with
  | nil =>
    cases opened
    exact ⟨unique, names⟩
  | cons name deeper =>
    obtain ⟨inner, there, opened⟩ := Option.bind_eq_some_iff.mp opened
    exact inside _ ((Entries.find?_eq_some_iff unique).mp there) deeper others opened

theorem Item.IsOrderly.at? {top inner : Item} (orderly : top.IsOrderly) {place : List String}
    (there : top.at? place = some inner) : inner.IsOrderly := by
  intro deeper entries opened
  apply orderly (place ++ deeper)
  rw [at?_append, there]
  exact opened

theorem Item.IsOrderly.entry {entries : List (String × Item)}
    (orderly : (directory entries).IsOrderly) {name : String} {inner : Item}
    (there : Entries.find? entries name = some inner) : inner.IsOrderly := by
  have opened : (directory entries).at? [name] = some inner := by
    rw [at?_directory, there]
    rfl
  exact orderly.at? opened

theorem Item.IsOrderly.isFileName {entries : List (String × Item)}
    (orderly : (directory entries).IsOrderly) {name : String} {inner : Item}
    (there : Entries.find? entries name = some inner) : IsFileName name := by
  apply (orderly [] entries rfl).2
  exact Entries.contains_iff.mp (Option.isSome_of_eq_some there)

namespace Disk

open Item

section Walks

variable {top : Item} {place tail : List String} {entries : List (String × Item)} {name : String}
  {inner : Item}

/-- Names that lead to a directory, up to a point at their end, lead on to an entry that is no
link. -/
theorem walks_entry (opened : top.at? place = some (.directory entries))
    (isEntry : IsEntryName name) (there : Entries.find? entries name = some inner)
    (solid : ∀ target, inner ≠ .link target) (point : tail = [] ∨ tail = ["."])
    {jump : List String → List String → Except SystemError Spot}
    (jumps : ∀ start names, jump start (names ++ tail) = .ok (.taken place (.directory entries)) →
      jump start (names ++ [name]) = .ok (.taken (place ++ [name]) inner))
    {start names : List String}
    (walks : Walks top true jump start (names ++ tail) (.taken place (.directory entries))) :
    Walks top true jump start (names ++ [name]) (.taken (place ++ [name]) inner) := by
  have onward : Walks top true jump place [name] (.taken (place ++ [name]) inner) :=
    .enter opened isEntry there solid (.here ((at?_name opened name).trans there))
  induction names generalizing start with
  | nil =>
    rw [List.nil_append] at walks
    obtain rfl | rfl := point
    · cases walks
      exact onward
    · generalize dot : "." = first at walks
      cases walks with
      | stay _ rest =>
        cases rest
        exact onward
      | up => exact absurd dot (by decide)
      | jump _ proper => exact absurd dot.symm proper.ne_dot
      | enter _ proper => exact absurd dot.symm proper.ne_dot
  | cons first names ih =>
    rw [List.cons_append] at walks ⊢
    generalize whole : names ++ tail = later at walks
    cases walks with
    | stay begun rest => exact .stay begun (ih (whole ▸ rest))
    | up begun rest => exact .up begun (ih (whole ▸ rest))
    | jump begun proper found _ rest =>
      rw [← whole, ← List.append_assoc] at rest
      refine .jump begun proper found (.inr rfl) ?_
      rw [← List.append_assoc]
      exact jumps _ _ rest
    | enter begun proper found other rest =>
      exact .enter begun proper found other (ih (whole ▸ rest))

theorem walk_entry (opened : top.at? place = some (.directory entries))
    (isEntry : IsEntryName name) (there : Entries.find? entries name = some inner)
    (solid : ∀ target, inner ≠ .link target) (point : tail = [] ∨ tail = ["."]) {links : Nat}
    {start names : List String}
    (ended : walk top true links start (names ++ tail) =
      .ok (.taken place (.directory entries))) :
    walk top true links start (names ++ [name]) = .ok (.taken (place ++ [name]) inner) := by
  induction links generalizing start names with
  | zero =>
    simp only [walk, walkFrom_eq_ok] at ended ⊢
    exact walks_entry opened isEntry there solid point (by rintro _ _ ⟨⟩) ended
  | succ links ih =>
    simp only [walk, walkFrom_eq_ok] at ended ⊢
    exact walks_entry opened isEntry there solid point (fun _ _ => ih) ended

end Walks

variable {disk : Disk} {path : Path} {place : List String} {entries : List (String × Item)}
  {name : String} {inner : Item}

theorem named_of_find {follow : Bool} {spot : Spot} (found : disk.find follow path = .ok spot) :
    path.text ≠ "" :=
  mt String.toList_eq_nil_iff.mpr (find_eq_ok.mp found).1.nonempty

theorem noZero_join (acceptable : Acceptable path) (isName : IsFileName name) :
    '\x00' ∉ (path.join ⟨name⟩).text.toList := by
  have named : path.text ≠ "" := mt String.toList_eq_nil_iff.mpr acceptable.nonempty
  have separator : '\x00' ∉ "/".toList := by decide
  obtain ⟨lead, text, joined⟩ | ⟨_, joined⟩ := Path.text_join named isName.toIsName
  · rw [joined, ← text, String.toList_append, List.mem_append, not_or]
    exact ⟨acceptable.noZero, isName.noZero⟩
  · rw [joined, String.toList_append, String.toList_append, List.mem_append, List.mem_append,
      not_or, not_or]
    exact ⟨⟨acceptable.noZero, separator⟩, isName.noZero⟩

theorem find_of_kind? {follow : Bool} (leads : disk.kind? follow path = some .directory) :
    ∃ place entries, disk.find follow path = .ok (.taken place (.directory entries)) := by
  rw [kind?] at leads
  split at leads
  next place item found =>
    cases item with
    | directory entries => exact ⟨place, entries, found⟩
    | file => cases leads
    | link => cases leads
  next => cases leads

/-- The names of a path and of one that goes on from it differ in the last, and in a point that
stands for a separator at the end. -/
theorem namesOf_join (named : path.text ≠ "") (isName : Path.IsName name) :
    ∃ names tail, (tail = [] ∨ tail = ["."]) ∧ namesOf path.text.toList = names ++ tail ∧
      namesOf (path.join ⟨name⟩).text.toList = names ++ [name] := by
  have below (lead : String) :
      namesOf (lead ++ "/" ++ name).toList = Path.segments lead.toList ++ [name] := by
    have text : (lead ++ "/" ++ name).toList = lead.toList ++ '/' :: name.toList := by
      rw [String.toList_append, String.toList_append, List.append_assoc]
      rfl
    rw [text, namesOf_below _ isName.plain isName.toList_ne_nil, String.ofList_toList]
  obtain ⟨lead, text, joined⟩ | ⟨opened, joined⟩ := Path.text_join named isName
  · refine ⟨Path.segments lead.toList, ["."], .inr rfl, ?_, ?_⟩
    · have above : (lead ++ "/").toList = lead.toList ++ ['/'] := by
        rw [String.toList_append]
        rfl
      rw [text, above, namesOf_separator]
    · rw [joined, below]
  · refine ⟨Path.segments path.text.toList, [], .inl rfl, ?_, ?_⟩
    · rw [namesOf, if_neg (by simpa using opened)]
    · rw [joined, below]

/-- A path to a directory leads on to its entries. -/
theorem find_join (found : disk.find true path = .ok (.taken place (.directory entries)))
    (isName : IsFileName name) (there : Entries.find? entries name = some inner)
    (solid : ∀ target, inner ≠ .link target)
    (short : (path.join ⟨name⟩).text.utf8ByteSize ≤ maxPath) :
    disk.find true (path.join ⟨name⟩) = .ok (.taken (place ++ [name]) inner) := by
  have named := named_of_find found
  have opened : disk.top.at? place = some (.directory entries) := fits_of_find found
  obtain ⟨acceptable, ended⟩ := find_eq_ok.mp found
  obtain ⟨names, tail, point, above, joined⟩ := namesOf_join named isName.toIsName
  have absolute : (path.join ⟨name⟩).isAbsolute = path.isAbsolute := by
    have begun : (path.join ⟨name⟩).text.toList.head? = path.text.toList.head? := by
      obtain ⟨lead, text, joined⟩ | ⟨_, joined⟩ := Path.text_join named isName.toIsName
      · rw [joined, ← text, String.toList_append,
          List.head?_append_of_ne_nil _ acceptable.nonempty]
      · rw [joined, String.append_assoc, String.toList_append,
          List.head?_append_of_ne_nil _ acceptable.nonempty]
    rw [Path.isAbsolute, Path.isAbsolute, begun]
  rw [above] at ended
  have joinable : Acceptable (path.join ⟨name⟩) :=
    ⟨noZero_join acceptable isName,
      mt String.toList_eq_nil_iff.mp (Path.join_named named isName.toIsName), short⟩
  refine find_eq_ok.mpr ⟨joinable, ?_⟩
  rw [joined, absolute]
  exact walk_entry opened ⟨isName.ne_dot, isName.ne_up, isName.short⟩ there solid point ended

theorem find_join_long (found : disk.find true path = .ok (.taken place (.directory entries)))
    (isName : IsFileName name) (long : maxPath < (path.join ⟨name⟩).text.utf8ByteSize) :
    disk.find true (path.join ⟨name⟩) = .error .nameTooLong := by
  have named : (path.join ⟨name⟩).text.toList ≠ [] :=
    mt String.toList_eq_nil_iff.mp (Path.join_named (named_of_find found) isName.toIsName)
  have noZero := noZero_join (find_eq_ok.mp found).1 isName
  rw [find]
  dsimp only
  rw [if_neg (by rwa [List.contains_iff_mem]), if_neg (by rwa [List.isEmpty_iff]), if_pos long]

end Disk
end Formwright
