import Formwright.Proofs.Storage.Path
import Formwright.Proofs.Storage.Walk

/-!
Writing to a disk. A path that was written leads to its file, and goes on to do so while other files
are written and directories are made; two paths of one directory lead to one file only if they name
the same one, or if one of them is a link.
-/

namespace Formwright.Disk

open Item

variable {disk later : Disk} {path : Path} {follow : Bool} {place : List String}

/-! ## Where paths lead -/

def place? (disk : Disk) (path : Path) : Option (List String) :=
  match disk.find true path with
  | .ok (.taken place _) => some place
  | _ => none

structure Acceptable (path : Path) : Prop where
  noZero : '\x00' ∉ path.text.toList
  nonempty : path.text.toList ≠ []
  short : path.text.utf8ByteSize ≤ maxPath

theorem find_eq_ok {spot : Spot} :
    disk.find follow path = .ok spot ↔
      Acceptable path ∧
        walk disk.top follow maxLinks (if path.isAbsolute then [] else disk.here)
          (namesOf path.text.toList) = .ok spot := by
  rw [find]
  constructor
  next =>
    intro found
    split at found
    next => cases found
    next zero =>
      split at found
      next => cases found
      next empty =>
        split at found
        next => cases found
        next long =>
          rw [List.contains_iff_mem] at zero
          rw [List.isEmpty_iff] at empty
          exact ⟨⟨zero, empty, Nat.le_of_not_lt long⟩, found⟩
  next =>
    rintro ⟨acceptable, ended⟩
    rw [if_neg (by rw [List.contains_iff_mem]; exact acceptable.noZero),
      if_neg (by rw [List.isEmpty_iff]; exact acceptable.nonempty),
      if_neg (Nat.not_lt.mpr acceptable.short)]
    exact ended

theorem fits_of_find {spot : Spot} (found : disk.find follow path = .ok spot) :
    spot.Fits disk.top :=
  fits_of_walk (find_eq_ok.mp found).2

/-- A later state of a disk: files have changed at no other places than these, and nothing that was
there is gone. -/
structure Continues (written : List (List String)) (old new : Disk) : Prop where
  here : new.here = old.here
  keeps : Keeps written old.top new.top

theorem Continues.refl (disk : Disk) : Continues [] disk disk :=
  ⟨rfl, .refl disk.top⟩

theorem Continues.trans {first second : List (List String)} {old middle new : Disk}
    (before : Continues first old middle) (after : Continues second middle new) :
    Continues (first ++ second) old new :=
  ⟨after.here.trans before.here, before.keeps.trans after.keeps⟩

theorem Continues.find {written : List (List String)} (continues : Continues written disk later)
    (spot : Spot) {item : Item} (now : later.top.at? spot.place = some item)
    (solid : ∀ place, spot = .free place → ∀ target, item ≠ .link target)
    (found : disk.find follow path = .ok spot) :
    later.find follow path = .ok (.taken spot.place item) := by
  obtain ⟨acceptable, ended⟩ := find_eq_ok.mp found
  rw [← continues.here] at ended
  exact find_eq_ok.mpr ⟨acceptable, walk_keeps continues.keeps now solid ended⟩

theorem Continues.find_taken {written : List (List String)}
    (continues : Continues written disk later) {item : Item}
    (found : disk.find follow path = .ok (.taken place item)) :
    ∃ new, later.find follow path = .ok (.taken place new) ∧ Alike item new ∧
      (place ∉ written → ∀ content, item = .file content → new = item) := by
  obtain ⟨new, now, alike, same⟩ := continues.keeps place item (fits_of_find found)
  have solid : ∀ other, Spot.taken place item = .free other → ∀ target, new ≠ .link target := by
    rintro _ ⟨⟩
  exact ⟨new, continues.find (.taken place item) now solid found, alike, same⟩

/-! ## Changes -/

theorem keeps_free {old new : Item} (free : old.at? place = none) (keeps : Keeps [place] old new) :
    Keeps [] old new := by
  intro other item there
  obtain ⟨later, now, alike, same⟩ := keeps other item there
  refine ⟨later, now, alike, fun _ => same ?_⟩
  intro mem
  rw [List.mem_singleton.mp mem, free] at there
  cases there

theorem continues_makeDirectory (made : disk.makeDirectory path = .ok later) :
    Continues [] disk later := by
  rw [makeDirectory] at made
  split at made
  next => cases made
  next place found =>
    cases made
    obtain ⟨directory, name, entries, rfl, opened, unused⟩ := fits_of_find found
    refine ⟨rfl, keeps_free ?_ (keeps_put directory opened (.inl unused))⟩
    rw [at?_name opened, unused]
  next => cases made

theorem keeps_overwrite {top : Item} {before after : ByteArray}
    (there : top.at? place = some (.file before)) :
    Keeps [place] top (Item.put (.file after) place top) := by
  induction place using List.reverseRecOn with
  | nil =>
    injection there with same
    subst same
    exact keeps_file before after
  | append_singleton directory name =>
    rw [at?_append] at there
    obtain ⟨found, opened, inside⟩ := Option.bind_eq_some_iff.mp there
    cases found with
    | file content => cases inside
    | link target => cases inside
    | directory entries =>
      rw [at?_directory] at inside
      obtain ⟨known, listed, same⟩ := Option.bind_eq_some_iff.mp inside
      injection same with same
      subst same
      exact keeps_put directory opened (.inr ⟨before, after, listed, rfl⟩)

/-- A file that was written is where its path leads, and is the only one that changed. -/
theorem continues_write {content : ByteArray} (stored : disk.write path content = .ok later) :
    ∃ place, Continues [place] disk later ∧
      later.find true path = .ok (.taken place (.file content)) := by
  have solid (other : List String) (target : String) : Item.file content ≠ .link target := by
    rintro ⟨⟩
  rw [write] at stored
  split at stored
  next place before found =>
    cases stored
    have continues : Continues [place] disk (disk.put place (.file content)) :=
      ⟨rfl, keeps_overwrite (fits_of_find found)⟩
    exact ⟨place, continues,
      continues.find (.taken place _) (at?_put _ place disk.top) (fun other _ => solid other) found⟩
  next => cases stored
  next place found =>
    cases stored
    obtain ⟨directory, name, entries, rfl, opened, unused⟩ := fits_of_find found
    have continues : Continues [directory ++ [name]] disk
        (disk.put (directory ++ [name]) (.file content)) :=
      ⟨rfl, keeps_put directory opened (.inl unused)⟩
    exact ⟨_, continues,
      continues.find (.free _) (at?_put _ _ disk.top) (fun other _ => solid other) found⟩
  next => cases stored

theorem read_of_find {content : ByteArray}
    (found : disk.find true path = .ok (.taken place (.file content))) :
    disk.read path = .ok content := by
  rw [read, found]

theorem find_of_read {disk : Disk} {path : Path} {content : ByteArray}
    (held : disk.read path = .ok content) :
    ∃ place, disk.find true path = .ok (.taken place (.file content)) := by
  rw [read] at held
  split at held
  next place found same =>
    cases held
    exact ⟨place, same⟩
  next => cases held
  next => cases held
  next => cases held

theorem find_of_place? (leads : disk.place? path = some place) :
    ∃ item, disk.find true path = .ok (.taken place item) := by
  rw [place?] at leads
  split at leads
  next place item found =>
    cases leads
    exact ⟨item, found⟩
  next => cases leads

theorem place?_of_find {item : Item} (found : disk.find true path = .ok (.taken place item)) :
    disk.place? path = some place := by
  rw [place?, found]

/-! ## Siblings -/

theorem namesOf_separator (lead : List Char) :
    namesOf (lead ++ ['/']) = Path.segments lead ++ ["."] := by
  rw [namesOf, Path.segments_separator]
  simp [Path.segments, Path.segmentsAfter]

theorem namesOf_below (lead : List Char) {file : List Char} (plain : '/' ∉ file)
    (nonempty : file ≠ []) :
    namesOf (lead ++ '/' :: file) = Path.segments lead ++ [String.ofList file] := by
  have ending : (lead ++ '/' :: file).getLast? ≠ some '/' := by
    rw [List.append_cons, List.getLast?_append, List.getLast?_eq_some_getLast nonempty,
      Option.some_or]
    exact fun last => plain (Option.some.inj last ▸ List.getLast_mem nonempty)
  rw [namesOf, Path.segments_separator, Path.segments_plain plain nonempty]
  rw [if_neg (by simpa using ending), List.append_nil]

/-- What a file of a directory leads to is in that directory under its name, unless it is a link. -/
theorem find_below {lead file : String} {target : List String} {item : Item}
    (plain : '/' ∉ file.toList) (named : file ≠ "" ∧ file ≠ "." ∧ file ≠ "..")
    (found : disk.find true ⟨lead ++ "/" ++ file⟩ = .ok (.taken target item)) :
    ∃ directory entries, disk.find true ⟨lead ++ "/"⟩ = .ok (.taken directory (.directory entries)) ∧
      (target = directory ++ [file] ∨ disk.kind? false ⟨lead ++ "/" ++ file⟩ = some .link) := by
  have text : (lead ++ "/" ++ file).toList = lead.toList ++ '/' :: file.toList := by
    simp [String.toList_append]
  have above : (lead ++ "/").toList = lead.toList ++ ['/'] := by
    rw [String.toList_append]
    rfl
  have names : namesOf (lead ++ "/" ++ file).toList = Path.segments lead.toList ++ [file] := by
    rw [text, namesOf_below _ plain (by simpa using named.1), String.ofList_toList]
  have absolute : (⟨lead ++ "/" ++ file⟩ : Path).isAbsolute = (⟨lead ++ "/"⟩ : Path).isAbsolute := by
    rw [Path.isAbsolute, Path.isAbsolute, text, above]
    cases lead.toList <;> rfl
  obtain ⟨acceptable, ended⟩ := find_eq_ok.mp found
  rw [names] at ended
  obtain ⟨directory, entries, opened, sits⟩ := walk_last named.2 ended
  refine ⟨directory, entries, find_eq_ok.mpr ⟨?_, ?_⟩, sits.imp_right ?_⟩
  next =>
    have longer : (lead ++ "/").utf8ByteSize ≤ (lead ++ "/" ++ file).utf8ByteSize := by
      rw [@String.utf8ByteSize_append (lead ++ "/")]
      exact Nat.le_add_right ..
    refine ⟨?_, ?_, Nat.le_trans longer acceptable.short⟩
    next =>
      intro mem
      apply acceptable.noZero
      rw [String.toList_append]
      exact List.mem_append_left _ mem
    next =>
      rw [above]
      exact List.append_ne_nil_of_right_ne_nil _ (List.cons_ne_nil '/' [])
  next =>
    rw [above, namesOf_separator, ← absolute]
    exact opened
  next =>
    rintro ⟨goal, own⟩
    have link : disk.find false ⟨lead ++ "/" ++ file⟩ =
        .ok (.taken (directory ++ [file]) (.link goal)) :=
      find_eq_ok.mpr ⟨acceptable, names ▸ own⟩
    rw [kind?, link]
    rfl

end Formwright.Disk
