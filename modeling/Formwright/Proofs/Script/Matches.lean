import Formwright.Proofs.Script.Plain
import Formwright.Proofs.Text.Pieces
import Formwright.Proofs.Text.Reading
import Formwright.Script.Cleanup

/-!
What is taken out of a handler body holds plain characters only.
-/

namespace Formwright.Script

open Text

def Skips (text rest : List Char) : Prop :=
  ∃ passed, text = passed ++ rest ∧ ∀ c ∈ passed, isPlain c = true

theorem Skips.trans {first second third : List Char} (before : Skips first second)
    (behind : Skips second third) : Skips first third := by
  obtain ⟨passed, rfl, plain⟩ := before
  obtain ⟨later, rfl, plainLater⟩ := behind
  refine ⟨passed ++ later, (List.append_assoc ..).symm, ?_⟩
  intro c mem
  cases List.mem_append.mp mem with
  | inl mem => exact plain c mem
  | inr mem => exact plainLater c mem

theorem skips_dropWhile {keep : Char → Bool} (plain : ∀ {c}, keep c = true → isPlain c = true)
    (text : List Char) : Skips text (text.dropWhile keep) := by
  refine ⟨text.takeWhile keep, List.takeWhile_append_dropWhile.symm, ?_⟩
  intro c mem
  exact plain (List.all_eq_true.mp List.all_takeWhile c mem)

theorem skips_afterStart {start text rest : List Char} (plain : ∀ c ∈ start, isPlain c = true)
    (found : afterStart start text = some rest) : Skips text rest :=
  ⟨start, append_of_afterStart found, plain⟩

theorem skips_afterColon {text rest : List Char} (found : afterColon text = some rest) :
    Skips text rest := by
  obtain ⟨behind, colon, rfl⟩ := Option.map_eq_some_iff.mp found
  have blanksBefore : Skips text (dropBlanks text) := skips_dropWhile isPlain_of_blank text
  have blanksBehind : Skips behind (dropBlanks behind) := skips_dropWhile isPlain_of_blank behind
  exact (blanksBefore.trans (skips_afterStart (plain_of_all (by decide)) colon)).trans blanksBehind

theorem skips_afterIdentifier {text rest : List Char} (found : afterIdentifier text = some rest) :
    Skips text rest := by
  obtain ⟨parts, named, rfl⟩ := Option.map_eq_some_iff.mp found
  cases text with
  | nil => cases named
  | cons c later =>
    rw [identifier] at named
    split at named
    next starts =>
      injection named with named
      subst named
      have first : Skips (c :: later) later :=
        ⟨[c], rfl, fun d mem => List.mem_singleton.mp mem ▸ isPlain_of_start starts⟩
      exact first.trans (skips_dropWhile isPlain_of_continuation later)
    next => cases named

theorem skips_afterType {text rest : List Char} (found : afterType text = some rest) :
    Skips text rest := by
  rw [afterType, Option.or_eq_some_iff] at found
  obtain qualified | ⟨_, plain⟩ := found
  next =>
    obtain ⟨behind, namespaced, named⟩ := Option.bind_eq_some_iff.mp qualified
    have qualifier : Skips text behind := skips_afterStart (plain_of_all (by decide)) namespaced
    exact qualifier.trans (skips_afterIdentifier named)
  next => exact skips_afterIdentifier plain

theorem skips_afterEventType {text rest : List Char} (found : afterEventType text = some rest) :
    Skips text rest := by
  rw [afterEventType] at found
  split at found
  next =>
    injection found with same
    exact same ▸ skips_dropWhile isPlain_of_word text
  next => cases found

def Annotates (name text : List Char) : Prop :=
  ∃ added, text = name ++ added ∧ ∀ c ∈ added, isPlain c = true

theorem annotates_of_lengthBefore {name text behind rest : List Char}
    (named : afterStart name text = some behind) (skipped : Skips behind rest) :
    Annotates name (text.take (text.length - rest.length)) := by
  obtain ⟨added, rfl, plain⟩ := skipped
  have whole : text = (name ++ added) ++ rest := by
    rw [append_of_afterStart named, List.append_assoc]
  refine ⟨added, ?_, plain⟩
  rw [whole, List.length_append, Nat.add_sub_cancel, List.take_left]

theorem contextWord_finds : Finds contextWord (· = contextText) := by
  intro previous text size found
  rw [contextWord] at found
  split at found
  next here =>
    injection found with same
    obtain ⟨rest, rfl⟩ := List.isPrefixOf_iff_prefix.mp (Bool.and_eq_true_iff.mp here).2
    rw [← same, List.take_left]
  next => cases found

theorem objectAnnotation_finds : Finds objectAnnotation (Annotates "obj".toList) := by
  intro previous text size found
  unfold objectAnnotation at found
  split at found
  next =>
    obtain ⟨rest, typed, rfl⟩ := Option.map_eq_some_iff.mp found
    obtain ⟨later, named, typed⟩ := Option.bind_eq_some_iff.mp typed
    obtain ⟨behind, named, colon⟩ := Option.bind_eq_some_iff.mp named
    exact annotates_of_lengthBefore named ((skips_afterColon colon).trans (skips_afterType typed))
  next => cases found

theorem eventAnnotation_finds : Finds eventAnnotation (Annotates ['e']) := by
  intro previous text size found
  unfold eventAnnotation at found
  split at found
  next =>
    obtain ⟨rest, typed, rfl⟩ := Option.map_eq_some_iff.mp found
    obtain ⟨type, qualified, typed⟩ := Option.bind_eq_some_iff.mp typed
    obtain ⟨later, named, qualified⟩ := Option.bind_eq_some_iff.mp qualified
    obtain ⟨behind, named, colon⟩ := Option.bind_eq_some_iff.mp named
    have qualifier : Skips later type := skips_afterStart (plain_of_all (by decide)) qualified
    have skipped := ((skips_afterColon colon).trans qualifier).trans (skips_afterEventType typed)
    exact annotates_of_lengthBefore named skipped
  next => cases found

end Formwright.Script
