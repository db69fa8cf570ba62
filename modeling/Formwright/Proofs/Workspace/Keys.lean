import Formwright.Proofs.Storage.Descent
import Formwright.Proofs.Text.Utf8
import Formwright.Workspace.Inputs
import Mathlib.Data.List.Nodup
import Mathlib.Data.List.Perm.Basic

/-!
Inputs by their keys. Files below a directory have keys of their own, so that sorting by key leaves
nothing of the order in which they were found.
-/

namespace Formwright.Inputs

open Formwright.Path Text

/-! ## Keys -/

theorem keyOf_descend {base : Path} (named : base.text ≠ "") {names : List String}
    (areNames : ∀ name ∈ names, IsName name) :
    keyOf base (base.descend names) = String.intercalate "/" names := by
  have leads : base.components.isPrefixOf (base.components ++ names.map .name) = true :=
    List.isPrefixOf_iff_prefix.mpr (List.prefix_append _ _)
  have texts : (names.map Component.name).map Component.text = names := by
    rw [List.map_map]
    exact List.map_id' names
  rw [keyOf, components_descend named areNames, below, if_pos leads, List.drop_left,
    Option.getD_some, texts]

structure AreBelow (base : Path) (files : List Path) : Prop where
  nodup : files.Nodup
  descends : ∀ file ∈ files, ∃ names, (∀ name ∈ names, IsName name) ∧ file = base.descend names

theorem AreBelow.filter {base : Path} {files : List Path} (areBelow : AreBelow base files)
    (keep : Path → Bool) : AreBelow base (files.filter keep) :=
  ⟨areBelow.nodup.filter keep, fun file mem =>
    areBelow.descends file (List.mem_of_mem_filter mem)⟩

/-- A key tells the names, and these tell the path. -/
theorem nodup_keys {base : Path} (named : base.text ≠ "") {files : List Path}
    (areBelow : AreBelow base files) : (files.map (keyOf base)).Nodup := by
  refine List.Nodup.map_on (fun first mem second memOther same => ?_) areBelow.nodup
  obtain ⟨names, areNames, rfl⟩ := areBelow.descends first mem
  obtain ⟨others, areOthers, rfl⟩ := areBelow.descends second memOther
  rw [keyOf_descend named areNames, keyOf_descend named areOthers] at same
  have segments := congrArg (fun key => Path.segments key.toList) same
  rw [segments_intercalate areNames, segments_intercalate areOthers] at segments
  rw [segments]

/-! ## Sorting -/

def IsSorted (files : List InputFile) : Prop :=
  files.Pairwise fun first second => bytesOf first.key < bytesOf second.key

theorem isSorted_sortByKey {files : List InputFile} (distinct : (files.map (·.key)).Nodup) :
    IsSorted (sortByKey files) := by
  have ordered : (sortByKey files).Pairwise fun first second =>
      decide (first.key ≤ second.key) = true := by
    apply List.pairwise_mergeSort
    · intro a b c before after
      exact decide_eq_true (le_trans (of_decide_eq_true before) (of_decide_eq_true after))
    · intro a b
      simpa using le_total a.key b.key
  have keys : ((sortByKey files).map (·.key)).Nodup :=
    ((List.mergeSort_perm files _).map _).nodup_iff.mpr distinct
  have apart : (sortByKey files).Pairwise fun first second => first.key ≠ second.key :=
    List.pairwise_map.mp keys
  refine (ordered.and apart).imp fun {first second} => ?_
  rintro ⟨le, differs⟩
  exact bytesOf_lt.mpr (lt_of_le_of_ne (of_decide_eq_true le) differs)

theorem sortByKey_perm {first second : List InputFile} (perm : first.Perm second)
    (distinct : (first.map (·.key)).Nodup) : sortByKey first = sortByKey second := by
  have sorted : (sortByKey first).Perm (sortByKey second) :=
    ((List.mergeSort_perm first _).trans perm).trans (List.mergeSort_perm second _).symm
  have distinctOther := (perm.map (·.key)).nodup distinct
  refine sorted.eq_of_pairwise ?_ (isSorted_sortByKey distinct) (isSorted_sortByKey distinctOther)
  intro a b _ _ below above
  exact absurd (List.lt_trans below above) (List.lt_irrefl _)

/-! ## Files of one kind -/

variable {base : Path} {input : Manifest.Input} {files others : List Path}

theorem mem_ofKind {kind : InputKind} {file : InputFile} :
    file ∈ ofKind kind base input files ↔
      file.path ∈ files ∧ input.kindOf file.path = some kind ∧
        file.key = keyOf base file.path := by
  rw [ofKind, sortByKey, List.mem_mergeSort, List.mem_map]
  constructor
  · rintro ⟨path, mem, rfl⟩
    obtain ⟨listed, kinds⟩ := List.mem_filter.mp mem
    exact ⟨listed, eq_of_beq kinds, rfl⟩
  · rintro ⟨listed, kinds, key⟩
    refine ⟨file.path, List.mem_filter.mpr ⟨listed, beq_iff_eq.mpr kinds⟩, ?_⟩
    rw [← key]

section Below

variable (named : base.text ≠ "") (areBelow : AreBelow base files)

include named areBelow

theorem nodup_keys_ofKind (kind : InputKind) :
    (((files.filter (input.kindOf · == some kind)).map
      fun path => (⟨keyOf base path, path⟩ : InputFile)).map (·.key)).Nodup := by
  rw [List.map_map]
  exact nodup_keys named (areBelow.filter _)

theorem isSorted_ofKind (kind : InputKind) : IsSorted (ofKind kind base input files) :=
  isSorted_sortByKey (nodup_keys_ofKind named areBelow kind)

theorem ofKind_perm (perm : files.Perm others) (kind : InputKind) :
    ofKind kind base input files = ofKind kind base input others :=
  sortByKey_perm ((perm.filter _).map _) (nodup_keys_ofKind named areBelow kind)

theorem ofFiles_perm (perm : files.Perm others) :
    ofFiles base input files = ofFiles base input others := by
  rw [ofFiles, ofFiles, ofKind_perm named areBelow perm, ofKind_perm named areBelow perm]

end Below
end Formwright.Inputs
