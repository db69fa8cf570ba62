import Formwright.Storage.Path

/-!
The names of a path. A separator divides a path into two that are read on their own.
-/

namespace Formwright.Path

theorem segmentsAfter_separator (segment first rest : List Char) :
    segmentsAfter segment (first ++ '/' :: rest) =
      segmentsAfter segment first ++ segmentsAfter [] rest := by
  induction first generalizing segment with
  | nil => simp [segmentsAfter]
  | cons c later ih =>
    rw [List.cons_append, segmentsAfter, segmentsAfter]
    by_cases separator : c = '/'
    · rw [if_pos separator, if_pos separator, ih, List.cons_append]
    · rw [if_neg separator, if_neg separator, ih]

theorem segmentsAfter_plain (segment : List Char) {text : List Char} (plain : '/' ∉ text) :
    segmentsAfter segment text = [String.ofList (segment.reverse ++ text)] := by
  induction text generalizing segment with
  | nil => rw [segmentsAfter, List.append_nil]
  | cons c later ih =>
    rw [List.mem_cons, not_or] at plain
    rw [segmentsAfter, if_neg (Ne.symm plain.1), ih (c :: segment) plain.2, List.reverse_cons,
      List.append_assoc, List.singleton_append]

theorem segments_separator (first rest : List Char) :
    segments (first ++ '/' :: rest) = segments first ++ segments rest := by
  rw [segments, segmentsAfter_separator, List.filter_append]
  rfl

theorem segments_plain {text : List Char} (plain : '/' ∉ text) (nonempty : text ≠ []) :
    segments text = [String.ofList text] := by
  rw [segments, segmentsAfter_plain [] plain]
  have kept : (String.ofList text).isEmpty = false := by
    cases text with
    | nil => exact (nonempty rfl).elim
    | cons => simp
  simp [kept]

theorem isAbsolute_append {first : String} (nonempty : first ≠ "") (second : String) :
    (⟨first ++ second⟩ : Path).isAbsolute = (⟨first⟩ : Path).isAbsolute := by
  rw [isAbsolute, isAbsolute, String.toList_append]
  cases text : first.toList with
  | nil => exact (nonempty (String.toList_eq_nil_iff.mp text)).elim
  | cons c later => rfl

theorem join_append (base : Path) {first : String} (nonempty : first ≠ "") (second : String) :
    base.join ⟨first ++ second⟩ = ⟨(base.join ⟨first⟩).text ++ second⟩ := by
  rw [join, join, isAbsolute_append nonempty]
  split
  next => rfl
  next =>
    split
    next => simp only [String.append_assoc]
    next => simp only [String.append_assoc]

/-- What is joined to a path begins alike for all files of a directory. -/
theorem exists_join_below (base : Path) (directory : String) :
    ∃ lead, ∀ file, base.join ⟨directory ++ "/" ++ file⟩ = ⟨lead ++ "/" ++ file⟩ := by
  by_cases empty : directory = ""
  · subst empty
    refine ⟨"", fun file => ?_⟩
    have absolute : (⟨"" ++ "/" ++ file⟩ : Path).isAbsolute = true := by
      rw [isAbsolute_append (by decide)]
      decide
    rw [join, absolute]
    rfl
  · refine ⟨(base.join ⟨directory⟩).text, fun file => ?_⟩
    rw [String.append_assoc, join_append base empty, ← String.append_assoc]

end Formwright.Path
