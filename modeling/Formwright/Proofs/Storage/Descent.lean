import Formwright.Proofs.Storage.Path
import Mathlib.Data.List.Basic

/-!
The components of joined paths. A relative path goes on where the path before it ends, so without a
step up it leads below it.
-/

namespace Formwright.Path

theorem plainComponents_append (first second : List String) :
    plainComponents (first ++ second) = plainComponents first ++ plainComponents second := by
  simp only [plainComponents, List.filter_append, List.map_append]

theorem mem_plainComponents {segments : List String} {step : Component}
    (mem : step ∈ plainComponents segments) :
    ∃ segment ∈ segments, segment ≠ "." ∧ step = ofSegment segment := by
  obtain ⟨segment, kept, rfl⟩ := List.mem_map.mp mem
  obtain ⟨listed, proper⟩ := List.mem_filter.mp kept
  exact ⟨segment, listed, bne_iff_ne.mp proper, rfl⟩

theorem root_notMem_plainComponents (segments : List String) :
    .root ∉ plainComponents segments := by
  intro mem
  obtain ⟨segment, _, _, same⟩ := mem_plainComponents mem
  rw [ofSegment] at same
  split at same <;> cases same

theorem plainComponents_single {file : String} (proper : file ≠ "." ∧ file ≠ "..") :
    plainComponents [file] = [.name file] := by
  simp [plainComponents, ofSegment, proper.1, proper.2]

theorem segmentsAfter_eq_cons (segment text : List Char) :
    ∃ first later, segmentsAfter segment text = first :: later ∧ (segment ≠ [] → first ≠ "") := by
  induction text generalizing segment with
  | nil => exact ⟨_, _, rfl, by simp⟩
  | cons c rest ih =>
    rw [segmentsAfter]
    by_cases separator : c = '/'
    · rw [if_pos separator]
      exact ⟨_, _, rfl, by simp⟩
    · rw [if_neg separator]
      obtain ⟨first, later, same, proper⟩ := ih (c :: segment)
      exact ⟨first, later, same, fun _ => proper (List.cons_ne_nil _ _)⟩

/-- A text that begins with no separator begins with a segment. -/
theorem segments_ne_nil {c : Char} {rest : List Char} (plain : c ≠ '/') :
    segments (c :: rest) ≠ [] := by
  obtain ⟨first, later, same, proper⟩ := segmentsAfter_eq_cons [c] rest
  have kept : first ≠ "" := proper (List.cons_ne_nil _ _)
  rw [segments, segmentsAfter, if_neg plain, same]
  simp [kept]

theorem segments_append_separators (text : List Char) {separators : List Char}
    (all : ∀ c ∈ separators, c = '/') : segments (text ++ separators) = segments text := by
  induction separators generalizing text with
  | nil => rw [List.append_nil]
  | cons c later ih =>
    obtain rfl := all c List.mem_cons_self
    have rest : segments later = [] := ih [] fun d mem => all d (List.mem_cons_of_mem _ mem)
    rw [segments_separator, rest, List.append_nil]

/-- A point at the beginning of a text is a component, a later one is not. -/
def leadingPoint (segments : List String) : List Component :=
  if segments.head? = some "." then [.current] else []

theorem leadingPoint_append {first : List String} (nonempty : first ≠ []) (second : List String) :
    leadingPoint (first ++ second) = leadingPoint first := by
  rw [leadingPoint, leadingPoint, List.head?_append_of_ne_nil _ nonempty]

theorem notMem_leadingPoint (segments : List String) :
    .root ∉ leadingPoint segments ∧ .parent ∉ leadingPoint segments := by
  rw [leadingPoint]
  split <;> simp

theorem componentsOf_absolute (rest : List Char) :
    componentsOf ('/' :: rest) = .root :: plainComponents (segments rest) := by
  have same : segments ('/' :: rest) = segments rest := segments_separator [] rest
  rw [componentsOf, same]
  rfl

theorem componentsOf_relative {text : List Char} (relative : text.head? ≠ some '/') :
    componentsOf text = leadingPoint (segments text) ++ plainComponents (segments text) := by
  have head : (text.head? == some '/') = false := beq_eq_false_iff_ne.mpr relative
  rw [componentsOf, head, if_neg Bool.false_ne_true, leadingPoint]
  generalize segments text = found
  cases found with
  | nil => rfl
  | cons segment later =>
    by_cases point : segment = "."
    · subst point
      rfl
    · simp [point]

/-- Behind a separator a path goes on without regard to what was before. -/
theorem componentsOf_append {first : List Char} (nonempty : first ≠ []) (rest : List Char) :
    componentsOf (first ++ '/' :: rest) = componentsOf first ++ plainComponents (segments rest) := by
  cases first with
  | nil => exact (nonempty rfl).elim
  | cons c later =>
    by_cases separator : c = '/'
    · subst separator
      rw [List.cons_append, componentsOf_absolute, componentsOf_absolute, segments_separator,
        plainComponents_append]
      rfl
    · have relative (others : List Char) : (c :: others).head? ≠ some '/' := by
        simpa using separator
      have begun : segments (c :: later) ≠ [] := segments_ne_nil separator
      rw [List.cons_append, componentsOf_relative (relative _), componentsOf_relative (relative _),
        ← List.cons_append, segments_separator, leadingPoint_append begun, plainComponents_append,
        List.append_assoc]

theorem componentsOf_closed (first rest : List Char) :
    componentsOf (first ++ '/' :: rest) =
      componentsOf (first ++ ['/']) ++ plainComponents (segments rest) := by
  have nothing : plainComponents (segments []) = [] := rfl
  cases first with
  | nil =>
    rw [List.nil_append, List.nil_append, componentsOf_absolute, componentsOf_absolute, nothing]
    rfl
  | cons c later =>
    have nonempty : c :: later ≠ [] := List.cons_ne_nil _ _
    rw [componentsOf_append nonempty, componentsOf_append nonempty, nothing, List.append_nil]

theorem components_join {base relative : Path} (named : base.text ≠ "")
    (stays : relative.isAbsolute = false) :
    (base.join relative).components =
      base.components ++ plainComponents (segments relative.text.toList) := by
  have isNamed : base.text.isEmpty = false := by
    simpa using named
  have text : base.text.toList ≠ [] := mt String.toList_eq_nil_iff.mp named
  rw [join, stays, isNamed, Bool.or_false, if_neg Bool.false_ne_true]
  by_cases closed : base.text.toList.getLast? = some '/'
  · obtain ⟨first, same⟩ := List.getLast?_eq_some_iff.mp closed
    rw [closed, beq_self_eq_true, if_pos rfl, components, components, String.toList_append, same,
      List.append_assoc, List.singleton_append, componentsOf_closed]
  · have opened : (base.text.toList.getLast? == some '/') = false := beq_eq_false_iff_ne.mpr closed
    rw [opened, if_neg Bool.false_ne_true, components, components, String.toList_append,
      String.toList_append, List.append_assoc]
    exact componentsOf_append text _

/-- A path leads below a directory when it goes on from there to a name, and no step on the way
leads up or to the root. -/
def LiesBelow (path directory : Path) : Prop :=
  ∃ way file, path.components = directory.components ++ (way ++ [.name file]) ∧
    Component.root ∉ way ∧ Component.parent ∉ way

/-! ## Names -/

structure IsName (name : String) : Prop where
  nonempty : name ≠ ""
  plain : '/' ∉ name.toList
  ne_dot : name ≠ "."
  ne_up : name ≠ ".."

theorem IsName.toList_ne_nil {name : String} (isName : IsName name) : name.toList ≠ [] :=
  mt String.toList_eq_nil_iff.mp isName.nonempty

theorem IsName.segments_eq {name : String} (isName : IsName name) :
    segments name.toList = [name] := by
  rw [segments_plain isName.plain isName.toList_ne_nil, String.ofList_toList]

theorem IsName.isAbsolute_eq {name : String} (isName : IsName name) :
    (⟨name⟩ : Path).isAbsolute = false := by
  rw [isAbsolute, beq_eq_false_iff_ne]
  exact fun first => isName.plain (List.mem_of_head? first)

/-- A name is put behind a path with one separator between them. -/
theorem text_join {path : Path} (named : path.text ≠ "") {name : String} (isName : IsName name) :
    (∃ lead, path.text = lead ++ "/" ∧ (path.join ⟨name⟩).text = lead ++ "/" ++ name) ∨
      path.text.toList.getLast? ≠ some '/' ∧
        (path.join ⟨name⟩).text = path.text ++ "/" ++ name := by
  have isNamed : path.text.isEmpty = false := by
    simpa using named
  rw [join, isName.isAbsolute_eq, isNamed, Bool.or_false, if_neg Bool.false_ne_true]
  by_cases closed : path.text.toList.getLast? = some '/'
  · left
    obtain ⟨lead, same⟩ := List.getLast?_eq_some_iff.mp closed
    have text : path.text = String.ofList lead ++ "/" := by
      apply String.toList_injective
      rw [same, String.toList_append, String.toList_ofList]
      rfl
    refine ⟨String.ofList lead, text, ?_⟩
    rw [closed, beq_self_eq_true, if_pos rfl, ← text]
  · right
    rw [beq_eq_false_iff_ne.mpr closed, if_neg Bool.false_ne_true]
    exact ⟨closed, rfl⟩

theorem size_join {path : Path} (named : path.text ≠ "") {name : String} (isName : IsName name) :
    path.text.utf8ByteSize < (path.join ⟨name⟩).text.utf8ByteSize := by
  have sized : name.utf8ByteSize ≠ 0 := mt String.utf8ByteSize_eq_zero_iff.mp isName.nonempty
  obtain ⟨lead, text, joined⟩ | ⟨_, joined⟩ := text_join named isName
  · rw [joined, text, @String.utf8ByteSize_append (lead ++ "/")]
    omega
  · rw [joined, String.utf8ByteSize_append, String.utf8ByteSize_append]
    omega

theorem join_named {path : Path} (named : path.text ≠ "") {name : String} (isName : IsName name) :
    (path.join ⟨name⟩).text ≠ "" := by
  intro empty
  have grown := size_join named isName
  rw [empty] at grown
  cases grown

theorem components_join_name {path : Path} (named : path.text ≠ "") {name : String}
    (isName : IsName name) :
    (path.join ⟨name⟩).components = path.components ++ [.name name] := by
  rw [components_join named isName.isAbsolute_eq, isName.segments_eq,
    plainComponents_single ⟨isName.ne_dot, isName.ne_up⟩]

def descend (path : Path) (names : List String) : Path :=
  names.foldl (fun path name => path.join ⟨name⟩) path

theorem components_descend {path : Path} (named : path.text ≠ "") {names : List String}
    (areNames : ∀ name ∈ names, IsName name) :
    (path.descend names).components = path.components ++ names.map .name := by
  induction names generalizing path with
  | nil => exact (List.append_nil _).symm
  | cons name later ih =>
    have isName : IsName name := areNames name List.mem_cons_self
    show ((path.join ⟨name⟩).descend later).components = _
    rw [ih (join_named named isName) fun other mem => areNames other (List.mem_cons_of_mem _ mem),
      components_join_name named isName, List.append_assoc]
    rfl

/-- Different names lead to different paths. -/
theorem descend_injective {path : Path} (named : path.text ≠ "") {first second : List String}
    (areNames : ∀ name ∈ first, IsName name) (areOthers : ∀ name ∈ second, IsName name)
    (same : path.descend first = path.descend second) : first = second := by
  have components := congrArg Path.components same
  rw [components_descend named areNames, components_descend named areOthers] at components
  exact List.map_injective_iff.mpr (fun _ _ => Component.name.inj)
    (List.append_cancel_left components)

/-- Names with separators between them are read as these names. -/
theorem segments_intercalate {names : List String} (areNames : ∀ name ∈ names, IsName name) :
    segments (String.intercalate "/" names).toList = names := by
  induction names with
  | nil => rfl
  | cons name later ih =>
    have isName : IsName name := areNames name List.mem_cons_self
    have others : ∀ other ∈ later, IsName other := fun other mem =>
      areNames other (List.mem_cons_of_mem _ mem)
    cases later with
    | nil =>
      rw [String.intercalate_singleton]
      exact isName.segments_eq
    | cons next rest =>
      have text : (String.intercalate "/" (name :: next :: rest)).toList =
          name.toList ++ '/' :: (String.intercalate "/" (next :: rest)).toList := by
        rw [String.intercalate_cons_cons, String.toList_append, String.toList_append,
          List.append_assoc]
        rfl
      rw [text, segments_separator, isName.segments_eq, ih others]
      rfl

end Formwright.Path
