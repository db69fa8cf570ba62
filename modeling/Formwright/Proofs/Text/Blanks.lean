import Formwright.Text.Columns

/-!
What trimming and shifting take from a text is blank, and lines hold no line feeds.
-/

namespace Formwright.Text

def Blank (text : List Char) : Prop := ∀ c ∈ text, isBlank c = true

theorem blank_nil : Blank [] := by
  intro c mem
  cases mem

theorem blank_takeWhile (text : List Char) : Blank (text.takeWhile isBlank) := fun c mem =>
  List.all_eq_true.mp List.all_takeWhile c mem

theorem trimStart_split (text : List Char) :
    ∃ before, text = before ++ trimStart text ∧ Blank before :=
  ⟨text.takeWhile isBlank, List.takeWhile_append_dropWhile.symm, blank_takeWhile text⟩

theorem trimEnd_split (text : List Char) :
    ∃ behind, text = trimEnd text ++ behind ∧ Blank behind := by
  refine ⟨(text.reverse.takeWhile isBlank).reverse, ?_, ?_⟩
  next =>
    rw [trimEnd, ← List.reverse_append, List.takeWhile_append_dropWhile, List.reverse_reverse]
  next =>
    intro c mem
    exact blank_takeWhile text.reverse c (List.mem_reverse.mp mem)

theorem trimEnd_eq (text : List Char) : trimEnd text = (trimStart text.reverse).reverse := rfl

theorem trimStart_eq_self {text : List Char} (first : ∀ c ∈ text.head?, isBlank c = false) :
    trimStart text = text := by
  cases text with
  | nil => rfl
  | cons c rest =>
    have dark : ¬isBlank c = true := Bool.eq_false_iff.mp (first c rfl)
    rw [trimStart, List.dropWhile_cons_of_neg dark]

theorem trimEnd_eq_self {text : List Char} (last : ∀ c ∈ text.getLast?, isBlank c = false) :
    trimEnd text = text := by
  rw [← List.head?_reverse] at last
  rw [trimEnd_eq, trimStart_eq_self last, List.reverse_reverse]

theorem first_of_trimStart (text : List Char) :
    ∀ c ∈ (trimStart text).head?, isBlank c = false := by
  intro c first
  have notBlank := List.head?_dropWhile_not isBlank text
  rw [← trimStart, Option.mem_def.mp first] at notBlank
  exact notBlank

theorem last_of_trimEnd (text : List Char) :
    ∀ c ∈ (trimEnd text).getLast?, isBlank c = false := by
  rw [trimEnd_eq, List.getLast?_reverse]
  exact first_of_trimStart text.reverse

theorem first_of_trim (text : List Char) : ∀ c ∈ (trim text).head?, isBlank c = false := by
  intro c first
  obtain ⟨behind, split, _⟩ := trimEnd_split (trimStart text)
  apply first_of_trimStart text c
  rw [split, ← trim, List.head?_append, Option.mem_def.mp first]
  rfl

/-- No blank stands at either end of a trimmed text. -/
theorem isTrimmed_iff (text : List Char) :
    isTrimmed text = true ↔
      (∀ c ∈ text.head?, isBlank c = false) ∧ ∀ c ∈ text.getLast?, isBlank c = false := by
  rw [isTrimmed, beq_iff_eq]
  constructor
  · intro same
    rw [← same]
    exact ⟨first_of_trim text, last_of_trimEnd (trimStart text)⟩
  · rintro ⟨first, last⟩
    rw [trim, trimStart_eq_self first, trimEnd_eq_self last]

theorem isTrimmed_trim (text : List Char) : isTrimmed (trim text) = true :=
  (isTrimmed_iff (trim text)).mpr ⟨first_of_trim text, last_of_trimEnd (trimStart text)⟩

theorem trimStart_blank {text : List Char} (blank : Blank text) : trimStart text = [] := by
  rw [trimStart, ← List.append_nil text, List.dropWhile_append_of_pos blank]
  rfl

theorem trimStart_append_blank {before : List Char} (blank : Blank before) (text : List Char) :
    trimStart (before ++ text) = trimStart text := by
  rw [trimStart, List.dropWhile_append_of_pos blank, ← trimStart]

theorem trimEnd_append_blank {behind : List Char} (blank : Blank behind) (text : List Char) :
    trimEnd (text ++ behind) = trimEnd text := by
  have blankReverse : ∀ c ∈ behind.reverse, isBlank c = true := fun c mem =>
    blank c (List.mem_reverse.mp mem)
  rw [trimEnd, List.reverse_append, List.dropWhile_append_of_pos blankReverse, ← trimEnd]

/-- Trimming takes away blanks that are put around a trimmed text. -/
theorem trim_between {before text behind : List Char} (blankBefore : Blank before)
    (trimmed : isTrimmed text = true) (blankBehind : Blank behind) :
    trim (before ++ text ++ behind) = text := by
  obtain ⟨first, last⟩ := (isTrimmed_iff text).mp trimmed
  cases text with
  | nil =>
    have whole : Blank (before ++ behind) := fun c mem =>
      (List.mem_append.mp mem).elim (blankBefore c) (blankBehind c)
    rw [List.append_nil, trim, trimStart_blank whole]
    rfl
  | cons c rest =>
    have start : trimStart (before ++ c :: rest ++ behind) = c :: rest ++ behind := by
      rw [List.append_assoc, trimStart_append_blank blankBefore]
      exact trimStart_eq_self first
    rw [trim, start, trimEnd_append_blank blankBehind, trimEnd_eq_self last]

theorem dropReturn_split (line : List Char) :
    ∃ behind,
      line.reverse = (dropReturn line).reverse ++ behind ∧ Blank behind ∧ '\n' ∉ behind := by
  unfold dropReturn
  split
  next line =>
    refine ⟨['\r'], List.reverse_cons, ?_, by decide⟩
    exact fun c mem => List.mem_singleton.mp mem ▸ by decide
  next => exact ⟨[], (List.append_nil _).symm, blank_nil, List.not_mem_nil⟩

theorem encodedSize_append (first second : List Char) :
    encodedSize (first ++ second) = encodedSize first + encodedSize second := by
  induction first with
  | nil => rw [List.nil_append, encodedSize, Nat.zero_add]
  | cons c first ih => rw [List.cons_append, encodedSize, encodedSize, ih, Nat.add_assoc]

theorem margin_eq (line : List Char) : margin line = encodedSize (line.takeWhile isBlank) := by
  have whole : encodedSize line =
      encodedSize (line.takeWhile isBlank) + encodedSize (trimStart line) := by
    rw [← encodedSize_append, trimStart, List.takeWhile_append_dropWhile]
  rw [margin, whole, Nat.add_sub_cancel]

theorem dropEncoded_split {width : Nat} {line rest : List Char}
    (dropped : dropEncoded width line = some rest) :
    ∃ before, line = before ++ rest ∧ encodedSize before = width := by
  fun_induction dropEncoded width line with
  | case1 text =>
    injection dropped with same
    exact ⟨[], same, rfl⟩
  | case2 => cases dropped
  | case3 count c later fits ih =>
    obtain ⟨before, rfl, size⟩ := ih dropped
    refine ⟨c :: before, rfl, ?_⟩
    have whole : encodedSize (c :: before) = c.utf8Size + encodedSize before := rfl
    omega
  | case4 => cases dropped

/-- A beginning that is no wider than the blanks at the start is blank. -/
theorem blank_of_encodedSize_le {before rest : List Char}
    (narrow : encodedSize before ≤ encodedSize ((before ++ rest).takeWhile isBlank)) :
    Blank before := by
  induction before with
  | nil => exact blank_nil
  | cons c before ih =>
    have whole : encodedSize (c :: before) = c.utf8Size + encodedSize before := rfl
    have wide : 0 < c.utf8Size := Char.utf8Size_pos c
    rw [List.cons_append, List.takeWhile_cons] at narrow
    split at narrow
    next blank =>
      intro d mem
      cases List.mem_cons.mp mem with
      | inl same => rw [same, blank]
      | inr mem =>
        have later : encodedSize (c :: (before ++ rest).takeWhile isBlank) =
          c.utf8Size + encodedSize ((before ++ rest).takeWhile isBlank) := rfl
        exact ih (by omega) d mem
    next =>
      have none : encodedSize [] = 0 := rfl
      omega

theorem dropMargin_split {width : Nat} {line : List Char} (narrow : width ≤ margin line) :
    ∃ before, line = before ++ dropMargin width line ∧ Blank before := by
  rw [dropMargin]
  split
  next empty => exact ⟨[], List.isEmpty_iff.mp empty, blank_nil⟩
  next =>
    cases dropped : dropEncoded width line with
    | none => exact trimStart_split line
    | some rest =>
      obtain ⟨before, rfl, size⟩ := dropEncoded_split dropped
      refine ⟨before, rfl, ?_⟩
      have inside : encodedSize before ≤ encodedSize ((before ++ rest).takeWhile isBlank) := by
        rw [size, ← margin_eq]
        exact narrow
      exact blank_of_encodedSize_le inside

theorem shiftLine_split {lead line : List Char} (blank : Blank lead) :
    ∃ before, shiftLine lead line = before ++ line ∧ Blank before := by
  rw [shiftLine]
  split
  next empty => exact ⟨[], (List.isEmpty_iff.mp empty).symm, blank_nil⟩
  next => exact ⟨lead, rfl, blank⟩

theorem lineFeed_notMem_lines {text line found : List Char} (inside : '\n' ∉ line)
    (mem : found ∈ linesAfter line text) : '\n' ∉ found := by
  fun_induction linesAfter line text with
  | case1 line empty => cases mem
  | case2 line filled =>
    rw [List.mem_singleton.mp mem, List.mem_reverse]
    exact inside
  | case3 line rest ih =>
    cases List.mem_cons.mp mem with
    | inl same =>
      obtain ⟨behind, split, _⟩ := dropReturn_split line
      intro lineFeed
      apply inside
      rw [← List.mem_reverse, split, ← same]
      exact List.mem_append_left _ lineFeed
    | inr mem => exact ih List.not_mem_nil mem
  | case4 line c rest other ih =>
    apply ih _ mem
    intro lineFeed
    cases List.mem_cons.mp lineFeed with
    | inl same => exact other same.symm
    | inr mem => exact inside mem

theorem commonMargin_le {later : List (List Char)} {line : List Char} (mem : line ∈ later)
    (filled : line ≠ []) : commonMargin later ≤ margin line := by
  have shared : margin line ∈ (later.filter (!·.isEmpty)).map margin := by
    apply List.mem_map_of_mem
    rw [List.mem_filter]
    exact ⟨mem, by simpa using filled⟩
  rw [commonMargin]
  cases least : ((later.filter (!·.isEmpty)).map margin).min? with
  | none => exact Nat.zero_le _
  | some width => exact (List.min?_eq_some_iff.mp least).2 _ shared

end Formwright.Text
