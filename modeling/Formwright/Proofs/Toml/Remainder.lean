import Formwright.Toml.Reader

/-!
What the readers of a TOML document leave: always an end of the text that they were given.
-/

namespace Formwright.Toml

open List

variable {text rest : List Char}

theorem separator_suffix {c : Char} (found : separator c text = some rest) : rest <:+ text := by
  cases text with
  | nil => cases found
  | cons d later =>
    rw [separator] at found
    split at found
    next =>
      cases found
      exact suffix_cons ..
    next => cases found

theorem dropSpaces_suffix (text : List Char) : dropSpaces text <:+ text := dropWhile_suffix _

theorem dropVoid_suffix {inComment : Bool} (found : dropVoid inComment text = some rest) :
    rest <:+ text := by
  induction text generalizing inComment with
  | nil =>
    cases found
    exact suffix_refl _
  | cons c later ih =>
    rw [dropVoid] at found
    split at found
    next => exact (ih found).trans (suffix_cons ..)
    next =>
      split at found
      next =>
        split at found
        next => exact (ih found).trans (suffix_cons ..)
        next => cases found
      next =>
        split at found
        next =>
          split at found
          next => cases found
          next => exact (ih found).trans (suffix_cons ..)
        next =>
          split at found
          next => exact (ih found).trans (suffix_cons ..)
          next =>
            split at found
            next => exact (ih found).trans (suffix_cons ..)
            next =>
              cases found
              exact suffix_refl _

/-! ## Strings -/

theorem escape_suffix {c : Char} (found : escape text = some (c, rest)) : rest <:+ text := by
  have code {count : Nat} {digits : List Char} (found : codeEscape count digits = some (c, rest)) :
      rest <:+ digits := by
    rw [codeEscape] at found
    split at found
    next =>
      cases found
      exact drop_suffix ..
    next => cases found
  cases text with
  | nil => cases found
  | cons d later =>
    unfold escape at found
    dsimp only at found
    split at found
    case h_9 | h_10 | h_11 => exact (code found).trans (suffix_cons ..)
    case h_12 => cases found
    all_goals
      cases found
      exact suffix_cons ..

theorem basicFrom_suffix {fuel : Nat} {done content : List Char}
    (found : basicFrom fuel done text = some (content, rest)) : rest <:+ text := by
  induction fuel generalizing done text with
  | zero => cases found
  | succ fuel ih =>
    cases text with
    | nil => cases found
    | cons c later =>
      rw [basicFrom] at found
      split at found
      next =>
        cases found
        exact suffix_cons ..
      next =>
        split at found
        next =>
          split at found
          next d behind escaped =>
            exact ((ih found).trans (escape_suffix escaped)).trans (suffix_cons ..)
          next => cases found
        next =>
          split at found
          next => cases found
          next => exact (ih found).trans (suffix_cons ..)

theorem literalFrom_suffix {done content : List Char}
    (found : literalFrom done text = some (content, rest)) : rest <:+ text := by
  induction text generalizing done with
  | nil => cases found
  | cons c later ih =>
    rw [literalFrom] at found
    split at found
    next =>
      cases found
      exact suffix_cons ..
    next =>
      split at found
      next => cases found
      next => exact (ih found).trans (suffix_cons ..)

theorem dropFirstLineEnd_suffix (text : List Char) : dropFirstLineEnd text <:+ text := by
  unfold dropFirstLineEnd
  split
  · exact suffix_cons ..
  · exact (suffix_cons ..).trans (suffix_cons ..)
  · exact suffix_refl _

theorem dropGap_suffix (text : List Char) : dropGap text <:+ text := by
  fun_induction dropGap text with
  | case1 later ih | case2 later ih | case3 later ih => exact ih.trans (suffix_cons ..)
  | case4 later ih => exact ih.trans ((suffix_cons ..).trans (suffix_cons ..))
  | case5 => exact suffix_refl _

theorem continuation_suffix (found : continuation text = some rest) : rest <:+ text := by
  unfold continuation at found
  have blanks := dropWhile_suffix (fun c => decide (c = ' ') || decide (c = '\t')) (l := text)
  split at found
  next later opened =>
    cases found
    rw [opened] at blanks
    exact (dropGap_suffix later).trans ((suffix_cons ..).trans blanks)
  next later opened =>
    cases found
    rw [opened] at blanks
    exact (dropGap_suffix later).trans ((suffix_cons ..).trans ((suffix_cons ..).trans blanks))
  next => cases found

theorem closing_suffix {quote : Char} {done content : List Char}
    (found : closing quote done text = some (content, rest)) : rest <:+ text := by
  rw [closing] at found
  split at found
  next =>
    cases found
    exact drop_suffix ..
  next => cases found

theorem multilineFrom_suffix {quote : Char} {fuel : Nat} {done content : List Char}
    (found : multilineFrom quote fuel done text = some (content, rest)) : rest <:+ text := by
  induction fuel generalizing done text with
  | zero => cases found
  | succ fuel ih =>
    cases text with
    | nil => cases found
    | cons c later =>
      rw [multilineFrom] at found
      split at found
      next closed ended =>
        cases found
        exact closing_suffix ended
      next =>
        split at found
        next =>
          split at found
          next behind continued =>
            exact ((ih found).trans (continuation_suffix continued)).trans (suffix_cons ..)
          next =>
            split at found
            next d behind escaped =>
              exact ((ih found).trans (escape_suffix escaped)).trans (suffix_cons ..)
            next => cases found
        next =>
          split at found
          next => exact (ih found).trans (suffix_cons ..)
          next => cases found

theorem readLine_suffix {content : List Char} (found : readLine text = some (content, rest)) :
    rest <:+ text := by
  unfold readLine at found
  split at found
  next => exact (basicFrom_suffix found).trans (suffix_cons ..)
  next => exact (literalFrom_suffix found).trans (suffix_cons ..)
  next => cases found

theorem readText_suffix {content : List Char} (found : readText text = some (content, rest)) :
    rest <:+ text := by
  have inside {quote : Char} {later : List Char}
      (read : multilineFrom quote (later.length + 1) [] (dropFirstLineEnd later) =
        some (content, rest)) : rest <:+ quote :: quote :: quote :: later :=
    ((multilineFrom_suffix read).trans (dropFirstLineEnd_suffix later)).trans
      ((suffix_cons ..).trans ((suffix_cons ..).trans (suffix_cons ..)))
  unfold readText at found
  split at found
  next => exact inside found
  next => exact inside found
  next => exact readLine_suffix found

/-! ## Keys -/

theorem readSimpleKey_suffix {name : String} (found : readSimpleKey text = some (name, rest)) :
    rest <:+ text := by
  rw [readSimpleKey] at found
  split at found
  next =>
    obtain ⟨⟨key, behind⟩, read, same⟩ := Option.map_eq_some_iff.mp found
    cases same
    exact readLine_suffix read
  next =>
    cases found
    exact dropWhile_suffix _

theorem readKey_suffix {fuel : Nat} {path : List String} {last : String}
    (found : readKey fuel text = some (path, last, rest)) : rest <:+ text := by
  induction fuel generalizing text path with
  | zero => cases found
  | succ fuel ih =>
    obtain ⟨⟨name, behind⟩, read, found⟩ := Option.bind_eq_some_iff.mp found
    have named := (readSimpleKey_suffix read).trans (dropSpaces_suffix text)
    have spaced := (dropSpaces_suffix behind).trans named
    dsimp only at found
    split at found
    next later opened =>
      obtain ⟨⟨deeper, key, final⟩, read, same⟩ := Option.bind_eq_some_iff.mp found
      cases same
      rw [opened] at spaced
      exact (ih read).trans ((suffix_cons ..).trans spaced)
    next =>
      cases found
      exact spaced

theorem readScalar_suffix {value : Value} (found : readScalar text = some (value, rest)) :
    rest <:+ text := by
  obtain ⟨read, -, same⟩ := Option.map_eq_some_iff.mp found
  cases same
  exact drop_suffix ..

/-! ## Documents -/

/-- A document that begins with no byte order mark is read from its first character on. -/
theorem read_unmarked {document : String} (unmarked : document.toList.head? ≠ some '\uFEFF') :
    read document = (Reading.run (document.toList.length + 1) ⟨[], []⟩ document.toList).map
      fun reading => Draft.sortByKey (Draft.values reading.root) := by
  unfold read
  dsimp only
  split
  next marked => exact absurd (congrArg List.head? marked) unmarked
  next => rfl

end Formwright.Toml
