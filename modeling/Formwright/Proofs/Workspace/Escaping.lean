import Formwright.Proofs.Text.Replacement
import Formwright.Workspace.Starter

/-!
Text between double quotes. What is escaped holds no quote and opens no tag, every ampersand in it
begins an entity, and one pass over the entities gives back the text, whatever it looked like.
-/

namespace Formwright.Workspace

open Text

def entities : List (List Char) :=
  [['&', 'a', 'm', 'p', ';'], ['&', 'q', 'u', 'o', 't', ';'], ['&', 'l', 't', ';']]

def expandEntities : List Char → List Char
  | '&' :: 'a' :: 'm' :: 'p' :: ';' :: rest => '&' :: expandEntities rest
  | '&' :: 'q' :: 'u' :: 'o' :: 't' :: ';' :: rest => '"' :: expandEntities rest
  | '&' :: 'l' :: 't' :: ';' :: rest => '<' :: expandEntities rest
  | c :: rest => c :: expandEntities rest
  | [] => []

theorem expandEntities_cons {c : Char} (other : c ≠ '&') (rest : List Char) :
    expandEntities (c :: rest) = c :: expandEntities rest := by
  rw [expandEntities]
  · exact fun _ same => absurd same other
  · exact fun _ same => absurd same other
  · exact fun _ same => absurd same other

/-- A character is escaped as an entity, or it is no special character and stands for itself. -/
theorem escapeInQuotes_cases (c : Char) :
    (escapeInQuotes c ∈ entities ∧
        ∀ rest, expandEntities (escapeInQuotes c ++ rest) = c :: expandEntities rest) ∨
      escapeInQuotes c = [c] ∧ c ≠ '&' ∧ c ≠ '"' ∧ c ≠ '<' := by
  unfold escapeInQuotes
  split
  next => exact .inl ⟨by decide, fun _ => rfl⟩
  next => exact .inl ⟨by decide, fun _ => rfl⟩
  next => exact .inl ⟨by decide, fun _ => rfl⟩
  next noAmpersand noQuote noTag => exact .inr ⟨rfl, noAmpersand, noQuote, noTag⟩

/-- An entity begins with the only ampersand in it, and holds no quote and no start of a tag. -/
theorem calm_of_mem_entities {entity : List Char} (mem : entity ∈ entities) :
    ∃ name, entity = '&' :: name ∧ '&' ∉ name ∧ '"' ∉ entity ∧ '<' ∉ entity := by
  simp only [entities, List.mem_cons, List.not_mem_nil, or_false] at mem
  obtain rfl | rfl | rfl := mem
  · exact ⟨_, rfl, by decide⟩
  · exact ⟨_, rfl, by decide⟩
  · exact ⟨_, rfl, by decide⟩

theorem expandEntities_escaped (text : List Char) :
    expandEntities (text.flatMap escapeInQuotes) = text := by
  induction text with
  | nil => rfl
  | cons c rest ih =>
    rw [List.flatMap_cons]
    obtain ⟨-, expanded⟩ | ⟨kept, other, -⟩ := escapeInQuotes_cases c
    · rw [expanded, ih]
    · rw [kept, List.singleton_append, expandEntities_cons other, ih]

theorem calm_of_mem_escaped {text : List Char} {d : Char}
    (mem : d ∈ text.flatMap escapeInQuotes) : d ≠ '"' ∧ d ≠ '<' := by
  obtain ⟨c, -, inside⟩ := List.mem_flatMap.mp mem
  obtain ⟨isEntity, -⟩ | ⟨kept, -, noQuote, noTag⟩ := escapeInQuotes_cases c
  · obtain ⟨name, -, -, noQuote, noTag⟩ := calm_of_mem_entities isEntity
    exact ⟨fun same => noQuote (same ▸ inside), fun same => noTag (same ▸ inside)⟩
  · rw [kept, List.mem_singleton] at inside
    rw [inside]
    exact ⟨noQuote, noTag⟩

/-- Wherever an ampersand stands in an escaped text, an entity begins with it. -/
theorem entity_of_ampersand {text before behind : List Char}
    (split : text.flatMap escapeInQuotes = before ++ '&' :: behind) :
    ∃ entity ∈ entities, entity <+: '&' :: behind := by
  induction text generalizing before with
  | nil => exact absurd split (by simp)
  | cons c rest ih =>
    rw [List.flatMap_cons] at split
    obtain ⟨later, rfl, others⟩ | ⟨later, shown, others⟩ := List.append_eq_append_iff.mp split
    · exact ih others
    · -- the ampersand is one of what is written for the first character
      cases later with
      | nil =>
        have inRest : rest.flatMap escapeInQuotes = [] ++ '&' :: behind := others.symm
        exact ih inRest
      | cons d later =>
        obtain ⟨rfl, others⟩ := List.cons.inj others
        obtain ⟨isEntity, -⟩ | ⟨kept, other, -⟩ := escapeInQuotes_cases c
        · obtain ⟨name, opens, single, -⟩ := calm_of_mem_entities isEntity
          rw [opens] at shown
          cases before with
          | nil =>
            rw [opens, shown] at isEntity
            exact ⟨_, isEntity, others ▸ List.prefix_append ('&' :: later) _⟩
          | cons _ before =>
            obtain ⟨-, inName⟩ := List.cons.inj shown
            exact absurd (by rw [inName]; simp) single
        · rw [kept] at shown
          have inside : '&' ∈ [c] := by rw [shown]; simp
          exact absurd (List.mem_singleton.mp inside).symm other

/-- Escaping all at once is replacing the special characters in turn, the ampersand first. -/
theorem replaced_in_turn (text : List Char) :
    replaceAll ['<'] "&lt;".toList
        (replaceAll ['"'] "&quot;".toList (replaceAll ['&'] "&amp;".toList text)) =
      text.flatMap escapeInQuotes := by
  rw [replaceAll_singleton, replaceAll_singleton, replaceAll_singleton, List.flatMap_assoc,
    List.flatMap_assoc]
  congr 1
  funext c
  by_cases ampersand : c = '&'
  · rw [ampersand]
    decide
  · by_cases quote : c = '"'
    · rw [quote]
      decide
    · by_cases tag : c = '<'
      · rw [tag]
        decide
      · have kept : escapeInQuotes c = [c] := by
          unfold escapeInQuotes
          split
          next => exact absurd rfl ampersand
          next => exact absurd rfl quote
          next => exact absurd rfl tag
          next => rfl
        simp only [ampersand, quote, tag, kept, if_false, List.flatMap_cons, List.flatMap_nil,
          List.append_nil]

/-- The text of an attribute is the one in which the ampersands, the quotes and the starts of tags
are replaced, in this order. It holds no quote and no start of a tag, every ampersand in it begins
an entity, and when the entities are expanded from left to right it is the text it was written
for. -/
theorem attribute_text_expands (text : String) :
    let escaped := (attributeText text).toList
    escaped = replaceAll ['<'] "&lt;".toList
        (replaceAll ['"'] "&quot;".toList (replaceAll ['&'] "&amp;".toList text.toList)) ∧
      '"' ∉ escaped ∧ '<' ∉ escaped ∧
      (∀ before behind, escaped = before ++ '&' :: behind →
        ∃ entity ∈ ["&amp;", "&quot;", "&lt;"], entity.toList <+: '&' :: behind) ∧
      expandEntities escaped = text.toList := by
  intro escaped
  have written : escaped = text.toList.flatMap escapeInQuotes := String.toList_ofList
  rw [written]
  refine ⟨(replaced_in_turn text.toList).symm, ?_, ?_, ?_, expandEntities_escaped text.toList⟩
  · exact fun mem => (calm_of_mem_escaped mem).1 rfl
  · exact fun mem => (calm_of_mem_escaped mem).2 rfl
  · intro before behind split
    obtain ⟨entity, mem, starts⟩ := entity_of_ampersand split
    obtain ⟨name, listed, rfl⟩ : ∃ name ∈ ["&amp;", "&quot;", "&lt;"], name.toList = entity :=
      List.mem_map.mp mem
    exact ⟨name, listed, starts⟩

/-- What looks like an entity is escaped and comes back. -/
theorem lookalike_expands :
    expandEntities (attributeText "&lt;").toList = "&lt;".toList ∧
      ∃ entity ∈ ["&amp;", "&quot;", "&lt;"], entity.toList <+: "&amp;lt;".toList := by
  obtain ⟨-, -, -, begins, expands⟩ := attribute_text_expands "&lt;"
  have written : (attributeText "&lt;").toList = [] ++ '&' :: "amp;lt;".toList := rfl
  exact ⟨expands, begins [] "amp;lt;".toList written⟩

/-- With the ampersand replaced last, two texts are escaped alike. -/
example : replaceAll ['&'] "&amp;".toList (replaceAll ['<'] "&lt;".toList ['<']) =
    replaceAll ['&'] "&amp;".toList (replaceAll ['<'] "&lt;".toList "&lt;".toList) := by
  decide

end Formwright.Workspace
