import Formwright.Component.Fragment
import Formwright.Proofs.Component.MarkupReader
import Formwright.Proofs.Text.Indentation

/-!
Texts as attributes. A reader finds the text again and goes on behind the attribute.
-/

namespace Formwright.Component

open Mapping Text

/-- A double-quoted literal of a text, on one line, that ends at its first quote without a backslash
and reads back as the text. -/
structure LiteralOf (text : String) (code : String) : Prop where
  quoted : ∃ inside, code.toList = '"' :: (inside ++ ['"']) ∧
    ∀ rest, Script.afterString '"' (inside ++ '"' :: rest) = rest
  oneLine : OneLine code.toList
  reads (rest : List Char) : readLiteral (code.toList ++ rest) = some (text.toList, rest)

theorem literal_literalOf (text : String) : LiteralOf text (literal text) where
  quoted := by
    refine ⟨text.toList.flatMap escapeInLiteral, ?_, afterString_escaped text.toList⟩
    rw [literal, String.toList_ofList]
    rfl
  oneLine := by
    rw [literal, String.toList_ofList]
    refine ⟨by simp [quotedLiteral], fun feed => ?_, fun carriage => ?_⟩
    · exact absurd (printed_quotedLiteral feed) (by decide)
    · exact absurd (printed_quotedLiteral carriage) (by decide)
  reads rest := by
    rw [literal, String.toList_ofList]
    exact readLiteral_quotedLiteral text.toList rest

theorem toList_braced (code : String) : (braced code).toList = '{' :: (code.toList ++ ['}']) := by
  rw [braced, String.toList_append, String.toList_append]
  rfl

theorem oneLine_braced {code : String} (single : OneLine code.toList) :
    OneLine (braced code).toList := by
  obtain ⟨_, noFeed, noReturn⟩ := single
  rw [toList_braced]
  exact ⟨by simp, by simp [noFeed], by simp [noReturn]⟩

/-- The value of an attribute: the text in quotes, if nothing in it is read in another way, or a
literal in braces. -/
structure InAttribute (text value : String) : Prop where
  form :
    (value = "\"" ++ text ++ "\"" ∧
      ∀ c ∈ text.toList, c ≠ '"' ∧ c ≠ '&' ∧ c ≠ '\n' ∧ c ≠ '\r') ∨
    ∃ code, value = braced code ∧ LiteralOf text code
  oneLine : OneLine value.toList

theorem noBreaks_of_quotes {text : String} (keeps : ¬breaksQuotes text = true) :
    ∀ c ∈ text.toList, c ≠ '"' ∧ c ≠ '&' ∧ c ≠ '\n' ∧ c ≠ '\r' := by
  intro c mem
  have calm := List.any_eq_false.mp (Bool.eq_false_iff.mpr keeps) c mem
  simp only [Bool.or_eq_true, decide_eq_true_eq, not_or] at calm
  exact ⟨calm.1.1.1, calm.2, calm.1.1.2, calm.1.2⟩

theorem toList_quoted (text : String) :
    ("\"" ++ text ++ "\"").toList = '"' :: (text.toList ++ ['"']) := by
  rw [String.toList_append, String.toList_append]
  rfl

theorem inAttribute_quoted {text : String}
    (keeps : ∀ c ∈ text.toList, c ≠ '"' ∧ c ≠ '&' ∧ c ≠ '\n' ∧ c ≠ '\r') :
    InAttribute text ("\"" ++ text ++ "\"") := by
  refine ⟨.inl ⟨rfl, keeps⟩, ?_⟩
  have noFeed : '\n' ∉ text.toList := fun mem => (keeps _ mem).2.2.1 rfl
  have noReturn : '\r' ∉ text.toList := fun mem => (keeps _ mem).2.2.2 rfl
  rw [toList_quoted]
  exact ⟨by simp, by simp [noFeed], by simp [noReturn]⟩

theorem inAttribute_braced {text code : String} (isLiteral : LiteralOf text code) :
    InAttribute text (braced code) :=
  ⟨.inr ⟨code, rfl, isLiteral⟩, oneLine_braced isLiteral.oneLine⟩

/-- A reader finds the text of an attribute, whatever follows. -/
theorem value_of_attribute {reader : MarkupReader} (conforms : reader.Conforms)
    {text value : String} (inAttribute : InAttribute text value) (rest : List Char) :
    reader.value (value.toList ++ rest) = some (text.toList, rest) := by
  obtain ⟨rfl, keeps⟩ | ⟨code, rfl, isLiteral⟩ := inAttribute.form
  · rw [toList_quoted, List.cons_append, List.append_assoc]
    exact conforms.quoted text.toList rest keeps
  · rw [toList_braced, List.cons_append, List.append_assoc]
    exact conforms.bracedValue text.toList code.toList rest isLiteral.reads

theorem renderAttribute_text (name text : String) :
    ∃ value, renderAttribute name (.text text) = name ++ "=" ++ value ∧ InAttribute text value := by
  by_cases breaks : breaksQuotes text = true
  · refine ⟨braced (literal text), ?_, inAttribute_braced (literal_literalOf text)⟩
    rw [Value.text, renderAttribute, if_pos breaks]
    rfl
  · refine ⟨"\"" ++ text ++ "\"", ?_, inAttribute_quoted (noBreaks_of_quotes breaks)⟩
    have quote : "=\"" = "=" ++ "\"" := rfl
    rw [Value.text, renderAttribute, if_neg breaks, quote]
    simp only [String.append_assoc]

end Formwright.Component
