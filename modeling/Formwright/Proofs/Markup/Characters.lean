import Formwright.Proofs.Markup.Beginning
import Formwright.Proofs.Markup.Spelling

/-!
The characters of accepted documents. Whatever part of a token a character stands in, it is one that
documents may hold.
-/

namespace Formwright.Markup

open Text (CharRanges)

theorem between_of_containsCode {ranges : CharRanges} {code : Nat}
    (found : ranges.containsCode code = true) :
    ∃ range ∈ ranges, range.1 ≤ code ∧ code ≤ range.2 := by
  induction ranges with
  | nil => cases found
  | cons range later ih =>
    rw [CharRanges.containsCode] at found
    split at found
    next => cases found
    next reached =>
      rcases Bool.or_eq_true_iff.mp found with within | behind
      · exact ⟨range, List.mem_cons_self, Nat.le_of_not_lt reached, of_decide_eq_true within⟩
      · obtain ⟨other, mem, between⟩ := ih behind
        exact ⟨other, List.mem_cons_of_mem _ mem, between⟩

theorem legal_of_code {c : Char} (printable : 0x20 ≤ c.toNat) (notLast : c.toNat ≠ 0xFFFE)
    (notLast' : c.toNat ≠ 0xFFFF) : isDocumentCharacter c = true := by
  rw [isDocumentCharacter, if_neg (Nat.not_lt.mpr printable)]
  simp [notLast, notLast']

theorem legal_of_isNameCharacter {c : Char} (nameLike : isNameCharacter c = true) :
    isDocumentCharacter c = true := by
  have ranges : ∀ range ∈ nameStarts ++ nameFollowers,
      0x20 ≤ range.1 ∧ (range.2 < 0xFFFE ∨ 0xFFFF < range.1) := by decide
  have covered {set : CharRanges} (among : ∀ range ∈ set, range ∈ nameStarts ++ nameFollowers)
      (found : set.contains c = true) : isDocumentCharacter c = true := by
    obtain ⟨range, mem, low, high⟩ := between_of_containsCode found
    obtain ⟨printable, apart⟩ := ranges range (among range mem)
    exact legal_of_code (by omega) (by omega) (by omega)
  rcases Bool.or_eq_true_iff.mp nameLike with starts | follows
  · rcases Bool.or_eq_true_iff.mp starts with colon | starts
    · rw [of_decide_eq_true colon]
      decide
    · exact covered (fun _ mem => List.mem_append_left _ mem) starts
  · exact covered (fun _ mem => List.mem_append_right _ mem) follows

theorem legal_of_isSpace {c : Char} (space : isSpace c = true) : isDocumentCharacter c = true := by
  simp only [isSpace, Bool.or_eq_true, decide_eq_true_eq] at space
  rcases space with ((rfl | rfl) | rfl) | rfl
  all_goals decide

def Legal (text : List Char) : Prop := ∀ c ∈ text, isDocumentCharacter c = true

instance (text : List Char) : Decidable (Legal text) := List.decidableBAll ..

namespace Legal

@[simp] theorem nil : Legal [] := nofun

@[simp] theorem cons {c : Char} {text : List Char} :
    Legal (c :: text) ↔ isDocumentCharacter c = true ∧ Legal text := List.forall_mem_cons

@[simp] theorem append {first second : List Char} :
    Legal (first ++ second) ↔ Legal first ∧ Legal second := List.forall_mem_append

theorem of_spaces {spaces : List Char} (spaced : ∀ c ∈ spaces, isSpace c = true) : Legal spaces :=
  fun c mem => legal_of_isSpace (spaced c mem)

theorem of_name {run : List Char} (nameLike : ∀ c ∈ run, isNameCharacter c = true) : Legal run :=
  fun c mem => legal_of_isNameCharacter (nameLike c mem)

theorem of_lead {place : Place} {spaces : List Char} (lead : place.Lead spaces) : Legal spaces := by
  cases place with
  | prolog | epilog => exact of_spaces lead
  | content => rw [show spaces = [] from lead]; exact nil
  | tag => cases lead

end Legal

theorem AttributeText.legal_run {name : QualifiedName} {content run : List Char}
    (written : AttributeText name content run) : Legal run := by
  obtain ⟨named, before, behind, quote, rfl, isName, spaced, spaced', isQuote, -⟩ := written.written
  have quoted : isDocumentCharacter quote = true := by
    rcases isQuote with rfl | rfl
    all_goals decide
  have content := written.legal
  simp only [Legal.append, Legal.cons, Legal.nil, and_true]
  exact ⟨.of_name isName.nameLike, .of_spaces spaced, by decide, .of_spaces spaced', quoted, content,
    quoted⟩

theorem Writes.legal {place next : Place} {run : List Char} {token : Token}
    (writes : Writes place run token next) : Legal run := by
  cases writes with
  | comment lead written =>
    simp only [Legal.append]
    exact ⟨.of_lead lead, by decide, written.runs.legal, by decide⟩
  | instruction lead written =>
    simp only [Legal.append, Legal.cons]
    exact ⟨.of_lead lead, by decide, by decide, .of_name written.nameLike, .of_spaces written.spaced,
      written.runs.legal, by decide⟩
  | tagStart admits lead written =>
    simp only [Legal.append, Legal.cons]
    exact ⟨.of_lead lead, by decide, .of_name written.nameLike⟩
  | tagAttribute filled spaced written =>
    exact Legal.append.mpr ⟨.of_spaces spaced, written.legal_run⟩
  | selfClosing spaced => exact Legal.append.mpr ⟨.of_spaces spaced, by decide⟩
  | tagEnd spaced => exact Legal.append.mpr ⟨.of_spaces spaced, by decide⟩
  | closeTag spaced written =>
    simp only [Legal.append, Legal.cons]
    exact ⟨by decide, by decide, .of_name written.nameLike, .of_spaces spaced, by decide, .nil⟩
  | text written => exact written.legal
  | characterData written =>
    simp only [Legal.append]
    exact ⟨by decide, written.legal, by decide⟩

theorem Spells.legal {place : Place} {text : List Char} {tokens : List Token}
    (spells : Spells place text tokens) : Legal text := by
  induction spells with
  | @finish place text ends =>
    cases place with
    | prolog | epilog => exact .of_spaces ends
    | tag | content => rw [show text = [] from ends]; exact .nil
  | step writes _ _ ih => exact Legal.append.mpr ⟨writes.legal, ih⟩

/-- Behind its declaration a document without a lexical fault holds only characters that documents may
hold. -/
theorem legal_of_lex {document : List Char} {start : Cursor} (begins : Begins document start)
    (accepted : (lex document).fault = none) : Legal start.rest := by
  rw [lex_of_begins begins] at accepted
  exact (spells_of_lexFrom accepted).legal

end Formwright.Markup
