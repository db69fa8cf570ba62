import Formwright.Proofs.Toml.Remainder
import Mathlib.Data.List.Chain

/-!
A text in double quotes that stands at the end of a line. It is read as it stands exactly when it
holds no quote, no backslash and no control character. Otherwise it is not read, or something shorter
is read.
-/

namespace Formwright.Toml

open List

def standsForItself (c : Char) : Bool := c != '"' && c != '\\' && !isControl c

variable {text tail done content rest : List Char}

theorem basicFrom_plain {fuel : Nat} (plain : ∀ c ∈ text, standsForItself c = true)
    (enough : text.length < fuel) :
    basicFrom fuel done (text ++ '"' :: rest) = some (done.reverse ++ text, rest) := by
  induction text generalizing fuel done with
  | nil =>
    obtain ⟨fuel, rfl⟩ := Nat.exists_eq_succ_of_ne_zero (Nat.ne_of_gt enough)
    rw [List.append_nil]
    rfl
  | cons c text ih =>
    obtain ⟨fuel, rfl⟩ := Nat.exists_eq_succ_of_ne_zero (Nat.ne_zero_of_lt enough)
    have here := plain c mem_cons_self
    simp only [standsForItself, Bool.and_eq_true, bne_iff_ne, Bool.not_eq_true'] at here
    obtain ⟨⟨noQuote, noBackslash⟩, noControl⟩ := here
    have later : ∀ c ∈ text, standsForItself c = true := fun d mem => plain d (mem_cons_of_mem c mem)
    rw [cons_append, basicFrom, if_neg noQuote, if_neg noBackslash, noControl, if_neg (by decide),
      ih later (Nat.lt_of_succ_lt_succ enough), reverse_cons, append_assoc]
    rfl

/-- An escape takes at least one character, and stays on its line. -/
theorem escape_line {c : Char} (found : escape text = some (c, rest)) :
    ∃ used, text = used ++ rest ∧ used ≠ [] ∧ '\n' ∉ used := by
  have code {mark : Char} {count : Nat} {digits : List Char} (plain : mark ≠ '\n')
      (found : codeEscape count digits = some (c, rest)) :
      ∃ used, mark :: digits = used ++ rest ∧ used ≠ [] ∧ '\n' ∉ used := by
    rw [codeEscape] at found
    split at found
    next digital =>
      cases found
      refine ⟨mark :: digits.take count, ?_, cons_ne_nil _ _, ?_⟩
      · rw [cons_append, take_append_drop]
      · rw [mem_cons, not_or]
        refine ⟨plain.symm, fun mem => ?_⟩
        simp only [Bool.and_eq_true, all_eq_true] at digital
        have hexadecimal := digital.1.2 '\n' mem
        revert hexadecimal
        decide
    next => cases found
  have single {mark : Char} {later : List Char} (plain : mark ≠ '\n') :
      ∃ used, mark :: later = used ++ later ∧ used ≠ [] ∧ '\n' ∉ used :=
    ⟨[mark], rfl, cons_ne_nil _ _, by rw [mem_singleton]; exact plain.symm⟩
  cases text with
  | nil => cases found
  | cons d later =>
    unfold escape at found
    dsimp only at found
    split at found
    case h_9 | h_10 | h_11 => exact code (by decide) found
    case h_12 => cases found
    all_goals
      cases found
      exact single (by decide)

/-- An escape leaves the quote and the end of the line behind, or it takes the quote. -/
theorem escape_rest {c : Char}
    (escaped : escape (text ++ '"' :: '\n' :: tail) = some (c, rest)) :
    (∃ behind, rest = behind ++ '"' :: '\n' :: tail ∧ behind.length < text.length) ∨
      rest = '\n' :: tail := by
  obtain ⟨used, split, filled, sameLine⟩ := escape_line escaped
  have taken := length_pos_iff.mpr filled
  obtain ⟨beyond, rfl, behind⟩ | ⟨behind, rfl, rfl⟩ := append_eq_append_iff.mp split
  · cases beyond with
    | nil =>
      rw [append_nil] at taken
      exact .inl ⟨[], behind.symm, taken⟩
    | cons mark beyond =>
      cases beyond with
      | nil =>
        cases behind
        exact .inr rfl
      | cons next beyond =>
        cases behind
        simp at sameLine
  · refine .inl ⟨behind, rfl, ?_⟩
    rw [length_append]
    omega

/-- A string on one line ends on that line. -/
theorem basicFrom_length {fuel : Nat}
    (found : basicFrom fuel done (text ++ '"' :: '\n' :: tail) = some (content, rest)) :
    (∀ c ∈ text, standsForItself c = true) ∧ content = done.reverse ++ text ∨
      content.length < done.length + text.length := by
  induction fuel generalizing done text with
  | zero => cases found
  | succ fuel ih =>
    cases text with
    | nil =>
      cases found
      exact .inl ⟨nofun, (append_nil _).symm⟩
    | cons c text =>
      rw [cons_append, basicFrom] at found
      split at found
      next =>
        cases found
        right
        rw [length_reverse, length_cons]
        omega
      next noQuote =>
        split at found
        next =>
          split at found
          next d later escaped =>
            right
            rw [length_cons]
            obtain ⟨behind, rfl, shorter⟩ | rfl := escape_rest escaped
            · obtain ⟨-, rfl⟩ | short := ih found
              · rw [length_append, length_reverse, length_cons]
                omega
              · rw [length_cons] at short
                omega
            · -- Behind the quote there is only the end of the line, where no string goes on.
              cases fuel <;> cases found
          next => cases found
        next noBackslash =>
          split at found
          next => cases found
          next noControl =>
            obtain ⟨plain, rfl⟩ | shorter := ih found
            · left
              refine ⟨fun d mem => ?_, by rw [reverse_cons, append_assoc]; rfl⟩
              obtain rfl | later := mem_cons.mp mem
              · simp [standsForItself, noQuote, noBackslash, noControl]
              · exact plain d later
            · right
              rw [length_cons] at shorter ⊢
              omega

/-! ## Strings on several lines -/

def closingQuotes : List Char := ['"', '"', '"']

theorem closing_quotes (found : closing '"' done text = some (content, rest)) :
    closingQuotes <+: text := by
  rw [closing] at found
  split at found
  next enough =>
    have long : 3 ≤ (text.takeWhile (· == '"')).length := by omega
    have quotes : text.takeWhile (· == '"') =
        replicate (text.takeWhile (· == '"')).length '"' :=
      eq_replicate_iff.mpr ⟨rfl, fun c mem => eq_of_beq (all_eq_true.mp all_takeWhile c mem)⟩
    have begins := takeWhile_prefix (· == '"') (l := text)
    rw [quotes] at begins
    refine IsPrefix.trans ?_ begins
    exact prefix_replicate_iff.mpr ⟨long, rfl⟩
  next => cases found

def QuotesApart (text : List Char) : Prop := text.IsChain fun c d => c = '"' → d ≠ '"'

instance : Decidable (QuotesApart text) := inferInstanceAs (Decidable (List.IsChain _ text))

theorem QuotesApart.ofList (apart : QuotesApart text) : QuotesApart (String.ofList text).toList := by
  rwa [String.toList_ofList]

theorem QuotesApart.unclosed (apart : QuotesApart text) : ¬closingQuotes <:+: text := by
  intro closed
  have quotes := IsChain.infix apart closed
  exact (isChain_cons_cons.mp quotes).1 rfl rfl

/-- Without quotes to end it a string goes on for ever. -/
theorem multilineFrom_unclosed {fuel : Nat} (unclosed : ¬closingQuotes <:+: text) :
    multilineFrom '"' fuel done text = none := by
  induction fuel generalizing done text with
  | zero => rfl
  | succ fuel ih =>
    cases text with
    | nil => rfl
    | cons c text =>
      have later {behind : List Char} (ends : behind <:+ text) : ¬closingQuotes <:+: behind :=
        fun inside => unclosed (inside.trans (ends.trans (suffix_cons ..)).isInfix)
      rw [multilineFrom]
      split
      next ended => exact absurd (closing_quotes ended).isInfix unclosed
      next =>
        split
        next =>
          split
          next continued => exact ih (later (continuation_suffix continued))
          next =>
            split
            next escaped => exact ih (later (escape_suffix escaped))
            next => rfl
        next =>
          split
          next => exact ih (later (suffix_refl _))
          next => rfl

theorem suffix_of_append {first second : List Char} (ends : rest <:+ first ++ second) :
    rest <:+ second ∨ ∃ behind, behind <:+ first ∧ rest = behind ++ second := by
  obtain ⟨before, split⟩ := ends
  obtain ⟨behind, rfl, rfl⟩ | ⟨beyond, rfl, rfl⟩ := append_eq_append_iff.mp split
  · exact .inr ⟨behind, suffix_append _ _, rfl⟩
  · exact .inl (suffix_append _ _)

theorem length_takeWhile_quotes (text tail : List Char) :
    ((text ++ '"' :: '\n' :: tail).takeWhile (· == '"')).length ≤ text.length + 1 := by
  induction text with
  | nil => exact Nat.le_refl 1
  | cons c text ih =>
    rw [cons_append, takeWhile_cons]
    split
    next => exact Nat.succ_le_succ ih
    next => exact Nat.zero_le _

theorem multilineFrom_length {fuel : Nat} (unclosed : ¬closingQuotes <:+: '"' :: '\n' :: tail)
    (found : multilineFrom '"' fuel done (text ++ '"' :: '\n' :: tail) = some (content, rest)) :
    content.length ≤ done.length + text.length := by
  induction fuel generalizing done text with
  | zero => cases found
  | succ fuel ih =>
    cases text with
    | nil =>
      rw [nil_append, multilineFrom_unclosed unclosed] at found
      cases found
    | cons c text =>
      -- What is left behind the first character still has the quote and the line end in it.
      have bounded {done' behind : List Char} (grown : done'.length ≤ done.length + 1)
          (ends : behind <:+ text ++ '"' :: '\n' :: tail)
          (found : multilineFrom '"' fuel done' behind = some (content, rest)) :
          content.length ≤ done.length + (text.length + 1) := by
        obtain after | ⟨inside, within, rfl⟩ := suffix_of_append ends
        · have never := fun closed : closingQuotes <:+: behind =>
            unclosed (closed.trans after.isInfix)
          rw [multilineFrom_unclosed never] at found
          cases found
        · have short := ih found
          have smaller := within.length_le
          omega
      rw [length_cons]
      rw [cons_append, multilineFrom] at found
      split at found
      next ended =>
        cases found
        rw [closing] at ended
        split at ended
        next =>
          cases ended
          have quotes := length_takeWhile_quotes (c :: text) tail
          rw [cons_append, length_cons] at quotes
          rw [length_append, length_reverse, length_replicate]
          omega
        next => cases ended
      next =>
        split at found
        next =>
          split at found
          next continued =>
            exact bounded (Nat.le_succ _) (continuation_suffix continued) found
          next =>
            split at found
            next escaped => exact bounded (Nat.le_refl _) (escape_suffix escaped) found
            next => cases found
        next =>
          split at found
          next => exact bounded (Nat.le_refl _) (suffix_refl _) found
          next => cases found

/-! ## Any string -/

theorem readText_plain (plain : ∀ c ∈ text, standsForItself c = true) :
    readText ('"' :: (text ++ '"' :: '\n' :: tail)) = some (text, '\n' :: tail) := by
  have line : readLine ('"' :: (text ++ '"' :: '\n' :: tail)) = some (text, '\n' :: tail) := by
    refine basicFrom_plain plain ?_
    rw [length_append]
    omega
  cases text with
  | nil => exact line
  | cons c text =>
    have noQuote : c ≠ '"' := by
      rintro rfl
      exact absurd (plain '"' mem_cons_self) (by decide)
    unfold readText
    split
    next opened => exact absurd (cons.inj (cons.inj opened).2).1 noQuote
    next opened => exact absurd (cons.inj opened).1 (by decide)
    next => exact line

/-- What is read between quotes is the text, or it is shorter. -/
theorem readText_length (unclosed : ¬closingQuotes <:+: '"' :: '\n' :: tail)
    (found : readText ('"' :: (text ++ '"' :: '\n' :: tail)) = some (content, rest)) :
    (∀ c ∈ text, standsForItself c = true) ∨ content.length < text.length := by
  unfold readText at found
  split at found
  next opened =>
    right
    cases text with
    | nil => cases (cons.inj (cons.inj opened).2).2
    | cons c text =>
      cases text with
      | nil =>
        cases opened
        have never : ¬closingQuotes <:+: tail := fun closed =>
          unclosed (closed.trans ((suffix_cons ..).trans (suffix_cons ..)).isInfix)
        rw [dropFirstLineEnd, multilineFrom_unclosed never] at found
        cases found
      | cons d text =>
        cases opened
        change multilineFrom '"' _ [] (dropFirstLineEnd (text ++ '"' :: '\n' :: tail)) = _ at found
        obtain after | ⟨inside, within, same⟩ := suffix_of_append (dropFirstLineEnd_suffix
          (text ++ '"' :: '\n' :: tail))
        · have never := fun closed => unclosed (IsInfix.trans closed after.isInfix)
          rw [multilineFrom_unclosed never] at found
          cases found
        · rw [same] at found
          have short := multilineFrom_length unclosed found
          have smaller := within.length_le
          simp only [length_cons, length_nil] at short ⊢
          omega
  next opened => exact absurd (cons.inj opened).1 (by decide)
  next =>
    obtain ⟨plain, -⟩ | shorter := basicFrom_length found
    · exact .inl plain
    · right
      rw [length_nil] at shorter
      omega

end Formwright.Toml
