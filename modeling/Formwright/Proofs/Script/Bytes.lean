import Formwright.Proofs.Script.Lexer
import Formwright.Proofs.Text.Blanks
import Formwright.Proofs.Text.Utf8

/-!
The search for the end of a block over the bytes of a script. Every character that the search looks
for is a byte of its own, and the bytes of other characters lead it nowhere, so that it finds the
same brace as over the characters.
-/

namespace Formwright.Script

open Text

def encodedChar (c : Char) : List Char :=
  (String.utf8EncodeChar c).map fun byte => Char.ofNat byte.toNat

def encoded (text : List Char) : List Char := text.flatMap encodedChar

def Foreign (c : Char) : Prop := 128 ≤ c.toNat

theorem Foreign.ne {c a : Char} (foreign : Foreign c) (ascii : a.toNat < 128) : c ≠ a := by
  rintro rfl
  exact absurd ascii (Nat.not_lt.mpr foreign)

theorem foreign_byte {byte : UInt8} (high : 128 ≤ byte.toNat) :
    Foreign (Char.ofNat byte.toNat) := by
  have valid : byte.toNat.isValidChar := .inl (by have := byte.toNat_lt; omega)
  rw [Char.ofNat, dif_pos valid]
  exact high

/-- A character is one byte, which is its code, or all its bytes are beyond ASCII as it is. -/
theorem encodedChar_cases (c : Char) :
    encodedChar c = [c] ∨
      Foreign c ∧ encodedChar c ≠ [] ∧ ∀ byte ∈ encodedChar c, Foreign byte := by
  have code : c.val.toNat = c.toNat := rfl
  unfold encodedChar String.utf8EncodeChar
  dsimp only
  rw [code]
  split
  next small =>
    have byte : (UInt8.ofNat c.toNat).toNat = c.toNat := by
      rw [UInt8.toNat_ofNat', Nat.mod_eq_of_lt (by omega)]
    left
    rw [List.map_singleton, byte, Char.ofNat_toNat]
  next large =>
    refine .inr ⟨by unfold Foreign; omega, ?_, ?_⟩
    · split_ifs <;> exact List.cons_ne_nil _ _
    · refine List.forall_mem_map.mpr fun byte mem => foreign_byte ?_
      revert byte
      split_ifs <;> simp <;> omega

theorem encoded_append (first second : List Char) :
    encoded (first ++ second) = encoded first ++ encoded second := List.flatMap_append

theorem length_encoded (text : List Char) : (encoded text).length = encodedSize text := by
  induction text with
  | nil => rfl
  | cons c rest ih =>
    have first : (encodedChar c).length = c.utf8Size := by
      rw [encodedChar, List.length_map, String.length_utf8EncodeChar]
    rw [encoded, List.flatMap_cons, List.length_append, first, encodedSize, ← ih, encoded]

namespace Mode

def plain : Mode → Mode
  | slash => code
  | escape quote => string quote
  | star => blockComment
  | mode => mode

theorem plain_plain (mode : Mode) : mode.plain.plain = mode.plain := by
  cases mode <;> rfl

theorem next_foreign {c : Char} (foreign : Foreign c) (mode : Mode) :
    mode.next c = mode.plain := by
  have noSlash : c ≠ '/' := foreign.ne (by decide)
  have noStar : c ≠ '*' := foreign.ne (by decide)
  have noEscape : c ≠ '\\' := foreign.ne (by decide)
  have noFeed : c ≠ '\n' := foreign.ne (by decide)
  have ascii : ∀ quote : Char, isQuote quote = true → quote.toNat < 128 := by
    intro quote quoted
    simp only [isQuote, Bool.or_eq_true, decide_eq_true_eq] at quoted
    obtain (rfl | rfl) | rfl := quoted <;> decide
  have noQuote : ¬isQuote c = true := fun quoted => absurd rfl (foreign.ne (ascii c quoted))
  cases mode with
  | string quote =>
    have inside : c ≠ quote.val := foreign.ne (ascii quote.val quote.property)
    rw [next, if_neg inside, if_neg noEscape]
    rfl
  | _ => simp only [next, plain, ofCode_plain noQuote noSlash, noSlash, noStar, noFeed, if_false]

theorem after_foreign {bytes : List Char} (filled : bytes ≠ [])
    (foreign : ∀ byte ∈ bytes, Foreign byte) (mode : Mode) : mode.after bytes = mode.plain := by
  induction bytes generalizing mode with
  | nil => exact absurd rfl filled
  | cons byte bytes ih =>
    rw [List.forall_mem_cons] at foreign
    rw [after_cons, next_foreign foreign.1]
    cases bytes with
    | nil => rfl
    | cons next bytes => rw [ih (List.cons_ne_nil _ _) foreign.2, plain_plain]

theorem braces_foreign {bytes : List Char} (foreign : ∀ byte ∈ bytes, Foreign byte)
    (mode : Mode) : mode.braces bytes = [] := by
  induction bytes generalizing mode with
  | nil => rfl
  | cons byte bytes ih =>
    rw [List.forall_mem_cons] at foreign
    have noOpen : byte ≠ '{' := foreign.1.ne (by decide)
    have noClose : byte ≠ '}' := foreign.1.ne (by decide)
    rw [braces_other (fun brace => noOpen brace.2) (fun brace => noClose brace.2),
      ih foreign.2]

/-- The bytes of a character are passed like the character. -/
theorem closing_foreign {c : Char} (foreign : Foreign c) {bytes : List Char} (filled : bytes ≠ [])
    (all : ∀ byte ∈ bytes, Foreign byte) (mode : Mode) (depth : Nat) (rest : List Char) :
    mode.closing depth (bytes ++ rest) = (mode.next c).closing depth rest := by
  rw [closing_append, braces_foreign all, nesting, after_foreign filled all, next_foreign foreign]

theorem closing_encoded (mode : Mode) (depth : Nat) (text : List Char) :
    mode.closing depth (encoded text) = (mode.closing depth text).map encoded := by
  induction text generalizing mode depth with
  | nil => rfl
  | cons c rest ih =>
    obtain single | ⟨foreign, filled, all⟩ := encodedChar_cases c
    · have whole : encoded (c :: rest) = c :: encoded rest := by
        rw [encoded, List.flatMap_cons, single]
        rfl
      rw [whole]
      by_cases opened : mode.readsCode = true ∧ c = '{'
      · obtain ⟨reads, rfl⟩ := opened
        rw [closing_open reads, closing_open reads, ih]
      · by_cases closed : mode.readsCode = true ∧ c = '}'
        · obtain ⟨reads, rfl⟩ := closed
          rw [closing_close reads, closing_close reads]
          cases depth with
          | zero => exact congrArg some whole.symm
          | succ outer => exact ih _ outer
        · rw [closing_other opened closed, closing_other opened closed, ih]
    · have noOpen : ¬(mode.readsCode = true ∧ c = '{') := fun brace =>
        foreign.ne (by decide) brace.2
      have noClose : ¬(mode.readsCode = true ∧ c = '}') := fun brace =>
        foreign.ne (by decide) brace.2
      rw [encoded, List.flatMap_cons, closing_foreign foreign filled all,
        closing_other noOpen noClose]
      exact ih _ depth

end Mode

/-- Over bytes the search finds the first byte of the brace that it finds over characters. -/
theorem blockEnd_encoded (text : List Char) :
    blockEnd (encoded text) = (blockEnd text).map fun place => encodedSize (text.take place) := by
  rw [blockEnd, blockEnd, Mode.closingBrace_eq_closing, Mode.closingBrace_eq_closing,
    Mode.closing_encoded, Option.map_map, Option.map_map]
  cases found : Mode.code.closing 0 text with
  | none => rfl
  | some rest =>
    obtain ⟨inside, later, -, rfl, -⟩ := Mode.closing_split found
    simp only [Option.map_some, Function.comp_apply, encoded_append, List.length_append,
      Nat.add_sub_cancel, List.take_left, length_encoded]

def blockEndFrom (bytes : List Char) (start : Nat) : Option Nat :=
  (blockEnd (bytes.drop start)).map (start + ·)

theorem blockEndFrom_encoded (before text : List Char) :
    blockEndFrom (encoded (before ++ text)) (encodedSize before) =
      (blockEnd text).map fun place => encodedSize before + encodedSize (text.take place) := by
  rw [blockEndFrom, encoded_append, ← length_encoded, List.drop_left, blockEnd_encoded,
    Option.map_map, length_encoded]
  rfl

/-- From a boundary of characters the search finds the first brace that the lexer leaves behind
more braces closed than opened. The brace begins at a boundary, and what follows it is not read. -/
theorem blockEndFrom_lexed (before text : List Char) :
    (Region.code.lex text).map Prod.snd = text ∧
      (∀ place, blockEnd text = some place ↔
        IsLeast (closings 0 (Region.code.lex text)) place) ∧
      (∀ i, blockEndFrom (encoded (before ++ text)) (encodedSize before) = some i ↔
        ∃ place, IsLeast (closings 0 (Region.code.lex text)) place ∧
          i = encodedSize before + encodedSize (text.take place)) ∧
      (blockEndFrom (encoded (before ++ text)) (encodedSize before) = none ↔
        closings 0 (Region.code.lex text) = ∅) ∧
      ∀ i, blockEndFrom (encoded (before ++ text)) (encodedSize before) = some i →
        encodedSize before ≤ i ∧
          ∃ inside later, text = inside ++ '}' :: later ∧ i = encodedSize (before ++ inside) ∧
            ∀ earlier behind,
              blockEndFrom (encoded (earlier ++ (inside ++ '}' :: behind)))
                (encodedSize earlier) = some (encodedSize (earlier ++ inside)) := by
  refine ⟨Region.code.map_lex text, fun place => blockEnd_eq_some, ?_, ?_, ?_⟩
  · intro i
    rw [blockEndFrom_encoded, Option.map_eq_some_iff]
    exact exists_congr fun place => and_congr blockEnd_eq_some eq_comm
  · rw [blockEndFrom_encoded, Option.map_eq_none_iff, blockEnd_eq_none]
  · intro i found
    rw [blockEndFrom_encoded, Option.map_eq_some_iff] at found
    obtain ⟨place, found, rfl⟩ := found
    obtain ⟨inside, later, rfl, rfl, kept⟩ := blockEnd_split found
    refine ⟨Nat.le_add_right _ _, inside, later, rfl, ?_, fun earlier behind => ?_⟩
    · rw [List.take_left, encodedSize_append]
    · rw [blockEndFrom_encoded, kept behind, Option.map_some, List.take_left, encodedSize_append]

def quotedBrace : List Char := ['{', '"', '}', '"', '}', '}']

/-- Two bytes stand before the block, and the brace in the string is passed over. -/
theorem blockEndFrom_quotedBrace :
    blockEndFrom (encoded (['é'] ++ quotedBrace)) 2 = some 7 ∧
      ∃ inside later, quotedBrace = inside ++ '}' :: later ∧
        7 = encodedSize (['é'] ++ inside) := by
  obtain ⟨-, -, found, -, split⟩ := blockEndFrom_lexed ['é'] quotedBrace
  have balanced : ∀ place < 5,
      ((Region.code.lex quotedBrace).take (place + 1)).count (.code, '}') ≠
        ((Region.code.lex quotedBrace).take (place + 1)).count (.code, '{') + 0 + 1 := by
    decide
  have least : IsLeast (closings 0 (Region.code.lex quotedBrace)) 5 := by
    refine ⟨⟨by decide, by decide⟩, fun place closing => ?_⟩
    exact Nat.le_of_not_lt fun earlier => balanced place earlier closing.2
  have ends : blockEndFrom (encoded (['é'] ++ quotedBrace)) 2 = some 7 :=
    (found 7).mpr ⟨5, least, by decide⟩
  obtain ⟨-, inside, later, whole, place, -⟩ := split 7 ends
  exact ⟨ends, inside, later, whole, place⟩

end Formwright.Script
