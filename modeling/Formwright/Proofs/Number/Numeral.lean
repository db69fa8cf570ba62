import Formwright.Number.Decimal
import Formwright.Proofs.Number.Decimals
import Mathlib.Data.List.TakeWhile

/-!
Numerals without an exponent. The two readers take them, and of the texts that hold no plus, no
exponent and no point at the end they take nothing else.
-/

namespace Formwright.Number

open Binary64 Text

structure Numeral where
  negative : Bool
  whole : List Char
  fraction : Option (List Char)
  wholeDigits : ∀ c ∈ whole, c.isDigit = true
  fractionDigits : ∀ places ∈ fraction, isDigits places = true
  filled : fraction = none → whole ≠ []

namespace Numeral

def places (numeral : Numeral) : List Char := numeral.fraction.getD []

def tail (numeral : Numeral) : List Char :=
  match numeral.fraction with
  | none => []
  | some places => '.' :: places

def text (numeral : Numeral) : List Char :=
  (if numeral.negative then ['-'] else []) ++ (numeral.whole ++ numeral.tail)

def integer (numeral : Numeral) : Int :=
  if numeral.negative then -(ofDigits numeral.whole : Int) else ofDigits numeral.whole

def magnitude (numeral : Numeral) : ℚ :=
  decimalValue (numeral.whole ++ numeral.places) (-(numeral.places.length : Int))

def number (numeral : Numeral) : Binary64 :=
  ofDecimal numeral.negative (numeral.whole ++ numeral.places) (0 - (numeral.places.length : Int))

variable (numeral : Numeral)

theorem isDigit_places : ∀ c ∈ numeral.places, c.isDigit = true := by
  intro c mem
  rw [places] at mem
  cases given : numeral.fraction with
  | none =>
    rw [given] at mem
    cases mem
  | some digits =>
    rw [given, Option.getD_some] at mem
    exact (isDigits_iff.mp (numeral.fractionDigits digits given)).2 c mem

theorem isDigit_digits : ∀ c ∈ numeral.whole ++ numeral.places, c.isDigit = true := by
  rw [List.forall_mem_append]
  exact ⟨numeral.wholeDigits, numeral.isDigit_places⟩

theorem rounds_number : Rounds numeral.negative numeral.magnitude numeral.number := by
  rw [number, zero_sub]
  exact rounds_ofDecimal numeral.negative numeral.isDigit_digits _

theorem tail_cases : numeral.fraction = none ∧ numeral.tail = [] ∧ numeral.places = [] ∨
    numeral.fraction = some numeral.places ∧ numeral.tail = '.' :: numeral.places ∧
      numeral.places ≠ [] := by
  rw [tail, places]
  cases given : numeral.fraction with
  | none => exact .inl ⟨rfl, rfl, rfl⟩
  | some digits =>
    exact .inr ⟨rfl, rfl, (isDigits_iff.mp (numeral.fractionDigits digits given)).1⟩

theorem mem_unsigned {c : Char} (mem : c ∈ numeral.whole ++ numeral.tail) :
    c.isDigit = true ∨ c = '.' := by
  obtain ⟨-, last, -⟩ | ⟨-, last, -⟩ := numeral.tail_cases
  · rw [last, List.append_nil] at mem
    exact .inl (numeral.wholeDigits c mem)
  · rw [last, List.mem_append, List.mem_cons] at mem
    obtain whole | point | place := mem
    · exact .inl (numeral.wholeDigits c whole)
    · exact .inr point
    · exact .inl (numeral.isDigit_places c place)

theorem mem_text {c : Char} (mem : c ∈ numeral.text) : c.isDigit = true ∨ c = '-' ∨ c = '.' := by
  rw [text, List.mem_append] at mem
  obtain sign | unsigned := mem
  · split at sign
    · exact .inr (.inl (List.mem_singleton.mp sign))
    · cases sign
  · exact (numeral.mem_unsigned unsigned).imp_right .inr

/-! ## Reading -/

theorem unsigned_plain {c : Char} (mem : c ∈ numeral.whole ++ numeral.tail) :
    c ≠ '-' ∧ c ≠ '+' := by
  obtain digit | point := numeral.mem_unsigned mem
  · constructor <;> rintro rfl <;> cases digit
  · constructor <;> rintro rfl <;> cases point

theorem splitSign_text :
    splitSign numeral.text = (numeral.negative, numeral.whole ++ numeral.tail) := by
  have plain {c : Char} := numeral.unsigned_plain (c := c)
  rw [text]
  generalize numeral.whole ++ numeral.tail = unsigned at *
  cases numeral.negative with
  | true => rfl
  | false =>
    rw [if_neg Bool.false_ne_true, List.nil_append, splitSign.eq_def]
    split
    next => exact ((plain List.mem_cons_self).1 rfl).elim
    next => exact ((plain List.mem_cons_self).2 rfl).elim
    next => rfl

theorem readInteger_text (noPoint : numeral.fraction = none) :
    readInteger numeral.text = some numeral.integer := by
  have noTail : numeral.tail = [] := by rw [tail, noPoint]
  have digits : isDigits numeral.whole = true :=
    isDigits_iff.mpr ⟨numeral.filled noPoint, numeral.wholeDigits⟩
  rw [readInteger, splitSign_text, noTail, List.append_nil]
  dsimp only
  rw [if_pos digits, integer]

theorem readUnsigned_unsigned :
    readUnsigned numeral.negative (numeral.whole ++ numeral.tail) = some numeral.number := by
  have stop : numeral.tail.takeWhile Char.isDigit = [] ∧
      numeral.tail.dropWhile Char.isDigit = numeral.tail := by
    obtain ⟨-, last, -⟩ | ⟨-, last, -⟩ := numeral.tail_cases <;> rw [last] <;> exact ⟨rfl, rfl⟩
  rw [readUnsigned, List.takeWhile_append_of_pos numeral.wholeDigits,
    List.dropWhile_append_of_pos numeral.wholeDigits, stop.1, stop.2, List.append_nil]
  obtain ⟨noPoint, last, noPlaces⟩ | ⟨-, last, filled⟩ := numeral.tail_cases
  · rw [last, number, noPlaces]
    dsimp only
    rw [if_neg (by simpa using numeral.filled noPoint)]
    rfl
  · have places := numeral.isDigit_places
    rw [last, number]
    show (if (numeral.whole.isEmpty && (numeral.places.takeWhile Char.isDigit).isEmpty) = true
      then none
      else (readExponent (numeral.places.dropWhile Char.isDigit)).map fun exponent =>
        ofDecimal numeral.negative (numeral.whole ++ numeral.places.takeWhile Char.isDigit)
          (exponent - (numeral.places.takeWhile Char.isDigit).length)) = _
    rw [List.takeWhile_eq_self_iff.mpr places, List.dropWhile_eq_nil_iff.mpr places,
      if_neg (by simp [filled])]
    rfl

theorem readBinary64_text : readBinary64 numeral.text = some numeral.number := by
  have unnamed {name : String} (letter : 'n' ∈ name.toList) :
      String.ofList ((numeral.whole ++ numeral.tail).map Char.toLower) ≠ name := by
    rintro rfl
    rw [String.toList_ofList] at letter
    obtain ⟨c, mem, lower⟩ := List.mem_map.mp letter
    obtain digit | rfl := numeral.mem_unsigned mem
    · rw [toLower_of_isDigit digit] at lower
      rw [lower] at digit
      cases digit
    · cases lower
  rw [readBinary64, splitSign_text]
  dsimp only
  rw [decide_eq_false (unnamed (by decide)), decide_eq_false (unnamed (by decide)), Bool.or_false,
    if_neg Bool.false_ne_true, if_neg (unnamed (by decide)), readUnsigned_unsigned]

end Numeral

/-! ## Texts that are read -/

structure IsBare (text : List Char) : Prop where
  plain : ∀ c ∈ text, c ∉ ['+', 'e', 'E']
  ends : text.getLast? ≠ some '.'

theorem IsBare.sign {text : List Char} (bare : IsBare text) :
    text = (if (splitSign text).1 then ['-'] else []) ++ (splitSign text).2 := by
  rw [splitSign.eq_def]
  split
  next => rfl
  next => exact absurd List.mem_cons_self (bare.plain '+' List.mem_cons_self)
  next => rfl

theorem exists_numeral_of_readInteger {text : List Char} {n : Int} (bare : IsBare text)
    (read : readInteger text = some n) :
    ∃ numeral : Numeral, numeral.text = text ∧ numeral.fraction = none ∧ numeral.integer = n := by
  have sign := bare.sign
  rw [readInteger] at read
  generalize splitSign text = signed at *
  obtain ⟨negative, digits⟩ := signed
  dsimp only at read sign
  split at read
  next isNumber =>
    obtain ⟨filled, ascii⟩ := isDigits_iff.mp isNumber
    let numeral : Numeral := ⟨negative, digits, none, ascii, nofun, fun _ => filled⟩
    refine ⟨numeral, ?_, rfl, Option.some.inj read⟩
    rw [sign]
    show _ ++ (digits ++ []) = _
    rw [List.append_nil]
  next => cases read

theorem readExponent_plain {text : List Char} {exponent : Int}
    (plain : ∀ c ∈ text, c ∉ ['+', 'e', 'E']) (read : readExponent text = some exponent) :
    text = [] := by
  cases text with
  | nil => rfl
  | cons c rest =>
    have noExponent := plain c List.mem_cons_self
    rw [readExponent, if_neg] at read
    · cases read
    · intro marks
      simp only [Bool.or_eq_true, decide_eq_true_eq] at marks
      obtain rfl | rfl := marks <;> simp at noExponent

theorem exists_numeral_of_readUnsigned {unsigned : List Char} {negative : Bool} {number : Binary64}
    (bare : IsBare unsigned) (read : readUnsigned negative unsigned = some number) :
    ∃ numeral : Numeral,
      numeral.negative = negative ∧ numeral.whole ++ numeral.tail = unsigned := by
  have parts : unsigned.takeWhile Char.isDigit ++ unsigned.dropWhile Char.isDigit = unsigned :=
    List.takeWhile_append_dropWhile
  have ascii : ∀ c ∈ unsigned.takeWhile Char.isDigit, c.isDigit = true := fun _ mem =>
    List.mem_takeWhile_imp mem
  have behind : ∀ c ∈ unsigned.dropWhile Char.isDigit, c ∉ ['+', 'e', 'E'] := fun c mem =>
    bare.plain c ((List.dropWhile_sublist _).mem mem)
  rw [readUnsigned] at read
  generalize unsigned.takeWhile Char.isDigit = whole at *
  generalize unsigned.dropWhile Char.isDigit = rest at *
  split at read
  next fraction left cut =>
    split at read
    next => cases read
    next filled =>
      obtain ⟨exponent, readRest, -⟩ := Option.map_eq_some_iff.mp read
      split at cut
      next last =>
        cases cut
        have noMore : last.dropWhile Char.isDigit = [] :=
          readExponent_plain (fun c mem => behind c
            (List.mem_cons_of_mem _ ((List.dropWhile_sublist _).mem mem))) readRest
        have places : isDigits last = true := by
          refine isDigits_iff.mpr ⟨?_, List.dropWhile_eq_nil_iff.mp noMore⟩
          rintro rfl
          exact bare.ends (by rw [← parts, List.getLast?_concat])
        refine ⟨⟨negative, whole, some last, ascii, ?_, nofun⟩, rfl, parts⟩
        rintro _ ⟨⟩
        exact places
      next =>
        cases cut
        have noMore : rest = [] := readExponent_plain behind readRest
        subst noMore
        refine ⟨⟨negative, whole, none, ascii, nofun, fun _ none => filled ?_⟩, rfl, parts⟩
        rw [none]
        rfl

theorem exists_numeral_of_readBinary64 {text : List Char} {number : Binary64} (bare : IsBare text)
    (read : readBinary64 text = some number) (finite : number.isFinite = true) :
    ∃ numeral : Numeral, numeral.text = text := by
  have sign := bare.sign
  rw [readBinary64] at read
  generalize splitSign text = signed at *
  obtain ⟨negative, unsigned⟩ := signed
  dsimp only at read sign
  have bareUnsigned : IsBare unsigned := by
    constructor
    · intro c mem
      exact bare.plain c (by rw [sign]; exact List.mem_append_right _ mem)
    · intro last
      exact bare.ends (by rw [sign, List.getLast?_append, last]; rfl)
  split at read
  next =>
    cases read
    cases finite
  next =>
    split at read
    next =>
      cases read
      cases finite
    next =>
      obtain ⟨numeral, rfl, rfl⟩ := exists_numeral_of_readUnsigned bareUnsigned read
      exact ⟨numeral, sign.symm⟩

/-! ## The text of a whole number -/

def Numeral.ofInt (n : Int) : Numeral where
  negative := n < 0
  whole := Nat.toDigits 10 n.natAbs
  fraction := none
  wholeDigits := isDigit_toDigits n.natAbs
  fractionDigits := nofun
  filled := fun _ => Nat.toDigits_ne_nil

theorem Numeral.text_ofInt (n : Int) : (Numeral.ofInt n).text = integerText n := by
  show (if decide (n < 0) then ['-'] else []) ++ (Nat.toDigits 10 n.natAbs ++ []) = integerText n
  rw [integerText, List.append_nil]
  by_cases below : n < 0
  · rw [decide_eq_true below, if_pos rfl, if_pos below]
    rfl
  · rw [decide_eq_false below, if_neg Bool.false_ne_true, if_neg below]
    rfl

theorem Numeral.integer_ofInt (n : Int) : (Numeral.ofInt n).integer = n := by
  show (if decide (n < 0) then -(ofDigits (Nat.toDigits 10 n.natAbs) : Int)
    else ofDigits (Nat.toDigits 10 n.natAbs)) = n
  rw [ofDigits_toDigits]
  split
  next below =>
    have negative := of_decide_eq_true below
    omega
  next notBelow =>
    have nonneg := of_decide_eq_false (Bool.eq_false_iff.mpr notBelow)
    omega

end Formwright.Number
