import Formwright.Markup.Expansion
import Formwright.Proofs.Text.Reading
import Formwright.Script.Block
import Formwright.Text.Quotation

/-!
Literals read back. The reader knows every escape of a JSON string, also those that are never
written.
-/

namespace Formwright.Text

open Markup (hexValue)

def readUnit : List Char → Option (Nat × List Char)
  | a :: b :: c :: d :: rest =>
    match hexValue a, hexValue b, hexValue c, hexValue d with
    | some a, some b, some c, some d => some (((a * 16 + b) * 16 + c) * 16 + d, rest)
    | _, _, _, _ => none
  | _ => none

def readLowSurrogate (text : List Char) : Option (Nat × List Char) :=
  ((afterStart ['\\', 'u'] text).bind readUnit).filter fun unit =>
    0xDC00 ≤ unit.1 && unit.1 < 0xE000

def readCode (text : List Char) : Option (Char × List Char) :=
  match readUnit text with
  | none => none
  | some (unit, rest) =>
    if unit < 0xD800 || 0xE000 ≤ unit then some (Char.ofNat unit, rest)
    else if unit < 0xDC00 then
      (readLowSurrogate rest).map fun low =>
        (Char.ofNat (0x10000 + (unit - 0xD800) * 0x400 + (low.1 - 0xDC00)), low.2)
    else none

def shortEscapes : List (Char × Char) :=
  [('"', '"'), ('\\', '\\'), ('/', '/'), ('b', '\x08'), ('f', '\x0c'), ('n', '\n'), ('r', '\r'),
    ('t', '\t')]

def readCharacter : List Char → Option (Char × List Char)
  | '\\' :: 'u' :: rest => readCode rest
  | '\\' :: c :: rest => (shortEscapes.lookup c).map (·, rest)
  | c :: rest => if c = '\\' || c = '"' || c.toNat < 32 then none else some (c, rest)
  | [] => none

theorem length_readUnit {text rest : List Char} {unit : Nat}
    (found : readUnit text = some (unit, rest)) : rest.length < text.length := by
  unfold readUnit at found
  split at found
  · split at found
    · cases found
      simp only [List.length_cons]
      omega
    · cases found
  · cases found

theorem length_readCode {text rest : List Char} {c : Char}
    (found : readCode text = some (c, rest)) : rest.length < text.length := by
  rw [readCode] at found
  split at found
  · cases found
  next unit later read =>
    have shorter := length_readUnit read
    split at found
    · cases found
      exact shorter
    · split at found
      · obtain ⟨low, second, same⟩ := Option.map_eq_some_iff.mp found
        obtain ⟨marked, _⟩ := Option.filter_eq_some_iff.mp second
        obtain ⟨behind, mark, read⟩ := Option.bind_eq_some_iff.mp marked
        have lower : low.2.length < behind.length := length_readUnit read
        have upper : later.length = 2 + behind.length := by
          rw [append_of_afterStart mark, List.length_append]
          rfl
        have same : low.2 = rest := congrArg Prod.snd same
        rw [← same]
        omega
      · cases found

theorem length_readCharacter {text rest : List Char} {c : Char}
    (found : readCharacter text = some (c, rest)) : rest.length < text.length := by
  unfold readCharacter at found
  split at found
  next later =>
    have shorter := length_readCode found
    simp only [List.length_cons]
    omega
  next d later _ =>
    obtain ⟨meaning, _, same⟩ := Option.map_eq_some_iff.mp found
    cases same
    simp only [List.length_cons]
    omega
  next d later _ _ =>
    split at found
    · cases found
    · cases found
      exact Nat.lt_succ_self _
  · cases found

def readInside (text : List Char) : Option (List Char × List Char) :=
  match text with
  | '"' :: rest => some ([], rest)
  | text =>
    match _found : readCharacter text with
    | some (c, later) => (readInside later).map fun read => (c :: read.1, read.2)
    | none => none
termination_by text.length
decreasing_by exact length_readCharacter _found

def readLiteral : List Char → Option (List Char × List Char)
  | '"' :: rest => readInside rest
  | _ => none

theorem readInside_quote (rest : List Char) : readInside ('"' :: rest) = some ([], rest) := by
  rw [readInside]

theorem readInside_character {text later : List Char} {c : Char} (noQuote : text.head? ≠ some '"')
    (found : readCharacter text = some (c, later)) :
    readInside text = (readInside later).map fun read => (c :: read.1, read.2) := by
  rw [readInside]
  · split
    next d rest same =>
      rw [found] at same
      cases same
      rfl
    next none =>
      rw [found] at none
      cases none
  · rintro rest rfl
    exact noQuote rfl

theorem hexValue_hexDigit : ∀ n < 16, hexValue (hexDigit n) = some n := by decide

theorem plain_hexDigit : ∀ n < 16,
    hexDigit n ≠ '"' ∧ hexDigit n ≠ '\\' ∧ 32 ≤ (hexDigit n).toNat := by decide

/-- The forms of a character inside a literal. -/
theorem escapeInLiteral_cases (c : Char) :
    (∃ short, escapeInLiteral c = ['\\', short] ∧ shortEscapes.lookup short = some c ∧
      32 ≤ short.toNat) ∨
    (c.toNat < 32 ∧ escapeInLiteral c =
      ['\\', 'u', '0', '0', hexDigit (c.toNat / 16), hexDigit (c.toNat % 16)]) ∨
    (escapeInLiteral c = [c] ∧ c ≠ '"' ∧ c ≠ '\\' ∧ 32 ≤ c.toNat) := by
  have back {code : Nat} (same : c.toNat = code) : c = Char.ofNat code := by
    rw [← same, Char.ofNat_toNat]
  unfold escapeInLiteral
  split
  · exact .inl ⟨'"', rfl, by decide, by decide⟩
  · exact .inl ⟨'\\', rfl, by decide, by decide⟩
  · exact .inl ⟨'n', rfl, by decide, by decide⟩
  · exact .inl ⟨'r', rfl, by decide, by decide⟩
  · exact .inl ⟨'t', rfl, by decide, by decide⟩
  next noQuote noEscape _ _ _ =>
    split
    next backspace => exact .inl ⟨'b', rfl, by rw [back backspace]; decide, by decide⟩
    · split
      next formFeed => exact .inl ⟨'f', rfl, by rw [back formFeed]; decide, by decide⟩
      · split
        next control => exact .inr (.inl ⟨control, rfl⟩)
        next printed => exact .inr (.inr ⟨rfl, noQuote, noEscape, Nat.le_of_not_lt printed⟩)

theorem readCharacter_escaped (c : Char) (rest : List Char) :
    readCharacter (escapeInLiteral c ++ rest) = some (c, rest) := by
  obtain ⟨short, form, means, _⟩ | ⟨control, form⟩ | ⟨form, noQuote, noEscape, printed⟩ :=
    escapeInLiteral_cases c
  · have notCode : short ≠ 'u' := by
      rintro rfl
      cases means
    rw [form]
    show readCharacter ('\\' :: short :: rest) = _
    rw [readCharacter, means, Option.map_some]
    exact notCode
  · have high := hexValue_hexDigit (c.toNat / 16) (by omega)
    have low := hexValue_hexDigit (c.toNat % 16) (Nat.mod_lt _ (by decide))
    have zero : hexValue '0' = some 0 := by decide
    have code : ((0 * 16 + 0) * 16 + c.toNat / 16) * 16 + c.toNat % 16 = c.toNat := by omega
    have basic : (decide (c.toNat < 0xD800) || decide (0xE000 ≤ c.toNat)) = true := by
      rw [Bool.or_eq_true_iff, decide_eq_true_eq]
      exact .inl (by omega)
    rw [form]
    show readCode ('0' :: '0' :: hexDigit (c.toNat / 16) :: hexDigit (c.toNat % 16) :: rest) = _
    simp only [readCode, readUnit, zero, high, low, code, basic, if_true, Char.ofNat_toNat]
  · have plain : ¬(decide (c = '\\') || decide (c = '"') || decide (c.toNat < 32)) = true := by
      simp only [noEscape, noQuote, decide_false, Bool.false_or, decide_eq_true_eq]
      omega
    rw [form]
    show readCharacter (c :: rest) = _
    rw [readCharacter, if_neg plain]
    · exact fun _ same _ => noEscape same
    · exact fun _ _ same _ => noEscape same

theorem head_escapeInLiteral (c : Char) (rest : List Char) :
    (escapeInLiteral c ++ rest).head? ≠ some '"' := by
  obtain ⟨short, form, _⟩ | ⟨_, form⟩ | ⟨form, noQuote, _⟩ := escapeInLiteral_cases c
  · rw [form]
    simp
  · rw [form]
    simp
  · rw [form]
    exact fun same => noQuote (Option.some.inj same)

theorem readInside_escaped (text rest : List Char) :
    readInside (text.flatMap escapeInLiteral ++ '"' :: rest) = some (text, rest) := by
  induction text with
  | nil => exact readInside_quote rest
  | cons c text ih =>
    rw [List.flatMap_cons, List.append_assoc,
      readInside_character (head_escapeInLiteral c _) (readCharacter_escaped c _), ih]
    rfl

theorem quotedLiteral_append (text rest : List Char) :
    quotedLiteral text ++ rest = '"' :: (text.flatMap escapeInLiteral ++ '"' :: rest) := by
  rw [quotedLiteral, List.cons_append, List.cons_append, List.append_assoc]
  rfl

/-- A literal reads back as its text, whatever follows it. -/
theorem readLiteral_quotedLiteral (text rest : List Char) :
    readLiteral (quotedLiteral text ++ rest) = some (text, rest) := by
  rw [quotedLiteral_append, readLiteral, readInside_escaped]

theorem printed_escapeInLiteral {c d : Char} (mem : d ∈ escapeInLiteral c) : 32 ≤ d.toNat := by
  obtain ⟨short, form, _, printed⟩ | ⟨control, form⟩ | ⟨form, _, _, printed⟩ :=
    escapeInLiteral_cases c
  · rw [form, List.mem_cons, List.mem_singleton] at mem
    obtain rfl | rfl := mem
    · decide
    · exact printed
  · have high := plain_hexDigit (c.toNat / 16) (by omega)
    have low := plain_hexDigit (c.toNat % 16) (Nat.mod_lt _ (by decide))
    rw [form] at mem
    simp only [List.mem_cons, List.not_mem_nil, or_false] at mem
    obtain rfl | rfl | rfl | rfl | rfl | rfl := mem
    · decide
    · decide
    · decide
    · decide
    · exact high.2.2
    · exact low.2.2
  · rw [form, List.mem_singleton] at mem
    rw [mem]
    exact printed

/-- Controls are never written as they are. -/
theorem printed_quotedLiteral {text : List Char} {c : Char} (mem : c ∈ quotedLiteral text) :
    32 ≤ c.toNat := by
  rw [quotedLiteral, List.mem_append, List.mem_cons, List.mem_flatMap, List.mem_singleton] at mem
  obtain (rfl | ⟨d, _, escaped⟩) | rfl := mem
  · decide
  · exact printed_escapeInLiteral escaped
  · decide

section Scanned

open Script (afterString)

theorem afterString_other {quote c : Char} (noQuote : c ≠ quote) (noEscape : c ≠ '\\')
    (rest : List Char) : afterString quote (c :: rest) = afterString quote rest := by
  conv => lhs; unfold afterString
  rw [if_neg noQuote, if_neg noEscape]

theorem afterString_pair {quote : Char} (noEscape : '\\' ≠ quote) (c : Char) (rest : List Char) :
    afterString quote ('\\' :: c :: rest) = afterString quote rest := by
  rw [afterString, if_neg noEscape, if_pos rfl]

theorem afterString_escapeInLiteral (c : Char) (rest : List Char) :
    afterString '"' (escapeInLiteral c ++ rest) = afterString '"' rest := by
  obtain ⟨short, form, _⟩ | ⟨control, form⟩ | ⟨form, noQuote, noEscape, _⟩ :=
    escapeInLiteral_cases c
  · rw [form]
    exact afterString_pair (by decide) short rest
  · obtain ⟨highQuote, highEscape, _⟩ := plain_hexDigit (c.toNat / 16) (by omega)
    obtain ⟨lowQuote, lowEscape, _⟩ := plain_hexDigit (c.toNat % 16) (Nat.mod_lt _ (by decide))
    rw [form]
    show afterString '"' ('\\' :: 'u' :: '0' :: '0' :: _ :: _ :: rest) = _
    rw [afterString_pair (by decide), afterString_other (by decide) (by decide),
      afterString_other (by decide) (by decide), afterString_other highQuote highEscape,
      afterString_other lowQuote lowEscape]
  · rw [form]
    exact afterString_other noQuote noEscape rest

/-- Inside a literal no quote stands without a backslash. -/
theorem afterString_escaped (text rest : List Char) :
    afterString '"' (text.flatMap escapeInLiteral ++ '"' :: rest) = rest := by
  induction text with
  | nil =>
    show afterString '"' ('"' :: rest) = rest
    unfold afterString
    rw [if_pos rfl]
  | cons c text ih => rw [List.flatMap_cons, List.append_assoc, afterString_escapeInLiteral, ih]

end Scanned
end Formwright.Text
