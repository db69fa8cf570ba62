import Formwright.Text.Utf8
import Mathlib.Data.String.Basic
import Mathlib.Tactic.SplitIfs

/-!
The bytes of texts. Texts are ordered by their characters as they are by their bytes.
-/

namespace Formwright.Text

theorem decodeStrict_toUTF8 (text : String) : decodeStrict text.toUTF8 = some text := by
  have valid : text.toUTF8.IsValidUTF8 := text.isValidUTF8
  rw [decodeStrict, String.fromUTF8?, dif_pos valid]
  rfl

theorem decodeStrict_eq_some {bytes : ByteArray} {text : String} :
    decodeStrict bytes = some text ↔ bytes = text.toUTF8 := by
  constructor
  · intro decoded
    rw [decodeStrict, String.fromUTF8?] at decoded
    split at decoded
    next =>
      cases decoded
      rfl
    next => cases decoded
  · rintro rfl
    exact decodeStrict_toUTF8 text

def bytesOf (text : String) : List UInt8 := text.toUTF8.data.toList

theorem bytesOf_eq (text : String) : bytesOf text = text.toList.flatMap String.utf8EncodeChar := by
  have encoded : text.toUTF8 = text.toList.utf8Encode := String.utf8Encode_toList.symm
  rw [bytesOf, encoded, List.utf8Encode, List.data_toByteArray]

/-! ## Texts whose bytes are their characters -/

theorem utf8EncodeChar_of_ascii {c : Char}
    (ascii : (String.utf8EncodeChar c).all (· < 128) = true) :
    (String.utf8EncodeChar c).map (fun byte => Char.ofNat byte.toNat) = [c] := by
  have code : c.val.toNat = c.toNat := rfl
  unfold String.utf8EncodeChar at ascii ⊢
  dsimp only at ascii ⊢
  split
  next small =>
    have byte : (UInt8.ofNat c.val.toNat).toNat = c.toNat := by
      rw [UInt8.toNat_ofNat', Nat.mod_eq_of_lt (by omega), code]
    rw [List.map_singleton, byte, Char.ofNat_toNat]
  next large =>
    -- every byte of a longer sequence is at least 128
    rw [if_neg large] at ascii
    exfalso
    revert ascii
    split_ifs <;> simp [UInt8.lt_iff_toNat_lt] <;> omega

def characters (text : String) : List Char :=
  if (bytesOf text).all (· < 128) then (bytesOf text).map fun byte => Char.ofNat byte.toNat
  else text.toList

theorem toList_eq_characters (text : String) : text.toList = characters text := by
  rw [characters]
  split
  next ascii =>
    rw [bytesOf_eq] at ascii ⊢
    generalize text.toList = chars at ascii
    induction chars with
    | nil => rfl
    | cons c later ih =>
      rw [List.flatMap_cons, List.all_append, Bool.and_eq_true] at ascii
      rw [List.flatMap_cons, List.map_append, ← ih ascii.2, utf8EncodeChar_of_ascii ascii.1]
      rfl
  next => rfl

/-! ## Order -/

/-- A smaller character differs from a greater one already in its bytes, whatever comes behind. -/
theorem utf8EncodeChar_lt {c d : Char} (below : c < d) (first second : List UInt8) :
    String.utf8EncodeChar c ++ first < String.utf8EncodeChar d ++ second := by
  have codes : c.val.toNat < d.val.toNat := below
  have valid : d.val.toNat < 0x110000 := by
    obtain low | high := d.valid
    · omega
    · exact high.2
  have twice (n : Nat) : n / 4096 = n / 64 / 64 := by omega
  have thrice (n : Nat) : n / 262144 = n / 64 / 64 / 64 := by omega
  have byte (n : Nat) (small : n < 256) : (UInt8.ofNat n).toNat = n := by
    rw [UInt8.toNat_ofNat', Nat.mod_eq_of_lt small]
  unfold String.utf8EncodeChar
  dsimp only
  generalize c.val.toNat = low at codes
  generalize d.val.toNat = high at codes valid
  -- characters of different sizes differ in the first byte, others in one of their digits
  split_ifs <;>
    simp (disch := omega) only [List.cons_append, List.nil_append, List.cons_lt_cons_iff,
      UInt8.lt_iff_toNat_lt, ← UInt8.toNat_inj, byte, twice, thrice] <;>
    omega

theorem flatMap_utf8EncodeChar_lt {first second : List Char} (below : first < second) :
    first.flatMap String.utf8EncodeChar < second.flatMap String.utf8EncodeChar := by
  induction first generalizing second with
  | nil =>
    cases second with
    | nil => cases below
    | cons d later =>
      rw [List.flatMap_cons]
      cases bytes : String.utf8EncodeChar d with
      | nil => exact absurd bytes String.utf8EncodeChar_ne_nil
      | cons => exact List.nil_lt_cons _ _
  | cons c rest ih =>
    cases second with
    | nil => cases below
    | cons d later =>
      rw [List.flatMap_cons, List.flatMap_cons]
      obtain smaller | ⟨rfl, behind⟩ := List.cons_lt_cons_iff.mp below
      · exact utf8EncodeChar_lt smaller _ _
      · exact List.append_left_lt (ih behind)

theorem bytesOf_lt {first second : String} : bytesOf first < bytesOf second ↔ first < second := by
  have onward {a b : String} (below : a < b) : bytesOf a < bytesOf b := by
    rw [bytesOf_eq, bytesOf_eq]
    exact flatMap_utf8EncodeChar_lt (String.lt_iff_toList_lt.mp below)
  refine ⟨fun below => ?_, onward⟩
  obtain smaller | rfl | greater := lt_trichotomy first second
  · exact smaller
  · exact absurd below (List.lt_irrefl _)
  · exact absurd (List.lt_trans below (onward greater)) (List.lt_irrefl _)

end Formwright.Text
