/-!
Text in bytes: strict reading, and reading that puts a replacement character for what is no text.
-/

namespace Formwright.Text

def decodeStrict (bytes : ByteArray) : Option String := String.fromUTF8? bytes

/-- What may follow a first byte: the range of the second byte and the number of bytes after it. -/
def sequenceShape (lead : Nat) : Option (Nat × Nat × Nat) :=
  if 0xC2 ≤ lead && lead ≤ 0xDF then some (0x80, 0xBF, 0)
  else if lead = 0xE0 then some (0xA0, 0xBF, 1)
  else if lead = 0xED then some (0x80, 0x9F, 1)
  else if 0xE1 ≤ lead && lead ≤ 0xEF then some (0x80, 0xBF, 1)
  else if lead = 0xF0 then some (0x90, 0xBF, 2)
  else if lead = 0xF4 then some (0x80, 0x8F, 2)
  else if 0xF1 ≤ lead && lead ≤ 0xF3 then some (0x80, 0xBF, 2)
  else none

def continueSequence (count used code : Nat) : List Nat → Except Nat (Nat × Nat)
  | [] => if count = 0 then .ok (used, code) else .error used
  | byte :: rest =>
    match count with
    | 0 => .ok (used, code)
    | count + 1 =>
      if 0x80 ≤ byte && byte ≤ 0xBF then
        continueSequence count (used + 1) (code * 64 + byte % 64) rest
      else .error used

/-- The first character of non-empty bytes, and how many bytes after the lead belong to it. The
longest good start of a broken sequence becomes one replacement character. -/
def decodeNext (lead : Nat) (rest : List Nat) : Char × Nat :=
  if lead < 0x80 then (Char.ofNat lead, 0)
  else
    match sequenceShape lead, rest with
    | some (low, high, more), second :: later =>
      if low ≤ second && second ≤ high then
        let start := if more = 0 then lead % 32 else if more = 1 then lead % 16 else lead % 8
        match continueSequence more 1 (start * 64 + second % 64) later with
        | .ok (used, code) => (Char.ofNat code, used)
        | .error used => ('\uFFFD', used)
      else ('\uFFFD', 0)
    | _, _ => ('\uFFFD', 0)

def decodeAll : List Nat → List Char
  | [] => []
  | lead :: rest => (decodeNext lead rest).1 :: decodeAll (rest.drop (decodeNext lead rest).2)
termination_by bytes => bytes.length
decreasing_by simp only [List.length_drop, List.length_cons]; omega

def decodeLossy (bytes : ByteArray) : String :=
  match decodeStrict bytes with
  | some text => text
  | none => String.ofList (decodeAll (bytes.toList.map UInt8.toNat))

end Formwright.Text
