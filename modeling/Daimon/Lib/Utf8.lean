import Mathlib.Data.List.Basic

/-!
# UTF-8

The bytes of a text. Decoding with `String::from_utf8_lossy`: every longest start of a character that is no character
becomes one replacement character. And which parts of a valid text are valid, for the strict `from_utf8`.
-/

namespace Daimon.Lib

def replacement : Char := Char.ofNat 0xfffd

def isContinuation (b : UInt8) : Bool := b &&& 0xc0 == 0x80

/-- Whether the second byte may follow the first in a character of three or four bytes. -/
def isSecond (b0 b1 : UInt8) : Bool :=
  if b0 == 0xe0 then 0xa0 ≤ b1 && b1 ≤ 0xbf
  else if b0 == 0xed then 0x80 ≤ b1 && b1 ≤ 0x9f
  else if b0 == 0xf0 then 0x90 ≤ b1 && b1 ≤ 0xbf
  else if b0 == 0xf4 then 0x80 ≤ b1 && b1 ≤ 0x8f
  else isContinuation b1

def bits (mask b : UInt8) : Nat := (b &&& mask).toNat

/-- The first character and how many bytes of the rest belong to it. -/
def firstLossy (b0 : UInt8) (rest : List UInt8) : Char × Nat :=
  let b1 := rest.getD 0 0
  let b2 := rest.getD 1 0
  let b3 := rest.getD 2 0
  if b0 < 0x80 then (Char.ofNat b0.toNat, 0)
  else if 0xc2 ≤ b0 && b0 ≤ 0xdf then
    if isContinuation b1 then (Char.ofNat (bits 0x1f b0 <<< 6 ||| bits 0x3f b1), 1) else (replacement, 0)
  else if 0xe0 ≤ b0 && b0 ≤ 0xef then
    if !isSecond b0 b1 then (replacement, 0)
    else if !isContinuation b2 then (replacement, 1)
    else (Char.ofNat (bits 0xf b0 <<< 12 ||| bits 0x3f b1 <<< 6 ||| bits 0x3f b2), 2)
  else if 0xf0 ≤ b0 && b0 ≤ 0xf4 then
    if !isSecond b0 b1 then (replacement, 0)
    else if !isContinuation b2 then (replacement, 1)
    else if !isContinuation b3 then (replacement, 2)
    else (Char.ofNat (bits 7 b0 <<< 18 ||| bits 0x3f b1 <<< 12 ||| bits 0x3f b2 <<< 6 ||| bits 0x3f b3), 3)
  else (replacement, 0)

/-- The characters after the bytes that belong to the last one. -/
def decodeLossy : Nat → List UInt8 → List Char
  | _, [] => []
  | taken + 1, _ :: rest => decodeLossy taken rest
  | 0, b :: rest => (firstLossy b rest).1 :: decodeLossy (firstLossy b rest).2 rest

def fromUtf8Lossy (bytes : List UInt8) : String := String.ofList (decodeLossy 0 bytes)

example : fromUtf8Lossy [0x61, 0xc3, 0xa9, 0xe2, 0x82, 0xff, 0xe2, 0x82, 0xac] =
    String.ofList ['a', 'é', replacement, replacement, '€'] := by decide

/-! ## Encoding -/

section Bytes
variable {c : Char} {text other : String}

/-- `str::as_bytes`. -/
def bytesOf (text : String) : List UInt8 := text.toList.flatMap String.utf8EncodeChar

theorem bytesOf_injective (same : bytesOf text = bytesOf other) : text = other := by
  apply String.toByteArray_inj.mp
  rw [← String.utf8Encode_toList, ← String.utf8Encode_toList]
  exact congrArg List.toByteArray same

theorem utf8EncodeChar_ascii (ascii : c.toNat < 128) : String.utf8EncodeChar c = [UInt8.ofNat c.toNat] := by
  have one : c.utf8Size = 1 := by
    rw [Char.utf8Size_eq_one_iff]
    exact UInt32.le_iff_toNat_le.mpr (Nat.le_of_lt_succ ascii)
  rw [String.utf8EncodeChar_eq_singleton one]
  rfl

theorem ofNat_high (x : Nat) {k m : Nat} (positive : 0 < k) (above : 128 ≤ m) (fits : k + m ≤ 256) :
    0x80 ≤ UInt8.ofNat (x % k + m) := by
  have digit := Nat.mod_lt x positive
  rw [UInt8.le_iff_toNat_le, UInt8.toNat_ofNat_of_lt' (by simp [UInt8.size]; omega)]
  exact Nat.le_trans above (Nat.le_add_left m (x % k))

/-- No byte of a character outside of ASCII is an ASCII byte. -/
theorem high_of_mem_utf8EncodeChar (wide : 128 ≤ c.toNat) {b : UInt8} (member : b ∈ String.utf8EncodeChar c) :
    0x80 ≤ b := by
  have narrow : ¬ c.val.toNat ≤ 127 := Nat.not_le.mpr wide
  simp only [String.utf8EncodeChar, if_neg narrow] at member
  split_ifs at member <;> simp only [List.mem_cons, List.not_mem_nil, or_false] at member
  · rcases member with rfl | rfl <;> exact ofNat_high _ (by decide) (by decide) (by decide)
  · rcases member with rfl | rfl | rfl <;> exact ofNat_high _ (by decide) (by decide) (by decide)
  · rcases member with rfl | rfl | rfl | rfl <;> exact ofNat_high _ (by decide) (by decide) (by decide)

theorem bytesOf_ascii (ascii : ∀ c ∈ text.toList, c.toNat < 128) :
    bytesOf text = text.toList.map fun c => UInt8.ofNat c.toNat := by
  rw [bytesOf, List.map_eq_flatMap]
  apply List.flatMap_congr
  intro c member
  exact utf8EncodeChar_ascii (ascii c member)

end Bytes

/-! ## Valid parts -/

section Strict

theorem fromUTF8_eq_some {bytes : ByteArray} {text : String} :
    String.fromUTF8? bytes = some text ↔ text.toByteArray = bytes := by
  unfold String.fromUTF8?
  split_ifs with valid
  · constructor
    · rintro ⟨⟩
      rfl
    · rintro rfl
      rfl
  · constructor
    · exact nofun
    · rintro rfl
      exact absurd text.isValidUTF8 valid

theorem fromUTF8_append {bytes more : ByteArray} {text after : String} (front : String.fromUTF8? bytes = some text)
    (back : String.fromUTF8? more = some after) : String.fromUTF8? (bytes ++ more) = some (text ++ after) := by
  rw [fromUTF8_eq_some] at front back ⊢
  rw [String.toByteArray_append, front, back]

theorem isValidUTF8_of_encode_append {cs : List Char} {more : ByteArray} (valid : (cs.utf8Encode ++ more).IsValidUTF8) :
    more.IsValidUTF8 := by
  induction cs with
  | nil => simpa using valid
  | cons c cs ih =>
      rw [List.utf8Encode_cons, ByteArray.append_assoc, ByteArray.isValidUTF8_utf8Encode_singleton_append_iff] at valid
      exact ih valid

/-- What follows a valid part of a valid text is valid. -/
theorem fromUTF8_split {bytes more : ByteArray} {text whole : String} (front : String.fromUTF8? bytes = some text)
    (all : String.fromUTF8? (bytes ++ more) = some whole) :
    ∃ after, String.fromUTF8? more = some after ∧ whole = text ++ after := by
  have encoded : text.toList.utf8Encode = bytes := by
    rw [String.utf8Encode_toList]
    exact (fromUTF8_eq_some).mp front
  have valid : (text.toList.utf8Encode ++ more).IsValidUTF8 := by
    rw [encoded, ← (fromUTF8_eq_some).mp all]
    exact whole.isValidUTF8
  refine ⟨String.fromUTF8 more (isValidUTF8_of_encode_append valid), (fromUTF8_eq_some).mpr rfl, ?_⟩
  have both := fromUTF8_append front ((fromUTF8_eq_some).mpr rfl :
    String.fromUTF8? more = some (String.fromUTF8 more (isValidUTF8_of_encode_append valid)))
  exact Option.some.inj (all.symm.trans both)

end Strict

end Daimon.Lib
