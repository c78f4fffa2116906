import Daimon.Lib.Utf8

/-!
# Percent-encoding

The escapes of RFC 3986 over the bytes of a text. The reader refuses a percent sign that begins no escape.
-/

namespace Daimon.Lib.Percent

def hexValue (c : Char) : Option Nat :=
  if '0' ≤ c ∧ c ≤ '9' then some (c.toNat - '0'.toNat)
  else if 'a' ≤ c ∧ c ≤ 'f' then some (c.toNat - 'a'.toNat + 10)
  else if 'A' ≤ c ∧ c ≤ 'F' then some (c.toNat - 'A'.toNat + 10)
  else none

def upperHexDigit (n : Nat) : Char := (Nat.digitChar n).toUpper

def isUpperHexDigit (c : Char) : Bool := ('0' ≤ c && c ≤ '9') || ('A' ≤ c && c ≤ 'F')

def escape (b : UInt8) : List Char := ['%', upperHexDigit (b.toNat / 16), upperHexDigit (b.toNat % 16)]

def encode (keep : UInt8 → Bool) (bytes : List UInt8) : List Char :=
  bytes.flatMap fun b => if keep b then [Char.ofNat b.toNat] else escape b

def decode : List Char → Option (List UInt8)
  | [] => some []
  | c :: rest =>
      if c = '%' then
        match rest with
        | high :: low :: rest => do
            let high ← hexValue high
            let low ← hexValue low
            let bytes ← decode rest
            return UInt8.ofNat (16 * high + low) :: bytes
        | _ => none
      else (decode rest).map (String.utf8EncodeChar c ++ ·)

/-- A text of plain characters and of escapes with two upper-case digits. -/
inductive Escaped (plain : Char → Bool) : List Char → Prop
  | nil : Escaped plain []
  | plain {c : Char} {rest : List Char} (isPlain : plain c = true) (more : Escaped plain rest) :
      Escaped plain (c :: rest)
  | escape {high low : Char} {rest : List Char} (isHigh : isUpperHexDigit high = true)
      (isLow : isUpperHexDigit low = true) (more : Escaped plain rest) : Escaped plain ('%' :: high :: low :: rest)

theorem hexValue_upperHexDigit : ∀ n < 16, hexValue (upperHexDigit n) = some n := by decide

theorem isUpperHexDigit_upperHexDigit : ∀ n < 16, isUpperHexDigit (upperHexDigit n) = true := by decide

section Decode
variable {keep : UInt8 → Bool} {plain : Char → Bool} {bytes other : List UInt8} {b : UInt8} {c : Char}
  {cs rest : List Char}

theorem high_lt (b : UInt8) : b.toNat / 16 < 16 := Nat.div_lt_of_lt_mul b.toNat_lt

theorem low_lt (b : UInt8) : b.toNat % 16 < 16 := Nat.mod_lt _ (by decide)

theorem decode_escape (b : UInt8) (rest : List Char) : decode (escape b ++ rest) = (decode rest).map (b :: ·) := by
  have whole : UInt8.ofNat (16 * (b.toNat / 16) + b.toNat % 16) = b := by
    rw [Nat.div_add_mod, UInt8.ofNat_toNat]
  simp only [escape, List.cons_append, List.nil_append, decode, if_true, hexValue_upperHexDigit _ (high_lt b),
    hexValue_upperHexDigit _ (low_lt b), Option.bind_eq_bind, Option.bind_some, whole]
  cases decode rest <;> rfl

theorem decode_plain (other : c ≠ '%') (rest : List Char) :
    decode (c :: rest) = (decode rest).map (String.utf8EncodeChar c ++ ·) := by
  rw [decode.eq_def]
  simp [other]

theorem toNat_byte (b : UInt8) : (Char.ofNat b.toNat).toNat = b.toNat := by
  have small := b.toNat_lt
  have valid : b.toNat.isValidChar := Or.inl (by omega)
  rw [Char.ofNat, dif_pos valid]
  rfl

theorem decode_kept (ascii : b < 0x80) (other : Char.ofNat b.toNat ≠ '%') (rest : List Char) :
    decode (Char.ofNat b.toNat :: rest) = (decode rest).map (b :: ·) := by
  have small : (Char.ofNat b.toNat).toNat < 128 := by
    rw [toNat_byte]
    exact UInt8.lt_iff_toNat_lt.mp ascii
  rw [decode_plain other, utf8EncodeChar_ascii small, toNat_byte, UInt8.ofNat_toNat]
  rfl

/-- The kept bytes are those of other ASCII characters than the percent sign. -/
def Keepable (keep : UInt8 → Bool) : Prop := ∀ b, keep b = true → b < 0x80 ∧ Char.ofNat b.toNat ≠ '%'

theorem decode_encode (keepable : Keepable keep) (bytes : List UInt8) : decode (encode keep bytes) = some bytes := by
  induction bytes with
  | nil => rfl
  | cons b bytes ih =>
      rw [encode, List.flatMap_cons, ← encode]
      cases kept : keep b with
      | true =>
          obtain ⟨ascii, other⟩ := keepable b kept
          simp [decode_kept ascii other, ih]
      | false => simp [decode_escape, ih]

theorem encode_injective (keepable : Keepable keep) (same : encode keep bytes = encode keep other) : bytes = other := by
  have decoded := congrArg decode same
  rw [decode_encode keepable, decode_encode keepable] at decoded
  exact Option.some.inj decoded

theorem escaped_encode (plains : ∀ b, keep b = true → plain (Char.ofNat b.toNat) = true) (bytes : List UInt8) :
    Escaped plain (encode keep bytes) := by
  induction bytes with
  | nil => exact .nil
  | cons b bytes ih =>
      rw [encode, List.flatMap_cons, ← encode]
      cases kept : keep b with
      | true => exact .plain (plains b kept) ih
      | false =>
          exact .escape (isUpperHexDigit_upperHexDigit _ (high_lt b)) (isUpperHexDigit_upperHexDigit _ (low_lt b)) ih

theorem Escaped.mem (escaped : Escaped plain cs) (member : c ∈ cs) :
    plain c = true ∨ c = '%' ∨ isUpperHexDigit c = true := by
  induction escaped with
  | nil => cases member
  | plain isPlain more ih =>
      rcases List.mem_cons.mp member with rfl | later
      · exact Or.inl isPlain
      · exact ih later
  | escape isHigh isLow more ih =>
      rcases List.mem_cons.mp member with rfl | later
      · exact Or.inr (Or.inl rfl)
      rcases List.mem_cons.mp later with rfl | later
      · exact Or.inr (Or.inr isHigh)
      rcases List.mem_cons.mp later with rfl | later
      · exact Or.inr (Or.inr isLow)
      · exact ih later

end Decode

end Daimon.Lib.Percent
