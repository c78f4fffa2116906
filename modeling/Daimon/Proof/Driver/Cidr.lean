import Daimon.Proof.Driver.Param
import Mathlib.Data.List.TakeWhile

/-!
# The grammar of the class `Cidr`
-/

namespace Daimon.Proof.Driver
open Daimon.Broker Daimon.Driver

/-- An address or a network: no shape of the address itself, a length of the prefix in decimal digits. -/
inductive CidrText : List Char → Prop
  | bare {addr : List Char} (some : addr ≠ [])
      (chars : ∀ c ∈ addr, isAsciiHexDigit c = true ∨ c = '.' ∨ c = ':') : CidrText addr
  | network {addr length : List Char} (some : addr ≠ [])
      (chars : ∀ c ∈ addr, isAsciiHexDigit c = true ∨ c = '.' ∨ c = ':') (digit : length ≠ [])
      (digits : ∀ c ∈ length, c.isDigit = true) (bound : Nat.ofDigitChars 10 length 0 ≤ 128) :
      CidrText (addr ++ '/' :: length)

section Chars
variable {c : Char} {length : List Char}

theorem isCidrChar_iff : isCidrChar c = true ↔ (isAsciiHexDigit c = true ∨ c = '.' ∨ c = ':') ∨ c = '/' := by
  simp [isCidrChar, or_assoc]

theorem slash_not_addrChar : ¬(isAsciiHexDigit '/' = true ∨ '/' = '.' ∨ '/' = ':') := by decide

theorem plus_not_cidrChar : isCidrChar '+' = false := by decide

theorem isCidrChar_of_isDigit (digit : c.isDigit = true) : isCidrChar c = true := by
  simp [isCidrChar, isAsciiHexDigit, digit]

/-- With no sign in front, what is parsed as a `u8` of at most 128 are digits. -/
theorem parseU8_length (unsigned : ∀ c ∈ length, isCidrChar c = true) :
    (∃ n, parseU8 length = some n ∧ n ≤ 128) ↔
      length ≠ [] ∧ (∀ c ∈ length, c.isDigit = true) ∧ Nat.ofDigitChars 10 length 0 ≤ 128 := by
  have digits : parseU8 length = (parseDigits length).filter (· ≤ 255) := by
    unfold parseU8
    split
    · exact absurd (unsigned '+' List.mem_cons_self) (by simp [plus_not_cidrChar])
    · rfl
  rw [digits]
  constructor
  · rintro ⟨n, parsed, bound⟩
    obtain ⟨some, all, rfl⟩ := (parseDigits_eq_some).mp (Option.eq_some_of_filter_eq_some parsed)
    exact ⟨some, all, bound⟩
  · rintro ⟨some, all, bound⟩
    refine ⟨Nat.ofDigitChars 10 length 0, ?_, bound⟩
    rw [(parseDigits_eq_some).mpr ⟨some, all, rfl⟩, Option.filter_some]
    simp
    omega

end Chars

theorem validateChars_ok_iff {allowed : Char → Bool} {cls value : String} :
    validateChars allowed cls value = .ok () ↔ value.toList ≠ [] ∧ ∀ c ∈ value.toList, allowed c = true := by
  constructor
  · intro valid
    refine ⟨?_, validateChars_ok valid⟩
    intro empty
    rw [String.toList_eq_nil_iff.mp empty] at valid
    cases valid
  · rintro ⟨some, all⟩
    have none : value.toList.find? (fun c => !allowed c) = none := by simpa using all
    have value_ne : value ≠ "" := fun empty => some (String.toList_eq_nil_iff.mpr empty)
    simp [validateChars, value_ne, none]

section Shape
variable {value : String} {addr suffix : List Char}

theorem takeWhile_clean (clean : '/' ∉ addr) (rest : List Char) :
    (addr ++ '/' :: rest).takeWhile (· != '/') = addr ∧ (addr ++ '/' :: rest).dropWhile (· != '/') = '/' :: rest := by
  have all : ∀ c ∈ addr, (c != '/') = true := by
    intro c member
    simpa using ne_of_mem_of_not_mem member clean
  rw [List.takeWhile_append_of_pos all, List.dropWhile_append_of_pos all]
  simp

theorem cidrShape_bare (clean : '/' ∉ value.toList) : cidrShape value = true ↔ value.toList ≠ [] := by
  have all : ∀ c ∈ value.toList, (c != '/') = true := by
    intro c member
    simpa using ne_of_mem_of_not_mem member clean
  simp [cidrShape, List.takeWhile_eq_self_iff.mpr all, List.dropWhile_eq_nil_iff.mpr all]

theorem cidrShape_network (clean : '/' ∉ addr) (whole : value.toList = addr ++ '/' :: suffix) :
    cidrShape value = true ↔ addr ≠ [] ∧ ∃ n, parseU8 suffix = some n ∧ n ≤ 128 := by
  cases parsed : parseU8 suffix <;>
    simp [cidrShape, whole, (takeWhile_clean clean suffix).1, (takeWhile_clean clean suffix).2, parsed]

theorem validate_cidr_ok :
    validate value .cidr = .ok () ↔
      (value.toList ≠ [] ∧ ∀ c ∈ value.toList, isCidrChar c = true) ∧ cidrShape value = true := by
  rw [← @validateChars_ok_iff isCidrChar "Cidr" value, validate]
  cases validateChars isCidrChar "Cidr" value with
  | error e => simp
  | ok => simp

end Shape

theorem validate_eq_ok (value : String) : validate value .cidr = .ok () ↔ CidrText value.toList := by
  rw [validate_cidr_ok]
  constructor
  · rintro ⟨⟨some, chars⟩, shape⟩
    by_cases slash : '/' ∈ value.toList
    · obtain ⟨addr, suffix, whole, clean⟩ := List.eq_append_cons_of_mem slash
      obtain ⟨some, parsed⟩ := (cidrShape_network clean whole).mp shape
      rw [whole] at chars ⊢
      obtain ⟨digit, digits, bound⟩ := (parseU8_length fun c member => chars c (by simp [member])).mp parsed
      refine .network some (fun c member => ?_) digit digits bound
      exact ((isCidrChar_iff).mp (chars c (by simp [member]))).resolve_right (ne_of_mem_of_not_mem member clean)
    · refine .bare some fun c member => ?_
      exact ((isCidrChar_iff).mp (chars c member)).resolve_right (ne_of_mem_of_not_mem member slash)
  · generalize text : value.toList = cs
    intro shaped
    cases shaped with
    | bare some chars =>
        have clean : '/' ∉ cs := fun member => slash_not_addrChar (chars '/' member)
        subst text
        exact ⟨⟨some, fun c member => (isCidrChar_iff).mpr (Or.inl (chars c member))⟩, (cidrShape_bare clean).mpr some⟩
    | @network addr length some chars digit digits bound =>
        have clean : '/' ∉ addr := fun member => slash_not_addrChar (chars '/' member)
        have unsigned (c : Char) (member : c ∈ length) : isCidrChar c = true := isCidrChar_of_isDigit (digits c member)
        have parsed := (parseU8_length unsigned).mpr ⟨digit, digits, bound⟩
        refine ⟨⟨by simp, ?_⟩, (cidrShape_network clean text).mpr ⟨some, parsed⟩⟩
        intro c member
        rcases List.mem_append.mp member with inAddr | inTail
        · exact (isCidrChar_iff).mpr (Or.inl (chars c inAddr))
        rcases List.mem_cons.mp inTail with rfl | inLength
        · exact (isCidrChar_iff).mpr (Or.inr rfl)
        · exact unsigned c inLength

section Networks
variable {cs addr suffix : List Char}

theorem slash_not_mem_digits (digits : ∀ c ∈ suffix, c.isDigit = true) : '/' ∉ suffix := fun member =>
  absurd (digits '/' member) (by decide)

theorem CidrText.one_slash (shaped : CidrText cs) : cs.count '/' ≤ 1 := by
  cases shaped with
  | bare some chars =>
      rw [List.count_eq_zero_of_not_mem fun member => slash_not_addrChar (chars '/' member)]
      exact Nat.zero_le 1
  | network some chars digit digits bound =>
      rw [List.count_append, List.count_cons_self, List.count_eq_zero_of_not_mem (slash_not_mem_digits digits),
        List.count_eq_zero_of_not_mem fun member => slash_not_addrChar (chars '/' member)]

/-- Behind the slash stands a number of one octet. -/
theorem CidrText.octet (shaped : CidrText (addr ++ '/' :: suffix)) :
    suffix ≠ [] ∧ Nat.ofDigitChars 10 suffix 0 ≤ 128 := by
  have single := shaped.one_slash
  rw [List.count_append, List.count_cons_self] at single
  have clean : '/' ∉ addr := List.count_eq_zero.mp (by omega)
  generalize whole : addr ++ '/' :: suffix = cs at shaped
  cases shaped with
  | bare some chars => exact absurd (chars '/' (by simp [← whole])) slash_not_addrChar
  | @network addr' length some chars digit digits bound =>
      have clean' : '/' ∉ addr' := fun member => slash_not_addrChar (chars '/' member)
      have same := congrArg (List.dropWhile (· != '/')) whole
      rw [(takeWhile_clean clean suffix).2, (takeWhile_clean clean' length).2, List.cons_inj_right] at same
      rw [same]
      exact ⟨digit, bound⟩

end Networks

def Rejected (value : String) : Prop := ∃ e, validate value .cidr = .error e

theorem rejected_iff {value : String} : Rejected value ↔ ¬CidrText value.toList := by
  rw [← validate_eq_ok, Rejected]
  cases validate value .cidr <;> simp

theorem validate_cidr_iff (value : String) :
    (validate value .cidr = .ok () ↔ CidrText value.toList) ∧ (2 ≤ value.toList.count '/' → Rejected value) ∧
      ∀ addr suffix, value.toList = addr ++ '/' :: suffix → suffix = [] ∨ 255 < Nat.ofDigitChars 10 suffix 0 →
        Rejected value := by
  refine ⟨validate_eq_ok value, ?_, ?_⟩
  · intro slashes
    rw [rejected_iff]
    intro shaped
    have single := shaped.one_slash
    omega
  · intro addr suffix whole outside
    rw [rejected_iff, whole]
    intro shaped
    rcases outside with empty | large
    · exact shaped.octet.1 empty
    · have bound := shaped.octet.2
      omega

example : validate "::/000128" .cidr = .ok () := by decide

end Daimon.Proof.Driver
