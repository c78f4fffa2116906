import Daimon.Core.Capability

/-!
# Texts of UUIDs

The `uuid` crate's parser is a parameter; it reads back what `Uuid::to_string` writes.
-/

namespace Daimon.Core

structure UuidText where
  parse : String → Option Uuid
  round_trip : ∀ id : Uuid, parse id.hyphenated = some id

namespace UuidText

def hexValue (c : Char) : Option Nat :=
  if '0' ≤ c ∧ c ≤ '9' then some (c.toNat - '0'.toNat)
  else if 'a' ≤ c ∧ c ≤ 'f' then some (c.toNat - 'a'.toNat + 10)
  else if 'A' ≤ c ∧ c ≤ 'F' then some (c.toNat - 'A'.toNat + 10)
  else none

def hexNumber (text : List Char) : Option Nat :=
  text.foldlM (fun n c => (hexValue c).map (16 * n + ·)) 0

def parseHex (text : String) : Option Uuid :=
  let digits := text.toList.filter (· ≠ '-')
  if digits.length = 32 then (hexNumber digits).map (BitVec.ofNat 128) else none

theorem hexValue_digitChar : ∀ d < 16, hexValue (Nat.digitChar d) = some d ∧ Nat.digitChar d ≠ '-' := by decide

def hexDigits (n count : Nat) : List Char :=
  (List.range count).map fun i => Nat.digitChar ((n >>> (4 * (31 - i))) % 16)

theorem hexNumber_digits {n count : Nat} (fits : n < 0x100000000000000000000000000000000) (within : count ≤ 32) :
    hexNumber (hexDigits n count) = some (n >>> (4 * (32 - count))) := by
  induction count with
  | zero =>
      have none : n >>> 128 = 0 := by
        rw [Nat.shiftRight_eq_div_pow]
        exact Nat.div_eq_of_lt fits
      simp [hexDigits, hexNumber, none]
  | succ count ih =>
      have shifted : n >>> (4 * (32 - count)) = n >>> (4 * (31 - count)) / 16 := by
        have split : 4 * (32 - count) = 4 * (31 - count) + 4 := by omega
        rw [split, Nat.shiftRight_add, Nat.shiftRight_eq_div_pow _ 4]
      have digit := (hexValue_digitChar (n >>> (4 * (31 - count)) % 16) (Nat.mod_lt _ (by decide))).1
      have before := ih (by omega)
      simp only [hexNumber, hexDigits] at before
      simp only [hexNumber, hexDigits, List.range_succ, List.map_append, List.map_cons, List.map_nil,
        List.foldlM_append, before, List.foldlM_cons, List.foldlM_nil, shifted]
      simp only [Option.bind_eq_bind, Option.bind_some, digit, Option.map_some, Option.pure_def]
      have last : 31 - count = 32 - (count + 1) := by omega
      rw [last]
      congr 1
      omega

theorem hyphenated_digits (id : Uuid) : id.hyphenated.toList.filter (· ≠ '-') = hexDigits id.toNat 32 := by
  have clean : ∀ c ∈ hexDigits id.toNat 32, c ≠ '-' := by
    intro c member
    obtain ⟨i, -, rfl⟩ := List.mem_map.mp member
    exact (hexValue_digitChar _ (Nat.mod_lt _ (by decide))).2
  have part : ∀ piece : List Char, piece.Sublist (hexDigits id.toNat 32) → piece.filter (· ≠ '-') = piece := by
    intro piece sub
    exact List.filter_eq_self.mpr fun c member => by simpa using clean c (sub.subset member)
  have written : id.hyphenated.toList =
      (hexDigits id.toNat 32).take 8 ++ '-' :: ((hexDigits id.toNat 32).drop 8).take 4 ++
        '-' :: ((hexDigits id.toNat 32).drop 12).take 4 ++ '-' :: ((hexDigits id.toNat 32).drop 16).take 4 ++
        '-' :: (hexDigits id.toNat 32).drop 20 := by
    simp [Uuid.hyphenated, hexDigits]
  have taken := fun i j => part _ ((List.take_sublist i _).trans (List.drop_sublist j (hexDigits id.toNat 32)))
  have joined : ∀ i j (l : List Char), (l.drop i).take j ++ l.drop (i + j) = l.drop i := by
    intro i j l
    rw [← List.drop_drop]
    exact List.take_append_drop j (l.drop i)
  rw [written]
  simp only [List.filter_append, ne_eq, not_true_eq_false, decide_false, Bool.false_eq_true, not_false_eq_true,
    List.filter_cons_of_neg, part _ (List.take_sublist 8 _), taken, part _ (List.drop_sublist 20 _), List.append_assoc]
  rw [joined 16 4, joined 12 4, joined 8 4, List.take_append_drop]

def hex : UuidText where
  parse := parseHex
  round_trip := by
    intro id
    have digits := hyphenated_digits id
    simp only [parseHex, digits, hexNumber_digits id.isLt (Nat.le_refl 32)]
    simp [hexDigits]

end UuidText
end Daimon.Core
