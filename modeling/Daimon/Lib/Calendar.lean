import Mathlib.Algebra.Group.Nat.Defs
import Mathlib.Data.List.Basic

/-!
# Calendar dates

The proleptic Gregorian date of a day and the time of day of a microsecond. The count of years begins on the
first of March, so that a leap day ends its year, its four years, its century and its cycle of 400 years.
-/

namespace Daimon.Lib

structure CivilDate where
  year : Int
  month : Nat
  day : Nat
  deriving DecidableEq, Repr

def civilFromDays (days : Int) : CivilDate :=
  let cycle := (days + 719468) / 146097
  let dayOfCycle := ((days + 719468) % 146097).toNat
  let century := min (dayOfCycle / 36524) 3
  let dayOfCentury := dayOfCycle - 36524 * century
  let quad := dayOfCentury / 1461
  let dayOfQuad := dayOfCentury % 1461
  let year := min (dayOfQuad / 365) 3
  let dayOfYear := dayOfQuad - 365 * year
  let monthFromMarch := (5 * dayOfYear + 2) / 153
  let day := dayOfYear - (153 * monthFromMarch + 2) / 5 + 1
  let inJanuary := 10 ≤ monthFromMarch
  { year := 400 * cycle + 100 * century + 4 * quad + year + if inJanuary then 1 else 0
    month := if inJanuary then monthFromMarch - 9 else monthFromMarch + 3
    day }

example : civilFromDays 0 = ⟨1970, 1, 1⟩ := by decide

example : civilFromDays 11016 = ⟨2000, 2, 29⟩ := by decide

example : civilFromDays (-719162) = ⟨1, 1, 1⟩ := by decide

theorem civilFromDays_month (days : Int) : 1 ≤ (civilFromDays days).month ∧ (civilFromDays days).month ≤ 12 := by
  simp only [civilFromDays]
  split <;> omega

theorem civilFromDays_day (days : Int) : 1 ≤ (civilFromDays days).day ∧ (civilFromDays days).day ≤ 31 := by
  simp only [civilFromDays]
  omega

structure CivilTime where
  date : CivilDate
  hour : Nat
  minute : Nat
  second : Nat
  micro : Nat
  deriving DecidableEq, Repr

def civilFromMicros (micros : Int) : CivilTime :=
  let ofDay := (micros % 86400000000).toNat
  { date := civilFromDays (micros / 86400000000)
    hour := ofDay / 3600000000
    minute := ofDay / 60000000 % 60
    second := ofDay / 1000000 % 60
    micro := ofDay % 1000000 }

theorem civilFromMicros_hour (micros : Int) : (civilFromMicros micros).hour < 24 := by
  simp only [civilFromMicros]
  omega

theorem civilFromMicros_minute (micros : Int) : (civilFromMicros micros).minute < 60 := by
  simp only [civilFromMicros]
  omega

theorem civilFromMicros_second (micros : Int) : (civilFromMicros micros).second < 60 := by
  simp only [civilFromMicros]
  omega

/-! ## Decimal digits -/

def decimalDigit (n : Nat) : Char := Char.ofNat ('0'.toNat + n % 10)

def lastDigits : Nat → Nat → List Char
  | 0, _ => []
  | width + 1, n => lastDigits width (n / 10) ++ [decimalDigit n]

/-- `n` in decimal, with zeros in front up to `width` digits. -/
def zeroPad (width n : Nat) : List Char :=
  List.replicate (width - (Nat.toDigits 10 n).length) '0' ++ Nat.toDigits 10 n

theorem lastDigits_zero (width : Nat) : lastDigits width 0 = List.replicate width '0' := by
  induction width with
  | zero => rfl
  | succ width ih =>
      rw [lastDigits, Nat.zero_div, ih, List.replicate_succ']
      rfl

theorem digitChar_eq {n : Nat} (small : n < 10) : Nat.digitChar n = decimalDigit n := by
  revert small
  revert n
  decide

theorem zeroPad_eq_lastDigits (width : Nat) {n : Nat} (fits : n < 10 ^ (width + 1)) :
    zeroPad (width + 1) n = lastDigits (width + 1) n := by
  induction width generalizing n with
  | zero =>
      have digit : n < 10 := by simpa using fits
      rw [zeroPad, Nat.toDigits_of_lt_base digit, digitChar_eq digit]
      rfl
  | succ width ih =>
      rcases Nat.lt_or_ge n 10 with small | large
      · rw [zeroPad, Nat.toDigits_of_lt_base small, digitChar_eq small, lastDigits, Nat.div_eq_of_lt small,
          lastDigits_zero]
        rfl
      · have shorter : n / 10 < 10 ^ (width + 1) := by
          rw [Nat.pow_succ] at fits
          exact Nat.div_lt_of_lt_mul (by omega)
        have digit : Nat.digitChar (n % 10) = decimalDigit n := by
          rw [digitChar_eq (Nat.mod_lt n (by decide)), decimalDigit, Nat.mod_mod]
          rfl
        rw [lastDigits, ← ih shorter, zeroPad, Nat.toDigits_of_base_le (by decide) large, digit, zeroPad]
        simp

end Daimon.Lib
