import Daimon.Driver.Param

/-!
# Validated parameters

What a value looks like that has passed the check of its class.
-/

namespace Daimon.Proof.Driver
open Daimon.Driver

theorem toOption_eq_some {ε α : Type} {x : Except ε α} {a : α} : x.toOption = some a ↔ x = .ok a := by
  cases x <;> simp [Except.toOption]

theorem validateChars_ok {allowed : Char → Bool} {cls value : String}
    (valid : validateChars allowed cls value = .ok ()) : ∀ c ∈ value.toList, allowed c = true := by
  unfold validateChars at valid
  split at valid
  · cases valid
  · split at valid
    · cases valid
    case h_2 none =>
      intro c member
      simpa using List.find?_eq_none.mp none c member

theorem parseDigits_eq_some {cs : List Char} {n : Nat} :
    parseDigits cs = some n ↔ cs ≠ [] ∧ (∀ c ∈ cs, c.isDigit = true) ∧ Nat.ofDigitChars 10 cs 0 = n := by
  rw [Nat.ofDigitChars_eq_foldl]
  unfold parseDigits
  split
  · rename_i digits
    simp only [Bool.and_eq_true, Bool.not_eq_true', List.isEmpty_eq_false_iff, List.all_eq_true] at digits
    simp [digits.1, and_iff_right digits.2]
  · rename_i other
    simp only [Bool.and_eq_true, Bool.not_eq_true', List.isEmpty_eq_false_iff, List.all_eq_true, not_and] at other
    simp only [reduceCtorEq, false_iff, not_and]
    intro some digits
    exact absurd digits (other some)

theorem parseDigits_isSome {cs : List Char} (parsed : (parseDigits cs).isSome) :
    cs ≠ [] ∧ ∀ c ∈ cs, c.isDigit = true := by
  obtain ⟨n, found⟩ := Option.isSome_iff_exists.mp parsed
  obtain ⟨nonempty, digits, _⟩ := (parseDigits_eq_some).mp found
  exact ⟨nonempty, digits⟩

/-- A value of the class: made of its characters, an integer with its sign in front, or a member. -/
def Admissible : ParamClass → String → Prop
  | .safeText, value => ∀ c ∈ value.toList, isSafeTextChar c = true
  | .cidr, value => ∀ c ∈ value.toList, isCidrChar c = true
  | .identifier, value => ∀ c ∈ value.toList, isIdentifierChar c = true
  | .int, value => ∃ sign digits, value.toList = sign ++ digits ∧
      (sign = [] ∨ sign = ['-'] ∨ sign = ['+']) ∧ digits ≠ [] ∧ ∀ c ∈ digits, c.isDigit = true
  | .enum allowed, value => value ∈ allowed

theorem parseI64_isSome {value : String} (parsed : (parseI64 value.toList).isSome) :
    Admissible .int value := by
  have digits {cs : List Char} {bound : Nat → Bool} {result : Nat → Option Int}
      (some : (((parseDigits cs).filter bound).bind result).isSome) :
      cs ≠ [] ∧ ∀ c ∈ cs, c.isDigit = true := by
    apply parseDigits_isSome
    cases found : parseDigits cs with
    | none => simp [found] at some
    | some n => rfl
  unfold parseI64 at parsed
  split at parsed
  · rename_i rest text
    rw [Option.isSome_map] at parsed
    exact ⟨['-'], rest, text, by simp, digits parsed⟩
  · rename_i rest text
    rw [Option.isSome_map] at parsed
    exact ⟨['+'], rest, text, by simp, digits parsed⟩
  · rw [Option.isSome_map] at parsed
    exact ⟨[], value.toList, rfl, by simp, digits parsed⟩

theorem validate_admissible {value : String} {cls : ParamClass} (valid : validate value cls = .ok ()) :
    Admissible cls value := by
  cases cls with
  | safeText => exact validateChars_ok valid
  | identifier => exact validateChars_ok valid
  | cidr =>
      simp only [validate] at valid
      split at valid
      · cases valid
      · rename_i chars
        exact validateChars_ok chars
  | int =>
      simp only [validate] at valid
      split at valid
      · rename_i parsed
        exact parseI64_isSome parsed
      · cases valid
  | enum allowed =>
      simp only [validate] at valid
      split at valid
      · assumption
      · cases valid

def Alphabet : ParamClass → Char → Prop
  | .safeText, c => isSafeTextChar c = true
  | .cidr, c => isCidrChar c = true
  | .identifier, c => isIdentifierChar c = true
  | .int, c => c.isDigit = true ∨ c = '-' ∨ c = '+'
  | .enum allowed, c => ∃ member ∈ allowed, c ∈ member.toList

theorem Admissible.alphabet {cls : ParamClass} {value : String} (admissible : Admissible cls value) {c : Char}
    (member : c ∈ value.toList) : Alphabet cls c := by
  cases cls with
  | safeText => exact admissible c member
  | cidr => exact admissible c member
  | identifier => exact admissible c member
  | int =>
      obtain ⟨sign, digits, text, signs, -, all⟩ := admissible
      rw [text] at member
      rcases List.mem_append.mp member with inSign | inDigits
      · rcases signs with rfl | rfl | rfl
        · cases inSign
        · exact Or.inr (Or.inl (List.mem_singleton.mp inSign))
        · exact Or.inr (Or.inr (List.mem_singleton.mp inSign))
      · exact Or.inl (all c inDigits)
  | enum allowed => exact ⟨value, admissible, member⟩

end Daimon.Proof.Driver
