import Daimon.Guard.Policy
import Mathlib.Data.List.Basic

/-!
# First match

A rule with a star stands for a prefix. The engine knows the star alone and the star after a dot, and passes over a rule
with a star after anything else: what comes later in the list decides then.
-/

namespace Daimon.Proof.Guard
open Daimon.Guard Daimon.Guard.PolicyEngine

/-- A pattern is a name, or what is before its star is a prefix of the name, or of the name with a dot after it. -/
def Matches (pattern name : String) : Prop :=
  pattern = name ∨ '*' ∈ pattern.toList.getLast? ∧
    (pattern.toList.dropLast <+: name.toList ∨ pattern.toList.dropLast = name.toList ++ ['.'])

instance (pattern name : String) : Decidable (Matches pattern name) :=
  inferInstanceAs (Decidable (_ ∨ _ ∧ (_ ∨ _)))

/-- The star comes after a character that is no dot. -/
def BareStar (pattern name : String) : Prop :=
  pattern ≠ name ∧ ∃ stem last, pattern.toList = stem ++ [last, '*'] ∧ last ≠ '.' ∧ stem ++ [last] <+: name.toList

theorem BareStar.matches {pattern name : String} (bare : BareStar pattern name) : Matches pattern name := by
  obtain ⟨-, stem, last, ends, -, below⟩ := bare
  refine .inr ⟨by simp [ends], .inl ?_⟩
  have split : pattern.toList = (stem ++ [last]) ++ ['*'] := by simp [ends]
  rw [split, List.dropLast_concat]
  exact below

/-- The verdict of the first rule that matches, and a denial without one. -/
inductive Decides (rules : List PolicyRule) (name : String) : PolicyVerdict → Prop
  | first {i : Nat} {rule : PolicyRule} (found : rules[i]? = some rule) (matched : Matches rule.capability name)
      (earlier : ∀ j < i, ∀ r, rules[j]? = some r → ¬ Matches r.capability name) :
      Decides rules name ⟨rule.decision, some i⟩
  | none (unmatched : ∀ rule ∈ rules, ¬ Matches rule.capability name) : Decides rules name ⟨.deny, none⟩

theorem Decides.earlier {rules : List PolicyRule} {name : String} {verdict : PolicyVerdict} {i : Nat}
    (decides : Decides rules name verdict) (index : verdict.ruleIndex = some i) :
    ∀ j < i, ∀ r, rules[j]? = some r → ¬ Matches r.capability name := by
  cases decides with
  | first found matched earlier =>
      obtain rfl := Option.some.inj index
      exact earlier
  | none unmatched => cases index

/-! ## Patterns -/

theorem stripSuffix_eq_some {suffix text stem : List Char} :
    stripSuffix suffix text = some stem ↔ text = stem ++ suffix := by
  unfold stripSuffix
  constructor
  · intro stripped
    split at stripped
    · rename_i ends
      obtain ⟨front, rfl⟩ := ends
      obtain rfl := Option.some.inj stripped
      simp
    · cases stripped
  · rintro rfl
    simp

theorem globMatch_iff {pattern name : String} :
    globMatch pattern name = true ↔ pattern = name ∨ pattern = "*" ∨ ∃ stem, pattern.toList = stem ++ ['.', '*'] ∧
      (name.toList = stem ∨ stem ++ ['.'] <+: name.toList) := by
  unfold globMatch
  by_cases same : pattern = name
  · simp [same]
  · rw [if_neg same]
    cases stripped : stripSuffix ".*".toList pattern.toList with
    | none =>
        have open_ : ¬ ∃ stem, pattern.toList = stem ++ ['.', '*'] ∧
            (name.toList = stem ∨ stem ++ ['.'] <+: name.toList) := by
          rintro ⟨stem, dotted, -⟩
          have found : stripSuffix ".*".toList pattern.toList = some stem := (stripSuffix_eq_some).mpr dotted
          cases stripped.symm.trans found
        simp [same, open_]
    | some stem =>
        have dotted := (stripSuffix_eq_some).mp stripped
        have long : pattern ≠ "*" := by
          rintro rfl
          have lengths := congrArg List.length dotted
          simp at lengths
        simp only [same, long, false_or, Bool.or_eq_true, decide_eq_true_eq]
        constructor
        · exact fun below => ⟨stem, dotted, below⟩
        · rintro ⟨stem', dotted', below⟩
          obtain rfl := List.append_cancel_right (dotted.symm.trans dotted')
          exact below

theorem eq_star_iff {pattern : String} : pattern = "*" ↔ pattern.toList = ['*'] := by
  rw [← String.toList_inj]
  rfl

theorem append_two_inj {xs ys : List Char} {a b c d : Char} : xs ++ [a, b] = ys ++ [c, d] ↔ xs = ys ∧ a = c ∧ b = d := by
  constructor
  · intro same
    obtain ⟨front, rest⟩ := List.append_inj' same rfl
    simp_all
  · rintro ⟨rfl, rfl, rfl⟩
    rfl

theorem globMatch_iff_matches {pattern name : String} :
    globMatch pattern name = true ↔ Matches pattern name ∧ ¬ BareStar pattern name := by
  rw [globMatch_iff, eq_star_iff]
  by_cases same : pattern = name
  · simp [same, Matches, BareStar]
  simp only [Matches, BareStar, same, false_or, ne_eq, not_false_eq_true, true_and]
  generalize pattern.toList = cs
  generalize name.toList = text
  rcases List.eq_nil_or_concat' cs with rfl | ⟨front, c, rfl⟩
  · simp
  have last : '*' ∈ (front ++ [c]).getLast? ↔ c = '*' := by simp
  rw [last, List.dropLast_concat]
  by_cases star : c = '*'
  · subst star
    rcases List.eq_nil_or_concat' front with rfl | ⟨stem, dot, rfl⟩
    · have short : ∀ s l, ['*'] ≠ s ++ [l, '*'] := fun s l long => by simpa using congrArg List.length long
      simp [short]
    · have long : stem ++ [dot, '*'] ≠ ['*'] := fun short => by simpa using congrArg List.length short
      simp only [List.append_assoc, List.cons_append, List.nil_append, append_two_inj, long, false_or]
      by_cases dotted : dot = '.'
      · subst dotted
        simp [eq_comm, or_comm]
      · have apart : stem ++ [dot] ≠ text ++ ['.'] := fun ends => dotted (by simpa using congrArg List.getLast? ends)
        simp [dotted, apart]
  · have plain : ∀ s l, front ++ [c] ≠ s ++ [l, '*'] := by
      intro s l ends
      have lasts := congrArg List.getLast? ends
      simp [star] at lasts
    have other : front ++ [c] ≠ ['*'] := by
      intro ends
      have lasts := congrArg List.getLast? ends
      simp [star] at lasts
    simp [plain, star, other]

/-! ## The list of rules -/

theorem evaluateFrom_cases (name : String) (default : Decision) (rules : List PolicyRule) (i : Nat) :
    (∃ k rule, rules[k]? = some rule ∧ globMatch rule.capability name = true ∧
      (∀ j < k, ∀ r, rules[j]? = some r → globMatch r.capability name = false) ∧
      evaluateFrom name default i rules = ⟨rule.decision, some (i + k)⟩) ∨
    (∀ rule ∈ rules, globMatch rule.capability name = false) ∧ evaluateFrom name default i rules = ⟨default, none⟩ := by
  induction rules generalizing i with
  | nil => exact .inr ⟨by simp, rfl⟩
  | cons rule rest ih =>
      by_cases matched : globMatch rule.capability name = true
      · exact .inl ⟨0, rule, rfl, matched, by simp, by simp [evaluateFrom, matched]⟩
      · have passed : evaluateFrom name default i (rule :: rest) = evaluateFrom name default (i + 1) rest := by
          simp [evaluateFrom, matched]
        rw [Bool.not_eq_true] at matched
        rw [passed]
        rcases ih (i + 1) with ⟨k, found, at_k, glob, earlier, verdict⟩ | ⟨unmatched, verdict⟩
        · refine .inl ⟨k + 1, found, by simpa using at_k, glob, ?_, by rw [verdict, Nat.add_assoc, Nat.add_comm 1]⟩
          intro j before r at_j
          cases j with
          | zero =>
              obtain rfl : rule = r := by simpa using at_j
              exact matched
          | succ j => exact earlier j (by omega) r (by simpa using at_j)
        · exact .inr ⟨by simpa [matched] using unmatched, verdict⟩

theorem evaluateFrom_append {name : String} {default : Decision} {rules : List PolicyRule} {i : Nat}
    (matched : (evaluateFrom name default i rules).ruleIndex.isSome) (more : List PolicyRule) :
    evaluateFrom name default i (rules ++ more) = evaluateFrom name default i rules := by
  induction rules generalizing i with
  | nil => cases matched
  | cons rule rest ih =>
      rw [evaluateFrom] at matched
      rw [List.cons_append, evaluateFrom, evaluateFrom]
      split
      · rfl
      · rename_i passed
        rw [if_neg passed] at matched
        exact ih matched

theorem unmatched_denied {rules : List PolicyRule} {name : String}
    (unmatched : ∀ rule ∈ rules, ¬ Matches rule.capability name) :
    (PolicyEngine.new rules).evaluate name = ⟨.deny, none⟩ := by
  rcases evaluateFrom_cases name .deny rules 0 with ⟨k, rule, at_k, glob, -, -⟩ | ⟨-, verdict⟩
  · exact absurd ((globMatch_iff_matches).mp glob).1 (unmatched rule (List.mem_of_getElem? at_k))
  · exact verdict

/-- The engine follows the documented match: on the list, on the list with more rules at its end, and on a list of which
no rule matches. -/
structure Follows (rules : List PolicyRule) (name : String) : Prop where
  decides : Decides rules name ((PolicyEngine.new rules).evaluate name)
  appended : ((PolicyEngine.new rules).evaluate name).ruleIndex.isSome →
    ∀ more, (PolicyEngine.new (rules ++ more)).evaluate name = (PolicyEngine.new rules).evaluate name
  removed : (PolicyEngine.new (rules.filter fun rule => ¬ Matches rule.capability name)).evaluate name = ⟨.deny, none⟩

/-- The engine follows the documented match exactly if no rule whose star comes after another character than a dot is
passed over before one that decides. -/
theorem policy_follows_iff (rules : List PolicyRule) (name : String) :
    Follows rules name ↔ ∀ (i : Nat) (rule : PolicyRule), rules[i]? = some rule → BareStar rule.capability name →
      ∃ j < i, ∃ r, rules[j]? = some r ∧ Matches r.capability name ∧ ¬ BareStar r.capability name := by
  have outcomes := evaluateFrom_cases name .deny rules 0
  constructor
  · rintro ⟨decides, -, -⟩ i rule at_i bare
    generalize same : (PolicyEngine.new rules).evaluate name = verdict at decides
    cases decides with
    | @first k r found matched earlier =>
        rcases outcomes with ⟨k', r', at_k, glob, -, verdict⟩ | ⟨-, verdict⟩
        · have index := congrArg PolicyVerdict.ruleIndex (verdict.symm.trans same)
          obtain rfl : k' = k := by simpa using index
          obtain rfl := Option.some.inj (found.symm.trans at_k)
          have starred := ((globMatch_iff_matches).mp glob).2
          have notBefore : ¬ i < k' := fun before => earlier i before rule at_i bare.matches
          have apart : i ≠ k' := by
            rintro rfl
            obtain rfl := Option.some.inj (found.symm.trans at_i)
            exact starred bare
          exact ⟨k', by omega, r, found, matched, starred⟩
        · have index := congrArg PolicyVerdict.ruleIndex (verdict.symm.trans same)
          cases index
    | none unmatched => exact absurd bare.matches (unmatched rule (List.mem_of_getElem? at_i))
  · intro overtaken
    have glob_of_matches {i : Nat} {rule : PolicyRule} (at_i : rules[i]? = some rule)
        (matched : Matches rule.capability name) :
        ∃ j ≤ i, ∃ r, rules[j]? = some r ∧ globMatch r.capability name = true := by
      by_cases bare : BareStar rule.capability name
      · obtain ⟨j, before, r, at_j, both⟩ := overtaken i rule at_i bare
        exact ⟨j, before.le, r, at_j, (globMatch_iff_matches).mpr both⟩
      · exact ⟨i, le_rfl, rule, at_i, (globMatch_iff_matches).mpr ⟨matched, bare⟩⟩
    refine ⟨?_, fun matched => evaluateFrom_append matched, unmatched_denied (by simp)⟩
    rcases outcomes with ⟨k, rule, at_k, glob, earlier, verdict⟩ | ⟨unmatched, verdict⟩
    · rw [Nat.zero_add] at verdict
      rw [PolicyEngine.evaluate, PolicyEngine.new, verdict]
      refine .first at_k ((globMatch_iff_matches).mp glob).1 fun j before r at_j matched => ?_
      obtain ⟨j', early, r', at_j', globbed⟩ := glob_of_matches at_j matched
      rw [earlier j' (by omega) r' at_j'] at globbed
      cases globbed
    · rw [PolicyEngine.evaluate, PolicyEngine.new, verdict]
      refine .none fun rule member matched => ?_
      obtain ⟨i, at_i⟩ := List.mem_iff_getElem?.mp member
      obtain ⟨j, -, r, at_j, globbed⟩ := glob_of_matches at_i matched
      rw [unmatched r (List.mem_of_getElem? at_j)] at globbed
      cases globbed

def bareStarRules : List PolicyRule := [⟨"vault*", .deny, none⟩, ⟨"*", .allow, none⟩]

/-- A denial with a bare star is passed over, and the next rule allows. -/
theorem vault_read_allowed :
    (PolicyEngine.new bareStarRules).evaluate "vault.read" = ⟨.allow, some 1⟩ ∧
      Decides bareStarRules "vault.read" ⟨.deny, some 0⟩ ∧
      ¬ Decides bareStarRules "vault.read" ((PolicyEngine.new bareStarRules).evaluate "vault.read") := by
  have allowed : (PolicyEngine.new bareStarRules).evaluate "vault.read" = ⟨.allow, some 1⟩ := by decide
  have denied : Matches "vault*" "vault.read" := by decide
  refine ⟨allowed, @Decides.first bareStarRules _ 0 ⟨"vault*", .deny, none⟩ rfl denied (by simp), ?_⟩
  rw [allowed]
  exact fun decides => decides.earlier rfl 0 (by omega) ⟨"vault*", .deny, none⟩ rfl denied

end Daimon.Proof.Guard
