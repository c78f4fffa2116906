import Daimon.Observer.Ingest
import Mathlib.Data.List.Basic

/-!
# The severity of an anomaly

A sample raises one anomaly, with the severity of the first threshold that it breaches. That is the highest severity if
the list has the thresholds in a good order for the sample.
-/

namespace Daimon.Proof.Observer
open Daimon.Observer

/-- What `observer.anomalies` admits, from the lowest. -/
def severities : List String := ["info", "warning", "error", "critical"]

def rank (severity : String) : Nat := severities.idxOf severity

def attempts (q : NamedQuery) (s : InstantSample) : List Breach := breaches [(q, some [s])]

structure HighestWins (q : NamedQuery) (s : InstantSample) : Prop where
  once : (attempts q s).length = if ∃ t ∈ q.thresholds, t.breaches s.value = true then 1 else 0
  breached : ∀ b ∈ attempts q s, ∀ id, ∃ t ∈ q.thresholds, t.breaches s.value = true ∧ (b.event id).severity = t.severity
  highest : ∀ b ∈ attempts q s, ∀ id, ∀ t ∈ q.thresholds, t.breaches s.value = true →
    rank t.severity ≤ rank (b.event id).severity

variable {q : NamedQuery} {s : InstantSample}

theorem attempts_eq (q : NamedQuery) (s : InstantSample) : attempts q s = (breachOf q s).toList := by
  cases found : breachOf q s <;> simp [attempts, breaches, found]

/-- What a cycle attempts is what its samples attempt, one after another. -/
theorem breaches_eq (polled : List (NamedQuery × Option (List InstantSample))) :
    breaches polled = polled.flatMap fun p => (p.2.getD []).flatMap (attempts p.1) := by
  refine List.flatMap_congr fun p _ => ?_
  have filtered := List.filterMap_eq_flatMap_toList (breachOf p.1) (p.2.getD [])
  exact filtered.trans (List.flatMap_congr fun s _ => (attempts_eq p.1 s).symm)

theorem breachOf_eq_some {b : Breach} : breachOf q s = some b ↔
    ∃ before t after, q.thresholds = before ++ t :: after ∧ (∀ u ∈ before, u.breaches s.value = false) ∧
      t.breaches s.value = true ∧ b = ⟨q, t, sourceIdOf q s, s.value⟩ := by
  rw [breachOf, Option.map_eq_some_iff]
  constructor
  · rintro ⟨t, first, rfl⟩
    obtain ⟨breached, before, after, split, earlier⟩ := List.find?_eq_some_iff_append.mp first
    exact ⟨before, t, after, split, by simpa using earlier, breached, rfl⟩
  · rintro ⟨before, t, after, split, earlier, breached, rfl⟩
    exact ⟨t, List.find?_eq_some_iff_append.mpr ⟨breached, before, after, split, by simpa using earlier⟩, rfl⟩

/-- Every sample that breaches a threshold raises one anomaly, the others none. The anomaly has the highest severity of
the breached thresholds exactly if none of them that comes after the first has a higher one. -/
theorem highest_severity_wins_iff (q : NamedQuery) (s : InstantSample) :
    HighestWins q s ↔ ∀ before t after, q.thresholds = before ++ t :: after →
      (∀ u ∈ before, u.breaches s.value = false) → t.breaches s.value = true →
      ∀ u ∈ after, u.breaches s.value = true → rank u.severity ≤ rank t.severity := by
  constructor
  · rintro ⟨-, -, highest⟩ before t after split earlier breached u later high
    have breach := (breachOf_eq_some).mpr ⟨before, t, after, split, earlier, breached, rfl⟩
    have raised : ⟨q, t, sourceIdOf q s, s.value⟩ ∈ attempts q s := by simp [attempts_eq, breach]
    have member : u ∈ q.thresholds := split ▸ List.mem_append_right _ (List.mem_cons_of_mem _ later)
    exact highest _ raised 0 u member high
  · intro ordered
    cases breach : breachOf q s with
    | none =>
        have quiet := List.find?_eq_none.mp (Option.map_eq_none_iff.mp breach)
        have unbreached : ¬ ∃ t ∈ q.thresholds, t.breaches s.value = true := fun ⟨t, member, breached⟩ =>
          quiet t member breached
        have unraised : attempts q s = [] := by rw [attempts_eq, breach, Option.toList_none]
        exact ⟨by rw [unraised, if_neg unbreached, List.length_nil], by simp [unraised], by simp [unraised]⟩
    | some b =>
        obtain ⟨before, t, after, split, earlier, breached, rfl⟩ := (breachOf_eq_some).mp breach
        have member : t ∈ q.thresholds := split ▸ List.mem_append_right _ List.mem_cons_self
        have raised : attempts q s = [⟨q, t, sourceIdOf q s, s.value⟩] := by
          rw [attempts_eq, breach, Option.toList_some]
        refine ⟨by rw [raised, if_pos ⟨t, member, breached⟩, List.length_singleton], ?_, ?_⟩
        · rw [raised]
          intro b only id
          obtain rfl := List.mem_singleton.mp only
          exact ⟨t, member, breached, rfl⟩
        · rw [raised]
          intro b only id u listed high
          obtain rfl := List.mem_singleton.mp only
          rw [split] at listed
          rcases List.mem_append.mp listed with early | late
          · rw [earlier u early] at high
            cases high
          · rcases List.mem_cons.mp late with rfl | later
            · exact le_rfl
            · exact ordered before t after split earlier breached u later high

def saturated : InstantSample := ⟨.object [("instance", .string "node-1:9100")], .finite 99⟩

/-- The first query of the library has its warning before its critical threshold. -/
theorem saturated_cpu_warns :
    ∃ q ∈ NamedQueryLibrary.defaultLibrary, (attempts q saturated).map (fun b => (b.event 0).severity) = ["warning"] ∧
      (∃ t ∈ q.thresholds, t.severity = "critical" ∧ t.breaches saturated.value = true) ∧ ¬ HighestWins q saturated := by
  refine ⟨_, List.mem_cons_self, by decide +kernel,
    ⟨_, List.mem_cons_of_mem _ List.mem_cons_self, rfl, by decide +kernel⟩, fun wins => ?_⟩
  have low := wins.highest _ (List.mem_of_mem_head? rfl) 0 _ (List.mem_cons_of_mem _ List.mem_cons_self) (by decide +kernel)
  revert low
  decide +kernel

end Daimon.Proof.Observer
