import Daimon.Lib.Packing
import Daimon.Memory.Dmem
import Mathlib.Tactic.Linarith

/-!
# What a recall packs

The packed entries are the longest start of the merged ones that fits the budget entry by entry. The block that they
make has separators too, and keeps what the division by four dropped from each line.
-/

namespace Daimon.Proof.Memory
open Daimon.Memory Lib

/-! ## The loop -/

/-- The typed entries of the second reply, then all of the first, each uri once. -/
def merged (all typedPool : List DmEntry) : List DmEntry :=
  firsts DmEntry.uri ((typedPool.filter fun e => isTypedKind e.kind) ++ all)

theorem pack_eq (entries : List DmEntry) (p : Packing) : ∃ seen budgetLeft, pack entries p =
    let hits := fitting DmEntry.cost p.budgetLeft ((firsts DmEntry.uri entries).filter fun e => e.uri ∉ p.seen)
    some ⟨seen, p.packed ++ hits.map DmEntry.line, budgetLeft, p.hits + hits.length⟩ := by
  induction entries generalizing p with
  | nil => exact ⟨p.seen, p.budgetLeft, by simp [pack, firsts, fitting]⟩
  | cons e rest ih =>
      rw [filter_firsts_cons, pack]
      by_cases old : e.uri ∈ p.seen
      · rw [if_pos old, if_pos old]
        exact ih p
      · rw [if_neg old, if_neg old, fitting]
        by_cases tooMuch : p.budgetLeft < e.cost
        · refine ⟨e.uri :: p.seen, p.budgetLeft, ?_⟩
          simp [tooMuch, Nat.not_le.mpr tooMuch]
        · have fits : e.cost ≤ p.budgetLeft := Nat.not_lt.mp tooMuch
          obtain ⟨seen, budgetLeft, packed⟩ :=
            ih ⟨e.uri :: p.seen, p.packed ++ [e.line], p.budgetLeft - e.cost, p.hits + 1⟩
          refine ⟨seen, budgetLeft, ?_⟩
          simp only [tooMuch, if_false, checkedSub, fits, if_true, Option.bind_eq_bind, Option.bind_some]
          rw [packed]
          simp only [List.map_cons, List.length_cons, List.append_assoc, List.singleton_append, Option.some.injEq,
            Packing.mk.injEq, true_and]
          omega

section Recall
variable {σ : Type} {recallEntries : String → Nat → σ → Except String (List DmEntry) × σ} {userMessage : String}
  {budget : RecallBudget} {s s₁ s₂ : σ} {all typedPool : List DmEntry}

theorem preTurnRecall_eq (first : recallEntries userMessage (max budget.topK 1) s = (.ok all, s₁))
    (second : recallEntries userMessage (double (max budget.topK 1)) s₁ = (.ok typedPool, s₂)) :
    preTurnRecall recallEntries userMessage budget s =
      let hits := fitting DmEntry.cost budget.maxTokens (merged all typedPool)
      (some ⟨"\n".intercalate (hits.map DmEntry.line), false, hits.length⟩, s₂) := by
  obtain ⟨seen, budgetLeft, packed⟩ :=
    pack_eq ((typedPool.filter fun e => isTypedKind e.kind) ++ all) ⟨[], [], budget.maxTokens, 0⟩
  rw [preTurnRecall]
  simp only [first, second]
  rw [packed]
  simp [merged]

/-- When both recalls succeed the block is made of the longest start of the merged entries whose costs add up to at most
the budget, no uri stands in it twice, the hits are counted right and the budget never falls below zero. -/
theorem recall_packs (first : recallEntries userMessage (max budget.topK 1) s = (.ok all, s₁))
    (second : recallEntries userMessage (double (max budget.topK 1)) s₁ = (.ok typedPool, s₂)) :
    ∃ hits : List DmEntry, LongestStart DmEntry.cost budget.maxTokens hits (merged all typedPool) ∧
      (hits.map DmEntry.uri).Nodup ∧
      preTurnRecall recallEntries userMessage budget s =
        (some { block := "\n".intercalate (hits.map DmEntry.line), degraded := false, hits := hits.length }, s₂) := by
  have longest := longestStart_fitting DmEntry.cost budget.maxTokens (merged all typedPool)
  refine ⟨_, longest, ?_, preTurnRecall_eq first second⟩
  exact (nodup_firsts DmEntry.uri _).sublist (longest.start.sublist.map DmEntry.uri)

end Recall

/-! ## A sidecar with two notes -/

def disk : DmEntry := ⟨"m://1", "note", "disk", "full"⟩

def cable : DmEntry := ⟨"m://2", "note", "port", "down"⟩

def twoNotes (_ : String) (limit : Nat) (_ : Unit) : Except String (List DmEntry) × Unit :=
  (.ok (if limit = 6 then [disk, cable] else []), ())

def eightTokens : RecallBudget := ⟨8, 6, true⟩

theorem twoNotes_first : twoNotes "why" (max eightTokens.topK 1) () = (.ok [disk, cable], ()) := rfl

theorem twoNotes_second : twoNotes "why" (double (max eightTokens.topK 1)) () = (.ok [], ()) := rfl

theorem twoNotes_packed : ∃ hits : List DmEntry,
    LongestStart DmEntry.cost eightTokens.maxTokens hits (merged [disk, cable] []) ∧ (hits.map DmEntry.uri).Nodup ∧
    preTurnRecall twoNotes "why" eightTokens () =
      (some { block := "\n".intercalate (hits.map DmEntry.line), degraded := false, hits := hits.length }, ()) :=
  recall_packs twoNotes_first twoNotes_second

/-! ## The block against the budget -/

theorem seven_le_length_line (e : DmEntry) : 7 ≤ e.line.length := by
  simp only [DmEntry.line, String.length_append]
  have opening : "- (".length = 3 := rfl
  have closing : ") ".length = 2 := rfl
  have colon : ": ".length = 2 := rfl
  omega

theorem cost_eq (e : DmEntry) : e.cost = e.line.length / 4 := by
  have long := seven_le_length_line e
  rw [DmEntry.cost, estTokens]
  omega

def dropped (e : DmEntry) : Nat := e.line.length % 4

theorem sum_lengths (hits : List DmEntry) :
    (hits.map fun e => e.line.length).sum = 4 * (hits.map DmEntry.cost).sum + (hits.map dropped).sum := by
  induction hits with
  | nil => rfl
  | cons e hits ih =>
      simp only [List.map_cons, List.sum_cons, ih, cost_eq, dropped]
      omega

theorem length_join (lines : List String) :
    ("\n".intercalate lines).length = (lines.map String.length).sum + (lines.length - 1) := by
  induction lines with
  | nil => rfl
  | cons line lines ih =>
      cases lines with
      | nil => simp
      | cons next later =>
          rw [String.intercalate_cons_cons, String.length_append, String.length_append, ih]
          have feed : "\n".length = 1 := rfl
          simp only [List.map_cons, List.sum_cons, List.length_cons, feed]
          omega

def blockOf (hits : List DmEntry) : String := "\n".intercalate (hits.map DmEntry.line)

theorem length_blockOf (hits : List DmEntry) :
    (blockOf hits).length = 4 * (hits.map DmEntry.cost).sum + ((hits.map dropped).sum + (hits.length - 1)) := by
  rw [blockOf, length_join, List.map_map, List.length_map, ← Nat.add_assoc, ← sum_lengths]
  rfl

theorem estTokens_blockOf {hits : List DmEntry} (nonempty : hits ≠ []) :
    estTokens (blockOf hits) = (hits.map DmEntry.cost).sum + ((hits.map dropped).sum + (hits.length - 1)) / 4 := by
  obtain ⟨e, more, rfl⟩ := List.exists_cons_of_ne_nil nonempty
  have some : 1 ≤ e.cost := Nat.le_max_right _ _
  rw [estTokens, length_blockOf, List.map_cons, List.sum_cons]
  omega

theorem blockOf_ne_empty {hits : List DmEntry} (nonempty : hits ≠ []) : blockOf hits ≠ "" := by
  obtain ⟨e, more, rfl⟩ := List.exists_cons_of_ne_nil nonempty
  intro empty
  have long := seven_le_length_line e
  have length := length_blockOf (e :: more)
  rw [empty, List.map_cons, List.sum_cons, cost_eq] at length
  have none : "".length = 0 := rfl
  omega

def RespectsBudget (context : PreTurnContext) (maxTokens : Nat) : Prop :=
  context.block ≠ "" → estTokens context.block ≤ maxTokens

/-- However many of the first entries fit by their costs, what the division dropped from their lines and the separators
between them make no more tokens than the costs leave over. -/
def RoundingCovered (maxTokens : Nat) (entries : List DmEntry) : Prop :=
  ∀ hits, hits <+: entries → (hits.map DmEntry.cost).sum ≤ maxTokens →
    ((hits.map dropped).sum + (hits.length - 1)) / 4 ≤ maxTokens - (hits.map DmEntry.cost).sum

theorem sum_map_le_of_prefix {f : DmEntry → Nat} {xs ys : List DmEntry} (start : xs <+: ys) :
    (xs.map f).sum ≤ (ys.map f).sum := by
  obtain ⟨more, rfl⟩ := start
  rw [List.map_append, List.sum_append]
  exact Nat.le_add_right _ _

theorem roundingCovered_iff {maxTokens : Nat} {hits entries : List DmEntry}
    (longest : LongestStart DmEntry.cost maxTokens hits entries) :
    RoundingCovered maxTokens entries ↔ RespectsBudget ⟨blockOf hits, false, hits.length⟩ maxTokens := by
  constructor
  · intro covered visible
    have nonempty : hits ≠ [] := by
      rintro rfl
      exact visible rfl
    have within := longest.within
    have rounded := covered hits longest.start within
    show estTokens (blockOf hits) ≤ maxTokens
    rw [estTokens_blockOf nonempty]
    omega
  · intro respected shorter start within
    have inside := longest.longest shorter start within
    by_cases none : shorter = []
    · subst none
      simp
    · have nonempty : hits ≠ [] := by
        rintro rfl
        exact none (List.prefix_nil.mp inside)
      have bound : estTokens (blockOf hits) ≤ maxTokens := respected (blockOf_ne_empty nonempty)
      rw [estTokens_blockOf nonempty] at bound
      have lengths := sum_map_le_of_prefix (f := fun e => e.line.length) inside
      rw [sum_lengths, sum_lengths] at lengths
      have counts := inside.length_le
      omega

end Daimon.Proof.Memory
