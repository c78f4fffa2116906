import Mathlib.Algebra.GroupWithZero.Nat
import Mathlib.Data.List.Nodup

/-!
# Packing under a budget

The first entries of each key, and the longest start of a list whose costs fit a budget.
-/

namespace Daimon.Lib

section Firsts
variable {α κ : Type*} [DecidableEq κ] (key : α → κ)

/-- The entries before which no entry has the same key. -/
def firsts : List α → List α
  | [] => []
  | x :: xs => x :: (firsts xs).filter fun y => key y ≠ key x

theorem nodup_firsts (xs : List α) : ((firsts key xs).map key).Nodup := by
  induction xs with
  | nil => exact List.nodup_nil
  | cons x xs ih =>
      rw [firsts, List.map_cons, List.nodup_cons]
      constructor
      · simp
      · exact ih.sublist (List.filter_sublist.map key)

/-- What is left of the first entries once some keys have been seen. -/
theorem filter_firsts_cons (x : α) (xs : List α) (seen : List κ) :
    ((firsts key (x :: xs)).filter fun y => key y ∉ seen) =
      if key x ∈ seen then (firsts key xs).filter fun y => key y ∉ seen
      else x :: (firsts key xs).filter fun y => key y ∉ key x :: seen := by
  rw [firsts, List.filter_cons, List.filter_filter]
  split_ifs with fresh old old
  · simp [old] at fresh
  · congr 1
    apply List.filter_congr
    intro y _
    simp [Bool.and_comm]
  · apply List.filter_congr
    intro y _
    by_cases unseen : key y ∈ seen
    · simp [unseen]
    · have other : key y ≠ key x := fun same => unseen (same ▸ old)
      simp [unseen, other]
  · simp [old] at fresh

end Firsts

section Fitting
variable {α : Type*} (cost : α → Nat) {budget : Nat} {xs ys zs : List α}

def fitting (budget : Nat) : List α → List α
  | [] => []
  | x :: xs => if cost x ≤ budget then x :: fitting (budget - cost x) xs else []

/-- `ys` is the longest of the starts of `xs` whose costs add up to at most the budget. -/
structure LongestStart (budget : Nat) (ys xs : List α) : Prop where
  start : ys <+: xs
  within : (ys.map cost).sum ≤ budget
  longest : ∀ zs, zs <+: xs → (zs.map cost).sum ≤ budget → zs <+: ys

theorem longestStart_fitting (budget : Nat) (xs : List α) : LongestStart cost budget (fitting cost budget xs) xs := by
  induction xs generalizing budget with
  | nil => exact ⟨List.prefix_refl _, Nat.zero_le _, fun zs start _ => start⟩
  | cons x xs ih =>
      rw [fitting]
      split_ifs with fits
      · have rest := ih (budget - cost x)
        refine ⟨List.cons_prefix_cons.mpr ⟨rfl, rest.start⟩, ?_, ?_⟩
        · have within := rest.within
          rw [List.map_cons, List.sum_cons]
          omega
        · intro zs start within
          cases zs with
          | nil => exact List.nil_prefix
          | cons z zs =>
              obtain ⟨rfl, later⟩ := List.cons_prefix_cons.mp start
              rw [List.map_cons, List.sum_cons] at within
              exact List.cons_prefix_cons.mpr ⟨rfl, rest.longest zs later (by omega)⟩
      · refine ⟨List.nil_prefix, Nat.zero_le _, ?_⟩
        intro zs start within
        cases zs with
        | nil => exact List.nil_prefix
        | cons z zs =>
            obtain ⟨rfl, -⟩ := List.cons_prefix_cons.mp start
            rw [List.map_cons, List.sum_cons] at within
            omega

end Fitting

end Daimon.Lib
