import Mathlib.Algebra.Order.Floor.Div
import Mathlib.Data.List.Basic

/-!
# Pages of a list
-/

namespace Daimon.Lib

section Pages
variable {α : Type*} {size : Nat} {xs : List α} {p : Nat}

/-- The page `p` of a list that is cut into pages of one size. -/
def pageOf (size : Nat) (xs : List α) (p : Nat) : List α := (xs.drop (p * size)).take size

theorem pageOf_zero (size : Nat) (xs : List α) : pageOf size xs 0 = xs.take size := by simp [pageOf]

theorem pageOf_succ (size : Nat) (xs : List α) (p : Nat) : pageOf size xs (p + 1) = pageOf size (xs.drop size) p := by
  rw [pageOf, pageOf, List.drop_drop, Nat.succ_mul, Nat.add_comm]

theorem flatten_pageOf (size : Nat) (xs : List α) (n : Nat) :
    ((List.range n).map (pageOf size xs)).flatten = xs.take (n * size) := by
  induction n generalizing xs with
  | zero => simp
  | succ n ih =>
      have later : (pageOf size xs) ∘ Nat.succ = pageOf size (xs.drop size) := by
        funext p
        exact pageOf_succ size xs p
      rw [List.range_succ_eq_map, List.map_cons, List.map_map, List.flatten_cons, later, ih, pageOf_zero,
        Nat.succ_mul, Nat.add_comm, List.take_add]

theorem pageCount_le_iff (positive : 0 < size) : xs.length ⌈/⌉ size ≤ p ↔ xs.length ≤ p * size := by
  rw [ceilDiv_le_iff_le_mul positive, Nat.mul_comm]

theorem lt_pageCount_iff (positive : 0 < size) : p < xs.length ⌈/⌉ size ↔ p * size < xs.length := by
  rw [← Nat.not_le, pageCount_le_iff positive, Nat.not_le]

/-- The pages up to the last that is not empty. -/
def pagesOf (size : Nat) (xs : List α) : List (List α) := (List.range (xs.length ⌈/⌉ size)).map (pageOf size xs)

theorem flatten_pages (positive : 0 < size) (xs : List α) :
    (pagesOf size xs).flatten = xs := by
  rw [pagesOf, flatten_pageOf, List.take_of_length_le ((pageCount_le_iff positive).mp le_rfl)]

theorem length_pageOf_of_lt (positive : 0 < size) (inner : p + 1 < xs.length ⌈/⌉ size) :
    (pageOf size xs p).length = size := by
  have start := (lt_pageCount_iff positive).mp inner
  rw [Nat.succ_mul] at start
  rw [pageOf, List.length_take, List.length_drop]
  omega

theorem pageOf_ne_nil_iff (positive : 0 < size) : pageOf size xs p ≠ [] ↔ p < xs.length ⌈/⌉ size := by
  rw [lt_pageCount_iff positive, pageOf, ← List.length_pos_iff, List.length_take, List.length_drop]
  omega

theorem pageOf_eq_nil (positive : 0 < size) (beyond : xs.length ⌈/⌉ size ≤ p) : pageOf size xs p = [] := by
  apply not_not.mp
  rw [← ne_eq, pageOf_ne_nil_iff positive]
  exact Nat.not_lt.mpr beyond

theorem length_of_mem_dropLast {page : List α} (positive : 0 < size) (member : page ∈ (pagesOf size xs).dropLast) :
    page.length = size := by
  cases count : xs.length ⌈/⌉ size with
  | zero => simp [pagesOf, count] at member
  | succ n =>
      rw [pagesOf, count, List.range_succ, List.map_append, List.map_singleton, List.dropLast_concat] at member
      obtain ⟨p, inner, rfl⟩ := List.mem_map.mp member
      apply length_pageOf_of_lt positive
      rw [count]
      exact Nat.succ_lt_succ (List.mem_range.mp inner)

theorem ne_nil_of_mem_getLast? {page : List α} (positive : 0 < size) (member : page ∈ (pagesOf size xs).getLast?) :
    page ≠ [] := by
  cases count : xs.length ⌈/⌉ size with
  | zero => simp [pagesOf, count] at member
  | succ n =>
      rw [pagesOf, count, List.range_succ, List.map_append, List.map_singleton, List.getLast?_concat] at member
      obtain rfl : pageOf size xs n = page := by simpa using member
      rw [pageOf_ne_nil_iff positive, count]
      exact Nat.lt_succ_self n

end Pages

end Daimon.Lib
