import Mathlib.Data.List.Nodup

/-!
# A least-recently-used cache

A bounded map that forgets the entry that was used longest ago. What is read from it was put into it.
-/

namespace Daimon.Lib

variable {κ ν : Type*} {capacity : Nat}

structure Lru (κ ν : Type*) (capacity : Nat) where
  entries : List (κ × ν)
  distinct : (entries.map Prod.fst).Nodup
  bounded : entries.length ≤ capacity

namespace Lru

def empty : Lru κ ν capacity := ⟨[], List.nodup_nil, Nat.zero_le _⟩

variable [DecidableEq κ]

def pop (c : Lru κ ν capacity) (k : κ) : Lru κ ν capacity where
  entries := c.entries.filter fun e => e.1 ≠ k
  distinct := c.distinct.sublist (List.filter_sublist.map Prod.fst)
  bounded := Nat.le_trans (List.length_filter_le _ _) c.bounded

def peek (c : Lru κ ν capacity) (k : κ) : Option ν := (c.entries.find? fun e => e.1 = k).map Prod.snd

theorem distinct_front (c : Lru κ ν capacity) (k : κ) (v : ν) :
    (((k, v) :: (c.pop k).entries).map Prod.fst).Nodup := by
  rw [List.map_cons, List.nodup_cons]
  refine ⟨?_, (c.pop k).distinct⟩
  simp [pop]

/-- The entry goes to the front; beyond the capacity the last one is dropped. -/
def put (c : Lru κ ν capacity) (k : κ) (v : ν) : Lru κ ν capacity where
  entries := ((k, v) :: (c.pop k).entries).take capacity
  distinct := (c.distinct_front k v).sublist ((List.take_sublist _ _).map Prod.fst)
  bounded := List.length_take_le _ _

/-- The value of `k`, and the cache with its entry in front. -/
def get (c : Lru κ ν capacity) (k : κ) : Option ν × Lru κ ν capacity :=
  match c.peek k with
  | some v => (some v, c.put k v)
  | none => (none, c)

variable {c : Lru κ ν capacity} {k : κ} {v : ν} {e : κ × ν}

theorem mem_pop (member : e ∈ (c.pop k).entries) : e ∈ c.entries := (List.mem_filter.mp member).1

theorem mem_put (member : e ∈ (c.put k v).entries) : e = (k, v) ∨ e ∈ c.entries := by
  rcases List.mem_cons.mp (List.mem_of_mem_take member) with new | old
  · exact Or.inl new
  · exact Or.inr (mem_pop old)

theorem mem_of_peek (found : c.peek k = some v) : (k, v) ∈ c.entries := by
  obtain ⟨⟨k', v'⟩, first, rfl⟩ := Option.map_eq_some_iff.mp found
  obtain rfl : k' = k := by simpa using List.find?_some first
  exact List.mem_of_find?_eq_some first

theorem mem_of_get (found : (c.get k).1 = some v) : (k, v) ∈ c.entries := by
  unfold get at found
  split at found
  · cases found
    exact mem_of_peek ‹_›
  · cases found

theorem mem_get (member : e ∈ (c.get k).2.entries) : e ∈ c.entries := by
  unfold get at member
  split at member
  · rcases mem_put member with rfl | old
    · exact mem_of_peek ‹_›
    · exact old
  · exact member

end Lru
end Daimon.Lib
