import Mathlib.Data.List.Duplicate
import Mathlib.Order.Bounds.Defs
import Mathlib.Order.Nat

/-!
# Trails of a graph of labelled edges

Edges are followed whichever way they point. A trail uses no edge twice; a shortest walk between two nodes is one, so
the lengths of the trails to a node start at its distance.
-/

namespace Daimon.Lib
variable {κ ρ : Type*}

/-- Following `e` leads from one node to the other. -/
def Joins (e : κ × ρ × κ) (k m : κ) : Prop := e.1 = k ∧ e.2.2 = m ∨ e.1 = m ∧ e.2.2 = k

inductive Walk : κ → List (κ × ρ × κ) → κ → Prop
  | nil (k : κ) : Walk k [] k
  | cons {k m n : κ} {e : κ × ρ × κ} {es : List (κ × ρ × κ)} (joins : Joins e k m) (rest : Walk m es n) :
      Walk k (e :: es) n

variable {k m n : κ} {e : κ × ρ × κ} {es fs avail : List (κ × ρ × κ)}

theorem walk_nil : Walk k ([] : List (κ × ρ × κ)) n ↔ k = n := by
  constructor
  · rintro ⟨⟩
    rfl
  · rintro rfl
    exact .nil k

theorem walk_cons : Walk k (e :: es) n ↔ ∃ m, Joins e k m ∧ Walk m es n := by
  constructor
  · rintro ⟨⟩
    exact ⟨_, ‹_›, ‹_›⟩
  · rintro ⟨m, joins, rest⟩
    exact .cons joins rest

theorem walk_append : Walk k (es ++ fs) n ↔ ∃ m, Walk k es m ∧ Walk m fs n := by
  induction es generalizing k with
  | nil => simp [walk_nil]
  | cons e es ih =>
      simp only [List.cons_append, walk_cons, ih]
      constructor
      · rintro ⟨m, joins, l, first, second⟩
        exact ⟨l, ⟨m, joins, first⟩, second⟩
      · rintro ⟨l, ⟨m, joins, first⟩, second⟩
        exact ⟨m, joins, l, first, second⟩

/-- An edge that is followed twice is followed the same way again, or back. -/
theorem Joins.again {k' m' : κ} (joins : Joins e k m) (again : Joins e k' m') : k' = k ∧ m' = m ∨ k' = m ∧ m' = k := by
  rcases joins with ⟨rfl, rfl⟩ | ⟨rfl, rfl⟩ <;> rcases again with ⟨rfl, rfl⟩ | ⟨rfl, rfl⟩
  · exact Or.inl ⟨rfl, rfl⟩
  · exact Or.inr ⟨rfl, rfl⟩
  · exact Or.inr ⟨rfl, rfl⟩
  · exact Or.inl ⟨rfl, rfl⟩

theorem exists_repeated {α : Type*} {xs : List α} (repeated : ¬ xs.Nodup) :
    ∃ x before middle after, xs = before ++ x :: (middle ++ x :: after) := by
  obtain ⟨x, duplicate⟩ := List.exists_duplicate_iff_not_nodup.mpr repeated
  refine ⟨x, ?_⟩
  clear repeated
  induction duplicate with
  | cons_mem member =>
      obtain ⟨middle, after, rfl⟩ := List.append_of_mem member
      exact ⟨[], middle, after, rfl⟩
  | @cons_duplicate y ys _ ih =>
      obtain ⟨before, middle, after, split⟩ := ih
      exact ⟨y :: before, middle, after, by rw [split]; rfl⟩

/-- What is between two uses of an edge can be left out. -/
theorem Walk.shorten (walk : Walk k es n) (repeated : ¬ es.Nodup) :
    ∃ fs, Walk k fs n ∧ fs ⊆ es ∧ fs.length < es.length := by
  obtain ⟨e, before, middle, after, rfl⟩ := exists_repeated repeated
  obtain ⟨a, first, rest⟩ := (walk_append).mp walk
  obtain ⟨b, joins, rest⟩ := (walk_cons).mp rest
  obtain ⟨c, -, rest⟩ := (walk_append).mp rest
  obtain ⟨d, again, last⟩ := (walk_cons).mp rest
  rcases joins.again again with ⟨rfl, rfl⟩ | ⟨rfl, rfl⟩
  · refine ⟨before ++ e :: after, (walk_append).mpr ⟨c, first, .cons joins last⟩, ?_,
      by simp only [List.length_append, List.length_cons]; omega⟩
    intro x member
    simp only [List.mem_append, List.mem_cons] at member ⊢
    tauto
  · refine ⟨before ++ after, (walk_append).mpr ⟨d, first, last⟩, ?_,
      by simp only [List.length_append, List.length_cons]; omega⟩
    intro x member
    simp only [List.mem_append, List.mem_cons] at member ⊢
    tauto

/-! ## Distance -/

/-- The lengths of the walks over `avail` to a node that meets `p`. -/
def walkLengths (avail : List (κ × ρ × κ)) (k : κ) (p : κ → Prop) : Set Nat :=
  {l | ∃ n es, p n ∧ Walk k es n ∧ es ⊆ avail ∧ es.length = l}

def trailLengths (avail : List (κ × ρ × κ)) (k : κ) (p : κ → Prop) : Set Nat :=
  {l | ∃ n es, p n ∧ Walk k es n ∧ es.Nodup ∧ es ⊆ avail ∧ es.length = l}

theorem isLeast_trail_iff {p : κ → Prop} {l : Nat} :
    IsLeast (trailLengths avail k p) l ↔ IsLeast (walkLengths avail k p) l := by
  have trail_below (fs : List (κ × ρ × κ)) (n : κ) (meets : p n) (walk : Walk k fs n) (among : fs ⊆ avail) :
      ∃ l' ∈ trailLengths avail k p, l' ≤ fs.length := by
    induction h : fs.length using Nat.strongRecOn generalizing fs with
    | _ size ih =>
        by_cases distinct : fs.Nodup
        · exact ⟨fs.length, ⟨n, fs, meets, walk, distinct, among, rfl⟩, h.le⟩
        · obtain ⟨gs, walk', sub, shorter⟩ := walk.shorten distinct
          obtain ⟨l', member, bound⟩ := ih gs.length (h ▸ shorter) gs walk' (List.Subset.trans sub among) rfl
          exact ⟨l', member, bound.trans (h ▸ Nat.le_of_lt shorter)⟩
  constructor
  · rintro ⟨⟨n, es, meets, walk, -, among, rfl⟩, least⟩
    refine ⟨⟨n, es, meets, walk, among, rfl⟩, ?_⟩
    rintro l' ⟨n', fs, meets', walk', among', rfl⟩
    obtain ⟨l'', member, bound⟩ := trail_below fs n' meets' walk' among'
    exact le_trans (least member) bound
  · rintro ⟨⟨n, es, meets, walk, among, rfl⟩, least⟩
    constructor
    · refine ⟨n, es, meets, walk, ?_, among, rfl⟩
      by_contra repeated
      obtain ⟨fs, walk', sub, shorter⟩ := walk.shorten repeated
      exact absurd (least ⟨n, fs, meets, walk', List.Subset.trans sub among, rfl⟩) (Nat.not_le.mpr shorter)
    · rintro l' ⟨n', fs, meets', walk', -, among', rfl⟩
      exact least ⟨n', fs, meets', walk', among', rfl⟩

/-! ## All trails up to a length -/

section Enumeration
variable [DecidableEq κ] [DecidableEq ρ]

def otherEnds (e : κ × ρ × κ) (k : κ) : List κ :=
  (if e.1 = k then [e.2.2] else []) ++ if e.2.2 = k then [e.1] else []

/-- The ends of the trails from `k` of length 1 to `depth` over `avail`, with the lengths. -/
def trailEnds (avail : List (κ × ρ × κ)) : Nat → κ → List (κ × Nat)
  | 0, _ => []
  | depth + 1, k => avail.flatMap fun e => (otherEnds e k).flatMap fun m =>
      (m, 1) :: (trailEnds (avail.erase e) depth m).map fun (n, l) => (n, l + 1)

omit [DecidableEq ρ] in
theorem mem_otherEnds : m ∈ otherEnds e k ↔ Joins e k m := by
  unfold otherEnds Joins
  split_ifs with first second second <;> grind

theorem mem_trailEnds {depth l : Nat} (distinct : avail.Nodup) :
    (n, l) ∈ trailEnds avail depth k ↔
      ∃ es, Walk k es n ∧ es.Nodup ∧ es ⊆ avail ∧ es.length = l ∧ 1 ≤ l ∧ l ≤ depth := by
  induction depth generalizing avail k l with
  | zero =>
      simp only [trailEnds, List.not_mem_nil, false_iff, not_exists]
      rintro es ⟨-, -, -, -, lower, upper⟩
      omega
  | succ depth ih =>
      simp only [trailEnds, List.mem_flatMap, List.mem_cons, Prod.mk.injEq, List.mem_map, Prod.exists, mem_otherEnds]
      constructor
      · rintro ⟨a, r, b, member, m, joins, ⟨rfl, rfl⟩ | ⟨n', l', further, rfl, rfl⟩⟩
        · exact ⟨[(a, r, b)], .cons joins (.nil _), List.nodup_singleton _, by simpa using member, rfl, by omega, by omega⟩
        · obtain ⟨es, walk, once, among, rfl, lower, upper⟩ := (ih (distinct.erase _)).mp further
          have fresh : (a, r, b) ∉ es := fun used => (distinct.mem_erase_iff.mp (among used)).1 rfl
          refine ⟨(a, r, b) :: es, .cons joins walk, List.nodup_cons.mpr ⟨fresh, once⟩, ?_, rfl, by omega, by omega⟩
          exact List.cons_subset.mpr ⟨member, fun x used => List.mem_of_mem_erase (among used)⟩
      · rintro ⟨es, walk, once, among, rfl, lower, upper⟩
        cases walk with
        | nil => simp at lower
        | @cons _ m _ e rest joins walk =>
            refine ⟨e.1, e.2.1, e.2.2, among List.mem_cons_self, m, joins, ?_⟩
            obtain ⟨fresh, once'⟩ := List.nodup_cons.mp once
            by_cases empty : rest = []
            · subst empty
              exact Or.inl ⟨((walk_nil).mp walk).symm, rfl⟩
            · apply Or.inr
              have positive : 0 < rest.length := List.length_pos_iff.mpr empty
              refine ⟨n, rest.length, (ih (distinct.erase _)).mpr ⟨rest, walk, once', ?_, rfl, positive, ?_⟩, rfl, rfl⟩
              · intro x used
                refine distinct.mem_erase_iff.mpr ⟨?_, among (List.mem_cons_of_mem _ used)⟩
                rintro rfl
                exact fresh used
              · simp only [List.length_cons] at upper
                omega

end Enumeration
end Daimon.Lib
