import Mathlib.Data.List.Basic
import Mathlib.Data.List.Induction
import Mathlib.Data.List.Nodup

/-!
# Hash chains

A link stores what it records and the digest of that together with the digest before it. A list of
links is chained when every stored digest is the one that its place in the list gives. Nothing is
assumed of the hash function but that it has no collision, and does not give the first digest, on
the inputs that occur.
-/

namespace Daimon.Lib

variable {π δ : Type*}

structure Link (π δ : Type*) where
  payload : π
  digest : δ
  deriving DecidableEq

def Chained (hash : π → δ → δ) : δ → List (Link π δ) → Prop
  | _, [] => True
  | prev, l :: ls => l.digest = hash l.payload prev ∧ Chained hash l.digest ls

def headDigest (prev : δ) (ls : List (Link π δ)) : δ := (ls.getLast?.map Link.digest).getD prev

/-- What is hashed when the stored digests are taken at face value. -/
def hashInputs : δ → List (Link π δ) → List (π × δ)
  | _, [] => []
  | prev, l :: ls => (l.payload, prev) :: hashInputs l.digest ls

structure Sound (hash : π → δ → δ) (genesis : δ) (inputs : List (π × δ)) : Prop where
  collisionFree : ∀ x ∈ inputs, ∀ y ∈ inputs, hash x.1 x.2 = hash y.1 y.2 → x = y
  notGenesis : ∀ x ∈ inputs, hash x.1 x.2 ≠ genesis

instance decidableSound [DecidableEq π] [DecidableEq δ] (hash : π → δ → δ) (genesis : δ) (inputs : List (π × δ)) :
    Decidable (Sound hash genesis inputs) :=
  decidable_of_iff
    ((∀ x ∈ inputs, ∀ y ∈ inputs, hash x.1 x.2 = hash y.1 y.2 → x = y) ∧ ∀ x ∈ inputs, hash x.1 x.2 ≠ genesis)
    ⟨fun ⟨free, fresh⟩ => ⟨free, fresh⟩, fun sound => ⟨sound.collisionFree, sound.notGenesis⟩⟩

variable {hash : π → δ → δ} {genesis prev : δ} {l m : Link π δ} {ls ms : List (Link π δ)}

theorem Sound.mono {inputs more : List (π × δ)} (sound : Sound hash genesis more) (sub : inputs ⊆ more) :
    Sound hash genesis inputs :=
  ⟨fun x hx y hy => sound.collisionFree x (sub hx) y (sub hy), fun x hx => sound.notGenesis x (sub hx)⟩

theorem Sound.of_digests {inputs : List (π × δ)} {digests : List δ}
    (hashed : inputs.map (fun x => hash x.1 x.2) = digests) (distinct : digests.Nodup) (fresh : genesis ∉ digests) :
    Sound hash genesis inputs := by
  rw [← hashed] at distinct fresh
  exact ⟨fun x inX y inY same => List.inj_on_of_nodup_map distinct inX inY same,
    fun x inX same => fresh (same ▸ List.mem_map_of_mem inX)⟩

@[simp] theorem headDigest_nil (prev : δ) : headDigest prev ([] : List (Link π δ)) = prev := rfl

@[simp] theorem headDigest_snoc (prev : δ) (ls : List (Link π δ)) (l : Link π δ) :
    headDigest prev (ls ++ [l]) = l.digest := by
  simp [headDigest]

theorem headDigest_cons (prev : δ) (l : Link π δ) (ls : List (Link π δ)) :
    headDigest prev (l :: ls) = headDigest l.digest ls := by
  cases ls with
  | nil => rfl
  | cons m rest => simp [headDigest, List.getLast?_cons]

theorem chained_cons : Chained hash prev (l :: ls) ↔ l.digest = hash l.payload prev ∧ Chained hash l.digest ls :=
  Iff.rfl

theorem chained_append : Chained hash prev (ls ++ ms) ↔
    Chained hash prev ls ∧ Chained hash (headDigest prev ls) ms := by
  induction ls generalizing prev with
  | nil => simp [Chained]
  | cons l rest ih => simp only [List.cons_append, Chained, ih, headDigest_cons, and_assoc]

theorem chained_snoc : Chained hash prev (ls ++ [l]) ↔
    Chained hash prev ls ∧ l.digest = hash l.payload (headDigest prev ls) := by
  simp [chained_append, Chained]

theorem Chained.front (chained : Chained hash prev ms) (front : ls <+: ms) : Chained hash prev ls := by
  obtain ⟨rest, rfl⟩ := front
  exact ((chained_append).mp chained).1

theorem hashInputs_append (prev : δ) (ls ms : List (Link π δ)) :
    hashInputs prev (ls ++ ms) = hashInputs prev ls ++ hashInputs (headDigest prev ls) ms := by
  induction ls generalizing prev with
  | nil => rfl
  | cons l rest ih => simp [hashInputs, ih, headDigest_cons]

theorem hashInputs_subset (front : ls <+: ms) : hashInputs prev ls ⊆ hashInputs prev ms := by
  obtain ⟨rest, rfl⟩ := front
  rw [hashInputs_append]
  exact List.subset_append_left _ _

theorem mem_hashInputs_last (prev : δ) (ls : List (Link π δ)) (l : Link π δ) :
    (l.payload, headDigest prev ls) ∈ hashInputs prev (ls ++ [l]) := by
  simp [hashInputs_append, hashInputs]

theorem Chained.hashed (chained : Chained hash prev ls) (member : l ∈ ls) :
    ∃ before, (l.payload, before) ∈ hashInputs prev ls ∧ l.digest = hash l.payload before := by
  induction ls generalizing prev with
  | nil => simp at member
  | cons k rest ih =>
      rcases List.mem_cons.mp member with rfl | later
      · exact ⟨prev, List.mem_cons_self, chained.1⟩
      · obtain ⟨before, input, digest⟩ := ih chained.2 later
        exact ⟨before, List.mem_cons_of_mem _ input, digest⟩

theorem Sound.left {inputs more : List (π × δ)} (sound : Sound hash genesis (inputs ++ more)) :
    Sound hash genesis inputs :=
  sound.mono (List.subset_append_left _ _)

theorem Sound.right {inputs more : List (π × δ)} (sound : Sound hash genesis (more ++ inputs)) :
    Sound hash genesis inputs :=
  sound.mono (List.subset_append_right _ _)

theorem Sound.shorten {few more : List (π × δ)} (sound : Sound hash genesis (hashInputs prev ms ++ more))
    (front : ls <+: ms) (fewer : few ⊆ more) : Sound hash genesis (hashInputs prev ls ++ few) :=
  sound.mono (List.append_subset.mpr
    ⟨List.subset_append_of_subset_left _ (hashInputs_subset front), List.subset_append_of_subset_right _ fewer⟩)

/-! ## A digest fixes the links before it -/

theorem headDigest_ne_genesis (chained : Chained hash genesis (ls ++ [l]))
    (sound : Sound hash genesis (hashInputs genesis (ls ++ [l]))) : l.digest ≠ genesis := by
  rw [((chained_snoc).mp chained).2]
  exact sound.notGenesis _ (mem_hashInputs_last genesis ls l)

theorem last_eq (chained : Chained hash genesis (ls ++ [l])) (chained' : Chained hash genesis (ms ++ [m]))
    (sound : Sound hash genesis (hashInputs genesis (ls ++ [l]) ++ hashInputs genesis (ms ++ [m])))
    (same : l.digest = m.digest) : l = m ∧ headDigest genesis ls = headDigest genesis ms := by
  have computed : hash l.payload (headDigest genesis ls) = hash m.payload (headDigest genesis ms) := by
    rw [← ((chained_snoc).mp chained).2, ← ((chained_snoc).mp chained').2, same]
  have inputs := sound.collisionFree _ (List.mem_append_left _ (mem_hashInputs_last genesis ls l))
    _ (List.mem_append_right _ (mem_hashInputs_last genesis ms m)) computed
  obtain ⟨payload, before⟩ := Prod.mk.inj inputs
  cases l
  cases m
  subst payload same
  exact ⟨rfl, before⟩

theorem chain_unique (chained : Chained hash genesis (ls ++ [l])) (chained' : Chained hash genesis (ms ++ [m]))
    (sound : Sound hash genesis (hashInputs genesis (ls ++ [l]) ++ hashInputs genesis (ms ++ [m])))
    (same : l.digest = m.digest) : ls ++ [l] = ms ++ [m] := by
  induction ls using List.reverseRecOn generalizing ms l m with
  | nil =>
      obtain ⟨rfl, before⟩ := last_eq chained chained' sound same
      rcases ms.eq_nil_or_concat' with rfl | ⟨ms, k, rfl⟩
      · rfl
      · -- the longer chain has a hash where the shorter one begins
        rw [headDigest_nil, headDigest_snoc] at before
        have front := List.prefix_append (ms ++ [k]) [l]
        exact absurd before.symm (headDigest_ne_genesis (chained'.front front)
          (sound.right.mono (hashInputs_subset front)))
  | append_singleton ls k ih =>
      obtain ⟨rfl, before⟩ := last_eq chained chained' sound same
      have front := List.prefix_append (ls ++ [k]) [l]
      rw [headDigest_snoc] at before
      rcases ms.eq_nil_or_concat' with rfl | ⟨ms, j, rfl⟩
      · exact absurd before (headDigest_ne_genesis (chained.front front) (sound.left.mono (hashInputs_subset front)))
      · rw [headDigest_snoc] at before
        have front' := List.prefix_append (ms ++ [j]) [l]
        rw [ih (chained.front front) (chained'.front front') (sound.shorten front (hashInputs_subset front')) before]

/-- Where two chains store the same digest, they agree up to there, and it is the same place. -/
theorem chain_agree (chained : Chained hash genesis ls) (chained' : Chained hash genesis ms)
    (sound : Sound hash genesis (hashInputs genesis ls ++ hashInputs genesis ms)) {i j : Nat}
    (at_i : ls[i]? = some l) (at_j : ms[j]? = some m) (same : l.digest = m.digest) :
    i = j ∧ ls.take (i + 1) = ms.take (j + 1) := by
  obtain ⟨bound, rfl⟩ := List.getElem?_eq_some_iff.mp at_i
  obtain ⟨bound', rfl⟩ := List.getElem?_eq_some_iff.mp at_j
  have cut := List.take_succ_eq_append_getElem bound
  have cut' := List.take_succ_eq_append_getElem bound'
  have front : ls.take i ++ [ls[i]] <+: ls := cut ▸ List.take_prefix _ _
  have front' : ms.take j ++ [ms[j]] <+: ms := cut' ▸ List.take_prefix _ _
  have agree := chain_unique (chained.front front) (chained'.front front')
    (sound.shorten front (hashInputs_subset front')) same
  rw [← cut, ← cut'] at agree
  have lengths := congrArg List.length agree
  rw [List.length_take_of_le bound, List.length_take_of_le bound'] at lengths
  exact ⟨by omega, agree⟩

theorem Chained.nodup (chained : Chained hash genesis ls) (sound : Sound hash genesis (hashInputs genesis ls)) :
    ls.Nodup := by
  have twice : Sound hash genesis (hashInputs genesis ls ++ hashInputs genesis ls) :=
    sound.mono (by simp)
  rw [List.nodup_iff_getElem?_ne_getElem?]
  intro i j less bound same
  have at_j := List.getElem?_eq_getElem bound
  have places := (chain_agree chained chained twice (same.trans at_j) at_j rfl).1
  omega

/-! ## Chains that were changed -/

theorem chained_sublist_iff (chained : Chained hash genesis ls) (sub : ms.Sublist ls)
    (sound : Sound hash genesis (hashInputs genesis ls ++ hashInputs genesis ms)) :
    Chained hash genesis ms ↔ ms <+: ls := by
  constructor
  · intro chained'
    rcases ms.eq_nil_or_concat' with rfl | ⟨ms, m, rfl⟩
    · exact List.nil_prefix
    · obtain ⟨i, at_i⟩ := List.mem_iff_getElem?.mp (sub.subset (List.mem_append_right ms (List.mem_singleton.mpr rfl)))
      have last : (ms ++ [m])[ms.length]? = some m := by simp
      obtain ⟨-, agree⟩ := chain_agree chained chained' sound at_i last rfl
      have whole : (ms ++ [m]).take (ms.length + 1) = ms ++ [m] := List.take_of_length_le (by simp)
      rw [whole] at agree
      exact agree ▸ List.take_prefix _ _
  · exact chained.front

/-- A link that both lists hold stands at the same place in both, so the place of the replaced link
cannot move; and the link after it fixes it. -/
theorem chained_replace_iff {front back front' back' : List (Link π δ)}
    (chained : Chained hash genesis (front ++ l :: back)) (rest : front ++ back = front' ++ back')
    (sound : Sound hash genesis (hashInputs genesis (front ++ l :: back) ++
      hashInputs genesis (front' ++ m :: back'))) :
    Chained hash genesis (front' ++ m :: back') ↔
      (front' = front ∧ m = l) ∨
        (front' = front ∧ back = [] ∧ m.digest = hash m.payload (headDigest genesis front)) := by
  constructor
  · intro chained'
    have place : front'.length = front.length := by
      rcases Nat.lt_trichotomy front.length front'.length with less | same | more
      · obtain ⟨middle, rfl⟩ : ∃ middle, front' = front ++ middle :=
          List.prefix_of_prefix_length_le ⟨back, rest⟩ (List.prefix_append _ _) (Nat.le_of_lt less) |>.imp fun _ => Eq.symm
        cases middle with
        | nil => simp at less
        | cons k middle =>
            obtain rfl : back = k :: (middle ++ back') := by simpa using rest
            have places := (chain_agree (i := front.length + 1) (j := front.length) (l := k) chained chained' sound
              (by simp) (by simp) rfl).1
            omega
      · exact same.symm
      · obtain ⟨middle, rfl⟩ : ∃ middle, front = front' ++ middle :=
          List.prefix_of_prefix_length_le ⟨back', rest.symm⟩ (List.prefix_append _ _) (Nat.le_of_lt more)
            |>.imp fun _ => Eq.symm
        cases middle with
        | nil => simp at more
        | cons k middle =>
            obtain rfl : back' = k :: (middle ++ back) := by simpa using rest.symm
            have places := (chain_agree (i := front'.length) (j := front'.length + 1) (l := k) chained chained' sound
              (by simp) (by simp) rfl).1
            omega
    obtain ⟨rfl, rfl⟩ := List.append_inj rest place.symm
    cases back with
    | nil => exact Or.inr ⟨rfl, rfl, ((chained_snoc).mp chained').2⟩
    | cons k back =>
        have agree := (chain_agree (i := front.length + 1) (j := front.length + 1) (l := k) chained chained' sound
          (by simp) (by simp) rfl).2
        have here := congrArg (·[front.length]?) agree
        simp only [List.getElem?_take_of_lt (show front.length < front.length + 1 + 1 by omega),
          List.getElem?_append_right (Nat.le_refl _), Nat.sub_self, List.getElem?_cons_zero] at here
        exact Or.inl ⟨rfl, (Option.some.inj here).symm⟩
  · rintro (⟨rfl, rfl⟩ | ⟨rfl, rfl, fits⟩)
    · rwa [← List.append_cancel_left rest]
    · obtain rfl := List.append_cancel_left rest
      exact (chained_snoc).mpr ⟨chained.front (List.prefix_append _ _), fits⟩

end Daimon.Lib
