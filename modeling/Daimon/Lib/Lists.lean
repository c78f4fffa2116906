import Mathlib.Algebra.GroupWithZero.Nat
import Mathlib.Data.List.Basic
import Mathlib.Data.List.Forall2
import Mathlib.Data.List.Nodup

/-!
# Lists updated in place

What stands where after a `set` or a `modify`, which entries meet a property, how an append-only log splits at an entry,
and when a part of a list is the whole of it.
-/

namespace Daimon.Lib

variable {α : Type*} {xs : List α} {i j : Nat} {x y : α} {f : α → α}

theorem set_cases (found : (xs.set i x)[j]? = some y) : (j = i ∧ y = x) ∨ (j ≠ i ∧ xs[j]? = some y) := by
  by_cases same : i = j
  · subst same
    have bound : i < xs.length := by simpa using (List.getElem?_eq_some_iff.mp found).1
    rw [List.getElem?_set_self bound] at found
    exact Or.inl ⟨rfl, (Option.some.inj found).symm⟩
  · rw [List.getElem?_set_ne same] at found
    exact Or.inr ⟨Ne.symm same, found⟩

theorem modify_cases (found : (xs.modify i f)[j]? = some y) :
    (j = i ∧ ∃ old, xs[i]? = some old ∧ y = f old) ∨ (j ≠ i ∧ xs[j]? = some y) := by
  by_cases same : i = j
  · subst same
    rw [List.getElem?_modify_eq] at found
    obtain ⟨old, at_i, rfl⟩ := Option.map_eq_some_iff.mp found
    exact Or.inl ⟨rfl, old, at_i, rfl⟩
  · rw [List.getElem?_modify_ne _ _ same] at found
    exact Or.inr ⟨Ne.symm same, found⟩

theorem modify_eq_set (found : xs[i]? = some x) : xs.modify i f = xs.set i (f x) := by
  obtain ⟨bound, rfl⟩ := List.getElem?_eq_some_iff.mp found
  exact List.modify_eq_set_get f bound

theorem mem_snoc : y ∈ xs ++ [x] ↔ y ∈ xs ∨ y = x := by
  rw [List.mem_append, List.mem_singleton]

theorem snoc_cases (found : (xs ++ [x])[j]? = some y) : xs[j]? = some y ∨ (j = xs.length ∧ y = x) := by
  rcases Nat.lt_or_ge j xs.length with old | new
  · exact Or.inl ((List.getElem?_append_left old).symm.trans found)
  · rw [List.getElem?_append_right new, List.getElem?_singleton] at found
    split_ifs at found with last
    exact Or.inr ⟨by omega, (Option.some.inj found).symm⟩

section Frame
variable {p : α → Prop} (other : ¬p x)
include other

/-- Entries that meet `p` do not see what happens to one that does not. -/
theorem snoc_frame (meets : p y) : (xs ++ [x])[j]? = some y ↔ xs[j]? = some y := by
  constructor
  · intro found
    rcases snoc_cases found with old | ⟨-, rfl⟩
    · exact old
    · exact absurd meets other
  · intro found
    exact (List.getElem?_append_left (List.getElem?_eq_some_iff.mp found).1).trans found

theorem set_frame (found : xs[i]? = some x) {x' : α} (other' : ¬p x') (meets : p y) :
    (xs.set i x')[j]? = some y ↔ xs[j]? = some y := by
  constructor
  · intro after
    rcases set_cases after with ⟨-, rfl⟩ | ⟨-, old⟩
    · exact absurd meets other'
    · exact old
  · intro before
    have different : i ≠ j := by
      rintro rfl
      obtain rfl := Option.some.inj (found.symm.trans before)
      exact other meets
    exact (List.getElem?_set_ne different).trans before

end Frame

/-! ## Entries that meet a property -/

section Entries
variable {p : α → Prop}

def Nobody (p : α → Prop) (xs : List α) : Prop := ∀ (i : Nat) (x : α), xs[i]? = some x → ¬p x

structure Alone (p : α → Prop) (xs : List α) (i : Nat) (x : α) : Prop where
  found : xs[i]? = some x
  meets : p x
  only : ∀ (j : Nat) (y : α), xs[j]? = some y → p y → j = i

theorem Nobody.of_forall (none : ∀ x ∈ xs, ¬p x) : Nobody p xs :=
  fun _ x found => none x (List.mem_of_getElem? found)

/-- The same entries meet `p` in both lists. -/
def Agree (p : α → Prop) (xs ys : List α) : Prop :=
  ∀ (i : Nat) (x : α), p x → (ys[i]? = some x ↔ xs[i]? = some x)

theorem Agree.refl (p : α → Prop) (xs : List α) : Agree p xs xs := fun _ _ _ => Iff.rfl

theorem agree_snoc (other : ¬p x) : Agree p xs (xs ++ [x]) := fun _ _ meets => snoc_frame other meets

theorem agree_set (found : xs[i]? = some x) (other : ¬p x) (other' : ¬p y) : Agree p xs (xs.set i y) :=
  fun _ _ meets => set_frame other found other' meets

theorem Nobody.of_agree {ys : List α} (agree : Agree p xs ys) (nobody : Nobody p xs) : Nobody p ys :=
  fun i x found meets => nobody i x ((agree i x meets).mp found) meets

theorem Alone.of_agree {ys : List α} (agree : Agree p xs ys) (alone : Alone p xs i x) : Alone p ys i x :=
  ⟨(agree i x alone.meets).mpr alone.found, alone.meets,
    fun j y found meets => alone.only j y ((agree j y meets).mp found) meets⟩

theorem Alone.eq (alone : Alone p xs i x) {j : Nat} (found : xs[j]? = some y) (meets : p y) : j = i ∧ y = x := by
  obtain rfl := alone.only j y found meets
  exact ⟨rfl, Option.some.inj (found.symm.trans alone.found)⟩

theorem Nobody.set (nobody : Nobody p xs) (i : Nat) (other : ¬p y) : Nobody p (xs.set i y) := by
  intro j z found
  rcases set_cases found with ⟨-, rfl⟩ | ⟨-, old⟩
  · exact other
  · exact nobody j z old

theorem Nobody.alone_set (nobody : Nobody p xs) (found : xs[i]? = some x) (meets : p y) : Alone p (xs.set i y) i y := by
  refine ⟨List.getElem?_set_self (List.getElem?_eq_some_iff.mp found).1, meets, ?_⟩
  intro j z after own
  rcases set_cases after with ⟨rfl, -⟩ | ⟨-, old⟩
  · rfl
  · exact absurd own (nobody j z old)

theorem Alone.set (alone : Alone p xs i x) (meets : p y) : Alone p (xs.set i y) i y := by
  refine ⟨List.getElem?_set_self (List.getElem?_eq_some_iff.mp alone.found).1, meets, ?_⟩
  intro j z after own
  rcases set_cases after with ⟨rfl, -⟩ | ⟨-, old⟩
  · rfl
  · exact alone.only j z old own

theorem Alone.leave (alone : Alone p xs i x) (other : ¬p y) : Nobody p (xs.set i y) := by
  intro j z after meets
  rcases set_cases after with ⟨-, rfl⟩ | ⟨different, old⟩
  · exact other meets
  · exact different (alone.only j z old meets)

theorem Nobody.alone_snoc (nobody : Nobody p xs) (meets : p x) : Alone p (xs ++ [x]) xs.length x := by
  refine ⟨by simp, meets, ?_⟩
  intro j z after own
  rcases snoc_cases after with old | ⟨last, -⟩
  · exact absurd own (nobody j z old)
  · exact last

end Entries

section Count
variable {p : α → Bool} (clears : ∀ z, p (f z) = false)
include clears

theorem countP_modify_le (xs : List α) (i : Nat) : (xs.modify i f).countP p ≤ xs.countP p := by
  induction xs generalizing i with
  | nil => simp
  | cons x rest ih =>
      cases i with
      | zero => simp [List.countP_cons, clears]
      | succ i =>
          simp only [List.modify_succ_cons, List.countP_cons]
          exact Nat.add_le_add_right (ih i) _

theorem countP_modify_lt (found : xs[i]? = some x) (counted : p x = true) :
    (xs.modify i f).countP p < xs.countP p := by
  induction xs generalizing i with
  | nil => simp at found
  | cons y rest ih =>
      cases i with
      | zero =>
          obtain rfl : y = x := by simpa using found
          simp [clears, counted]
      | succ i =>
          simp only [List.modify_succ_cons, List.countP_cons]
          exact Nat.add_lt_add_right (ih (by simpa using found)) _

end Count

section Sum
variable {weight weight' : α → Nat} {p : α → Bool}

theorem sum_map_set (weight : α → Nat) (found : xs[i]? = some x) (y : α) :
    ((xs.set i y).map weight).sum + weight x = (xs.map weight).sum + weight y := by
  induction xs generalizing i with
  | nil => simp at found
  | cons z rest ih =>
      cases i with
      | zero =>
          obtain rfl : z = x := by simpa using found
          simp only [List.set_cons_zero, List.map_cons, List.sum_cons]
          omega
      | succ i =>
          have rest_eq := ih (by simpa using found)
          simp only [List.set_cons_succ, List.map_cons, List.sum_cons]
          omega

theorem sum_map_countP (grows : ∀ z ∈ xs, weight' z = weight z + if p z then 1 else 0) :
    (xs.map weight').sum = (xs.map weight).sum + xs.countP p := by
  induction xs with
  | nil => rfl
  | cons z rest ih =>
      have rest_eq := ih fun y member => grows y (List.mem_cons_of_mem _ member)
      simp only [List.map_cons, List.sum_cons, List.countP_cons, grows z List.mem_cons_self, rest_eq]
      omega

end Sum

theorem append_eq_append_cons {log new before after : List α}
    (split : log ++ new = before ++ x :: after) :
    (∃ rest, log = before ++ x :: rest) ∨ (∃ middle, before = log ++ middle ∧ new = middle ++ x :: after) := by
  rcases List.append_eq_append_iff.mp split with ⟨middle, hb, ha⟩ | ⟨middle, hb, ha⟩
  · exact Or.inr ⟨middle, hb, ha⟩
  · cases middle with
    | nil => exact Or.inr ⟨[], by simpa using hb.symm, by simpa using ha.symm⟩
    | cons y rest =>
        obtain ⟨rfl, -⟩ := List.cons.inj ha
        exact Or.inl ⟨rest, hb⟩

section Key
variable {κ : Type*} [DecidableEq κ] {key : α → κ} {k : κ}

theorem find?_key_eq_some (unique : (xs.map key).Nodup) :
    (xs.find? fun z => key z = k) = some x ↔ x ∈ xs ∧ key x = k := by
  constructor
  · intro found
    exact ⟨List.mem_of_find?_eq_some found, by simpa using List.find?_some found⟩
  · rintro ⟨member, rfl⟩
    obtain ⟨y, found⟩ : ∃ y, (xs.find? fun z => key z = key x) = some y := by
      rw [← Option.isSome_iff_exists, List.find?_isSome]
      exact ⟨x, member, by simp⟩
    have same : key y = key x := by simpa using List.find?_some found
    rw [found, List.inj_on_of_nodup_map unique (List.mem_of_find?_eq_some found) member same]

theorem find?_key_perm {ys : List α} (unique : (xs.map key).Nodup) (perm : ys.Perm xs) :
    (ys.find? fun z => key z = k) = xs.find? fun z => key z = k := by
  have unique' : (ys.map key).Nodup := (perm.map key).nodup_iff.mpr unique
  ext x
  rw [find?_key_eq_some unique', find?_key_eq_some unique, perm.mem_iff]

/-- What is done to entries without changing their keys is done to the entry that is found. -/
theorem find?_map_of_key (keeps : ∀ z, key (f z) = key z) (xs : List α) (k : κ) :
    ((xs.map f).find? fun z => key z = k) = (xs.find? fun z => key z = k).map f := by
  rw [List.find?_map]
  congr 2
  funext z
  simp only [Function.comp_apply, keeps]

end Key

theorem isPrefix_of_map {β : Type*} {ys : List α} {g : α → β} (sub : ys.Sublist xs)
    (apart : (xs.map g).Nodup) (front : ys.map g <+: xs.map g) : ys <+: xs := by
  induction sub with
  | slnil => exact List.nil_prefix
  | @cons ys xs x sub ih =>
      rw [List.map_cons, List.nodup_cons] at apart
      cases ys with
      | nil => exact List.nil_prefix
      | cons y ys =>
          -- `y` stands after `x`, and its image would be that of `x`
          rw [List.map_cons, List.map_cons, List.cons_prefix_cons] at front
          have later : g y ∈ xs.map g := List.mem_map_of_mem (sub.subset List.mem_cons_self)
          exact absurd (front.1 ▸ later) apart.1
  | cons_cons x sub ih =>
      rw [List.map_cons, List.nodup_cons] at apart
      rw [List.map_cons, List.map_cons, List.cons_prefix_cons] at front
      rw [List.cons_prefix_cons]
      exact ⟨rfl, ih apart.2 front.2⟩

/-! ## Lists decoded item by item -/

section MapM
variable {α β γ : Type*} {f : α → Option β} {xs : List α} {ys : List β}

theorem mapM_some (xs : List α) : xs.mapM (some : α → Option α) = some xs := by
  induction xs with
  | nil => rfl
  | cons x xs ih => simp [ih]

theorem mapM_of_forall {g : α → β} (item : ∀ x ∈ xs, f x = some (g x)) : xs.mapM f = some (xs.map g) := by
  induction xs with
  | nil => rfl
  | cons x xs ih =>
      rw [List.forall_mem_cons] at item
      simp [item.1, ih item.2]

theorem mapM_isSome : (xs.mapM f).isSome ↔ ∀ x ∈ xs, (f x).isSome := by
  induction xs with
  | nil => simp
  | cons x xs ih =>
      rw [List.forall_mem_cons, ← ih]
      cases first : f x <;> cases decoded : xs.mapM f <;> simp [first, decoded]

/-- What the decoded items give, item by item, is what the items give. -/
theorem flatMap_of_mapM {g : β → List γ} {h : α → List γ} (item : ∀ x y, f x = some y → g y = h x)
    (decoded : xs.mapM f = some ys) : ys.flatMap g = xs.flatMap h := by
  induction xs generalizing ys with
  | nil =>
      obtain rfl : [] = ys := by simpa using decoded
      rfl
  | cons x xs ih =>
      simp only [List.mapM_cons, Option.bind_eq_bind, Option.bind_eq_some_iff, Option.pure_def,
        Option.some.injEq] at decoded
      obtain ⟨y, first, rest, decoded, rfl⟩ := decoded
      rw [List.flatMap_cons, List.flatMap_cons, item x y first, ih decoded]

end MapM

theorem lookup_of_mem {α β : Type} [BEq α] [LawfulBEq α] {key : α} {value : β} {entries : List (α × β)}
    (once : (entries.map Prod.fst).Nodup) (member : (key, value) ∈ entries) : entries.lookup key = some value := by
  induction entries with
  | nil => cases member
  | cons entry entries ih =>
      obtain ⟨k, v⟩ := entry
      rw [List.map_cons, List.nodup_cons] at once
      rcases List.mem_cons.mp member with same | later
      · cases same
        exact List.lookup_cons_self
      · have other : key ≠ k := by
          rintro rfl
          exact once.1 (List.mem_map.mpr ⟨_, later, rfl⟩)
        rw [List.lookup_cons, beq_false_of_ne other]
        exact ih once.2 later

theorem lookup_cons_ite {α β : Type} [DecidableEq α] (entries : List (α × β)) (key k : α) (value : β) :
    List.lookup key ((k, value) :: entries) = if key = k then some value else entries.lookup key := by
  rw [List.lookup_cons]
  split_ifs with same
  · rw [beq_iff_eq.mpr same]
  · rw [beq_false_of_ne same]

theorem lookup_filter_ne {α β : Type} [DecidableEq α] (entries : List (α × β)) (key k : α) :
    (entries.filter fun entry => entry.1 ≠ k).lookup key = if key = k then none else entries.lookup key := by
  induction entries with
  | nil => simp
  | cons entry rest ih =>
      obtain ⟨first, value⟩ := entry
      by_cases dropped : first = k
      · subst dropped
        rw [List.filter_cons_of_neg (by simp), ih, lookup_cons_ite]
        split_ifs <;> rfl
      · rw [List.filter_cons_of_pos (by simpa using dropped), lookup_cons_ite, lookup_cons_ite, ih]
        split_ifs with here gone
        · exact absurd (here.symm.trans gone) dropped
        · rfl
        · rfl
        · rfl

theorem lookup_filter_value {α β : Type} [DecidableEq α] {p : β → Bool} {entries : List (α × β)}
    (once : (entries.map Prod.fst).Nodup) (key : α) :
    (entries.filter fun entry => p entry.2).lookup key = (entries.lookup key).filter p := by
  induction entries with
  | nil => rfl
  | cons entry rest ih =>
      obtain ⟨k, value⟩ := entry
      rw [List.map_cons, List.nodup_cons] at once
      have later := ih once.2
      rw [lookup_cons_ite, List.filter_cons]
      split_ifs with kept same same
      · rw [lookup_cons_ite, if_pos same, Option.filter_some, if_pos kept]
      · rw [lookup_cons_ite, if_neg same, later]
      · have absent : rest.lookup key = none := by
          rw [List.lookup_eq_none_iff]
          intro entry member
          exact bne_iff_ne.mpr fun eq => once.1 (List.mem_map.mpr ⟨entry, member, eq.symm.trans same⟩)
        rw [later, absent, Option.filter_some, if_neg kept]
        rfl
      · exact later

theorem mem_of_lookup {α β : Type} [BEq α] [LawfulBEq α] {key : α} {value : β} {entries : List (α × β)}
    (found : entries.lookup key = some value) : (key, value) ∈ entries := by
  induction entries with
  | nil => cases found
  | cons entry entries ih =>
      obtain ⟨k, v⟩ := entry
      rw [List.lookup_cons] at found
      split at found
      · rename_i same
        cases found
        rw [eq_of_beq same]
        exact List.mem_cons_self
      · exact List.mem_cons_of_mem _ (ih found)

/-! ## Parts of a list -/

/-- A part of a list, and all of it exactly if `whole`. -/
structure Part (whole : Prop) (part all : List α) : Prop where
  sublist : part.Sublist all
  complete : part = all ↔ whole

namespace Part
variable {whole whole' : Prop} {part all part' all' : List α}

theorem refl (all : List α) : Part True all all := ⟨.refl all, iff_of_true rfl trivial⟩

theorem missing (some : all ≠ []) : Part False [] all := ⟨List.nil_sublist all, iff_of_false (Ne.symm some) not_false⟩

theorem of_iff (first : Part whole part all) (same : whole ↔ whole') : Part whole' part all :=
  ⟨first.sublist, first.complete.trans same⟩

theorem append (first : Part whole part all) (second : Part whole' part' all') :
    Part (whole ∧ whole') (part ++ part') (all ++ all') := by
  refine ⟨first.sublist.append second.sublist, ?_⟩
  rw [← first.complete, ← second.complete]
  constructor
  · intro same
    have lengths := congrArg List.length same
    have shorter := first.sublist.length_le
    have shorter' := second.sublist.length_le
    simp only [List.length_append] at lengths
    exact ⟨first.sublist.eq_of_length (by omega), second.sublist.eq_of_length (by omega)⟩
  · rintro ⟨rfl, rfl⟩
    rfl

end Part

/-! ## Lists related item by item -/

section Related
variable {α β γ : Type*} {R : α → β → Prop} {xs : List α} {ys : List β}

theorem map_eq_of_forall₂ {f : α → γ} {g : β → γ} (related : List.Forall₂ R xs ys)
    (same : ∀ x y, R x y → f x = g y) : xs.map f = ys.map g := by
  induction related with
  | nil => rfl
  | cons first _ ih => rw [List.map_cons, List.map_cons, same _ _ first, ih]

theorem related_some_left {x : α} {o : Option β} (related : Option.Rel R (some x) o) : ∃ y, o = some y ∧ R x y := by
  cases related with
  | @some _ y holds => exact ⟨y, rfl, holds⟩

theorem related_some_right {o : Option α} {y : β} (related : Option.Rel R o (some y)) : ∃ x, o = some x ∧ R x y := by
  cases related with
  | @some x _ holds => exact ⟨x, rfl, holds⟩

theorem related_of_mem_right {y : β} (related : List.Forall₂ R xs ys) (member : y ∈ ys) : ∃ x ∈ xs, R x y := by
  induction related with
  | nil => cases member
  | @cons x _ xs ys first _ ih =>
      rcases List.mem_cons.mp member with rfl | later
      · exact ⟨x, List.mem_cons_self, first⟩
      · obtain ⟨z, among, holds⟩ := ih later
        exact ⟨z, List.mem_cons_of_mem _ among, holds⟩

theorem find?_of_forall₂ {p : α → Bool} {q : β → Bool} (related : List.Forall₂ R xs ys)
    (same : ∀ x y, R x y → p x = q y) : Option.Rel R (xs.find? p) (ys.find? q) := by
  induction related with
  | nil => exact Option.Rel.none
  | @cons x y xs ys first _ ih =>
      rw [List.find?_cons, List.find?_cons, same x y first]
      cases q y with
      | true => exact Option.Rel.some first
      | false => exact ih

end Related
end Daimon.Lib
