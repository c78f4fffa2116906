import Mathlib.Data.List.Induction
import Mathlib.Logic.Function.Basic

/-!
# Time windows

A caller asks for a key and is let in unless the key was let in less than a window before. The law is a property of
the log of calls and answers. A cache meets it on every log of calls in order, where each step decides by what it
remembers, forgets only entries that no later call asks for, and adds the calls it lets in.
-/

namespace Daimon.Lib.Window

structure Call (κ : Type*) where
  time : Nat
  key : κ
  deriving DecidableEq, Repr

section Law
variable {κ : Type*} {ttl : Nat} {log log' front back : List (Call κ × Bool)} {c : Call κ} {a b : Bool}

/-- Every call of the key that was let in is at least a window before the call. -/
def Clear (ttl : Nat) (before : List (Call κ × Bool)) (c : Call κ) : Prop :=
  ∀ earlier, (earlier, true) ∈ before → earlier.key = c.key → earlier.time + ttl ≤ c.time

def Windowed (ttl : Nat) (log : List (Call κ × Bool)) : Prop :=
  ∀ before c a after, log = before ++ (c, a) :: after → (a = true ↔ Clear ttl before c)

theorem windowed_nil : Windowed ttl ([] : List (Call κ × Bool)) := by
  intro before c a after split
  simp at split

theorem windowed_snoc : Windowed ttl (log ++ [(c, a)]) ↔ Windowed ttl log ∧ (a = true ↔ Clear ttl log c) := by
  constructor
  · intro windowed
    refine ⟨?_, windowed log c a [] rfl⟩
    intro before d b after split
    exact windowed before d b (after ++ [(c, a)]) (by rw [split, List.append_assoc, List.cons_append])
  · rintro ⟨windowed, last⟩ before d b after split
    cases after using List.reverseRecOn with
    | nil =>
        obtain ⟨rfl, same⟩ := List.append_inj' split rfl
        cases same
        exact last
    | append_singleton after e _ =>
        rw [← List.cons_append, ← List.append_assoc] at split
        obtain ⟨rfl, -⟩ := List.append_inj' split rfl
        exact windowed before d b after rfl

/-- The law leaves no choice. -/
theorem Windowed.unique (first : Windowed ttl log) (second : Windowed ttl log')
    (calls : log.map Prod.fst = log'.map Prod.fst) : log = log' := by
  induction log using List.reverseRecOn generalizing log' with
  | nil => exact (List.map_eq_nil_iff.mp calls.symm).symm
  | append_singleton log entry ih =>
      cases log' using List.reverseRecOn with
      | nil => simp at calls
      | append_singleton log' entry' _ =>
          obtain ⟨c, a⟩ := entry
          obtain ⟨c', a'⟩ := entry'
          rw [List.map_append, List.map_append] at calls
          obtain ⟨front, same⟩ := List.append_inj' calls rfl
          obtain rfl : c = c' := by simpa using same
          obtain ⟨windowed, last⟩ := (windowed_snoc).mp first
          obtain ⟨windowed', last'⟩ := (windowed_snoc).mp second
          obtain rfl := ih windowed windowed' front
          rw [Bool.eq_iff_iff.mpr (last.trans last'.symm)]

/-- Two calls of one key that are let in are a window apart. -/
theorem Windowed.apart (windowed : Windowed ttl log) :
    log.Pairwise fun e e' => e.2 = true → e'.2 = true → e.1.key = e'.1.key → e.1.time + ttl ≤ e'.1.time := by
  induction log using List.reverseRecOn with
  | nil => exact List.Pairwise.nil
  | append_singleton log entry ih =>
      obtain ⟨c, a⟩ := entry
      obtain ⟨front, last⟩ := (windowed_snoc).mp windowed
      rw [List.pairwise_append]
      refine ⟨ih front, List.pairwise_singleton _ _, ?_⟩
      rintro ⟨earlier, b⟩ member e' single admitted admitted' same
      obtain rfl : e' = (c, a) := List.mem_singleton.mp single
      obtain rfl : b = true := admitted
      exact last.mp admitted' earlier member same

/-- A call that is not let in changes no later answer. -/
theorem Windowed.without (windowed : Windowed ttl (front ++ (c, false) :: back)) : Windowed ttl (front ++ back) := by
  induction back using List.reverseRecOn with
  | nil =>
      rw [List.append_nil]
      exact ((windowed_snoc).mp windowed).1
  | append_singleton back entry ih =>
      obtain ⟨d, b⟩ := entry
      rw [← List.cons_append, ← List.append_assoc, windowed_snoc] at windowed
      rw [← List.append_assoc, windowed_snoc]
      refine ⟨ih windowed.1, windowed.2.trans ?_⟩
      simp only [Clear, List.mem_append, List.mem_cons, Prod.mk.injEq, Bool.true_eq_false, and_false, false_or]

end Law

/-! ## Caches -/

/-- When a key was let in last, as far as the cache remembers. -/
abbrev Seen (κ : Type*) := κ → Option Nat

section Cache
variable {κ : Type*} (admission : Seen κ → Nat → κ → Seen κ × Bool)

def logFrom : Seen κ → List (Call κ) → List (Call κ × Bool)
  | _, [] => []
  | seen, c :: rest => (c, (admission seen c.time c.key).2) :: logFrom (admission seen c.time c.key).1 rest

def Warm (ttl : Nat) (seen : Seen κ) (now : Nat) (key : κ) : Prop := ∃ t, seen key = some t ∧ now < t + ttl

/-- What a step of a cache may do for the law to hold. -/
structure Admits (ttl : Nat) : Prop where
  answer : ∀ {seen now key}, (∀ t, seen key = some t → t ≤ now) →
    ((admission seen now key).2 = true ↔ ¬Warm ttl seen now key)
  entry : ∀ {seen now key k t}, (admission seen now key).1 k = some t →
    seen k = some t ∨ (k = key ∧ t = now ∧ (admission seen now key).2 = true)
  added : ∀ {seen now key}, (admission seen now key).2 = true → (admission seen now key).1 key = some now
  kept : ∀ {seen now key k t}, seen k = some t → t ≤ now → now < t + ttl → k ≠ key ∨ (admission seen now key).2 = false →
    (admission seen now key).1 k = some t

/-- The cache remembers calls of the log, and of each key the last one for as long as a call can ask for it. -/
structure Reflects (ttl now : Nat) (seen : Seen κ) (log : List (Call κ × Bool)) : Prop where
  entries : ∀ k t, seen k = some t → (⟨t, k⟩, true) ∈ log
  recent : ∀ k t, (⟨t, k⟩, true) ∈ log → now < t + ttl → ∃ t', seen k = some t' ∧ t ≤ t'
  past : ∀ c a, (c, a) ∈ log → c.time ≤ now

variable {admission} {ttl now : Nat} {seen : Seen κ} {log : List (Call κ × Bool)} {c : Call κ}

theorem Reflects.later (reflects : Reflects ttl now seen log) {later : Nat} (le : now ≤ later) :
    Reflects ttl later seen log where
  entries := reflects.entries
  recent k t member warm := reflects.recent k t member (by omega)
  past c a member := Nat.le_trans (reflects.past c a member) le

theorem Reflects.warm_iff (reflects : Reflects ttl c.time seen log) : ¬Warm ttl seen c.time c.key ↔ Clear ttl log c := by
  constructor
  · intro cold earlier member same
    by_contra close
    obtain ⟨t, found, after⟩ := reflects.recent c.key earlier.time (same ▸ member) (by omega)
    exact cold ⟨t, found, by omega⟩
  · rintro clear ⟨t, found, close⟩
    have apart := clear ⟨t, c.key⟩ (reflects.entries c.key t found) rfl
    exact absurd close (Nat.not_lt.mpr apart)

theorem Reflects.step (admits : Admits admission ttl) (reflects : Reflects ttl c.time seen log) :
    Reflects ttl c.time (admission seen c.time c.key).1 (log ++ [(c, (admission seen c.time c.key).2)]) where
  entries k t found := by
    rcases admits.entry found with old | ⟨rfl, rfl, admitted⟩
    · exact List.mem_append_left _ (reflects.entries k t old)
    · rw [admitted]
      exact List.mem_append_right _ List.mem_cons_self
  recent k t member warm := by
    have new_call (new : (⟨t, k⟩, true) ∈ [(c, (admission seen c.time c.key).2)]) :
        t = c.time ∧ k = c.key ∧ (admission seen c.time c.key).2 = true := by
      obtain ⟨same, admitted⟩ := Prod.mk.inj (List.mem_singleton.mp new)
      exact ⟨congrArg Call.time same, congrArg Call.key same, admitted.symm⟩
    rcases List.mem_append.mp member with old | new
    · by_cases let_in : k = c.key ∧ (admission seen c.time c.key).2 = true
      · rw [let_in.1]
        exact ⟨c.time, admits.added let_in.2, reflects.past _ _ old⟩
      · obtain ⟨t', found, le⟩ := reflects.recent k t old warm
        have past := reflects.past _ _ (reflects.entries k t' found)
        refine ⟨t', admits.kept found past (by omega) ?_, le⟩
        rwa [not_and_or, Bool.not_eq_true] at let_in
    · obtain ⟨rfl, rfl, admitted⟩ := new_call new
      exact ⟨c.time, admits.added admitted, Nat.le_refl _⟩
  past d a member := by
    rcases List.mem_append.mp member with old | new
    · exact reflects.past d a old
    · cases List.mem_singleton.mp new
      exact Nat.le_refl _

theorem windowed_logFrom (admits : Admits admission ttl) {calls : List (Call κ)}
    (ordered : calls.Pairwise fun a b => a.time ≤ b.time) (later : ∀ c ∈ calls, now ≤ c.time)
    (reflects : Reflects ttl now seen log) (windowed : Windowed ttl log) :
    Windowed ttl (log ++ logFrom admission seen calls) := by
  induction calls generalizing now seen log with
  | nil => rwa [logFrom, List.append_nil]
  | cons c rest ih =>
      rw [List.pairwise_cons] at ordered
      have here := reflects.later (later c List.mem_cons_self)
      have past (t : Nat) (found : seen c.key = some t) : t ≤ c.time := here.past _ _ (here.entries c.key t found)
      have law := (windowed_snoc).mpr ⟨windowed, (admits.answer past).trans here.warm_iff⟩
      have rest_windowed := ih ordered.2 ordered.1 (here.step admits) law
      rwa [List.append_assoc, List.singleton_append] at rest_windowed

theorem reflects_empty : Reflects ttl now (fun _ => none) ([] : List (Call κ × Bool)) where
  entries k t found := by cases found
  recent k t member _ := by cases member
  past c a member := by cases member

theorem windowed_log (admits : Admits admission ttl) {calls : List (Call κ)}
    (ordered : calls.Pairwise fun a b => a.time ≤ b.time) : Windowed ttl (logFrom admission (fun _ => none) calls) :=
  windowed_logFrom admits ordered (fun c _ => Nat.zero_le c.time) reflects_empty windowed_nil

theorem calls_logFrom (seen : Seen κ) (calls : List (Call κ)) : (logFrom admission seen calls).map Prod.fst = calls := by
  induction calls generalizing seen with
  | nil => rfl
  | cons c rest ih => rw [logFrom, List.map_cons, ih]

end Cache

/-! ## A cache that writes down whom it lets in -/

section Via
variable {κ : Type*} [DecidableEq κ] (ttl : Nat) (sweep : Seen κ → Nat → Seen κ)

def isWarm (seen : Seen κ) (now : Nat) (key : κ) : Bool := (seen key).any fun t => now - t < ttl

def admitVia (seen : Seen κ) (now : Nat) (key : κ) : Seen κ × Bool :=
  if isWarm ttl seen now key then (sweep seen now, false) else (Function.update (sweep seen now) key (some now), true)

/-- Forgets nothing that is warm, and adds nothing. -/
structure Sweeps : Prop where
  old : ∀ {seen now k t}, sweep seen now k = some t → seen k = some t
  kept : ∀ {seen now k t}, seen k = some t → t ≤ now → now < t + ttl → sweep seen now k = some t

variable {ttl sweep} {seen : Seen κ} {now : Nat} {key : κ}

omit [DecidableEq κ] in
theorem isWarm_iff (past : ∀ t, seen key = some t → t ≤ now) :
    isWarm ttl seen now key = true ↔ Warm ttl seen now key := by
  rw [isWarm, Option.any_eq_true]
  apply exists_congr
  intro t
  apply and_congr_right
  intro found
  have le := past t found
  rw [decide_eq_true_eq]
  omega

theorem admitVia_warm (warm : isWarm ttl seen now key = true) :
    admitVia ttl sweep seen now key = (sweep seen now, false) := if_pos warm

theorem admitVia_cold (cold : isWarm ttl seen now key = false) :
    admitVia ttl sweep seen now key = (Function.update (sweep seen now) key (some now), true) :=
  if_neg (ne_true_of_eq_false cold)

theorem admits_via (sweeps : Sweeps ttl sweep) : Admits (admitVia ttl sweep) ttl where
  answer {seen now key} past := by
    rw [← isWarm_iff past]
    cases warm : isWarm ttl seen now key with
    | true => simp [admitVia_warm warm]
    | false => simp [admitVia_cold warm]
  entry {seen now key k t} found := by
    cases warm : isWarm ttl seen now key with
    | true =>
        rw [admitVia_warm warm] at found
        exact Or.inl (sweeps.old found)
    | false =>
        rw [admitVia_cold warm] at found ⊢
        dsimp only at found
        by_cases same : k = key
        · rw [same, Function.update_self] at found
          exact Or.inr ⟨same, (Option.some.inj found).symm, rfl⟩
        · rw [Function.update_of_ne same] at found
          exact Or.inl (sweeps.old found)
  added {seen now key} admitted := by
    cases warm : isWarm ttl seen now key with
    | true => simp [admitVia_warm warm] at admitted
    | false => simp [admitVia_cold warm]
  kept {seen now key k t} found past close other := by
    cases warm : isWarm ttl seen now key with
    | true =>
        rw [admitVia_warm warm]
        exact sweeps.kept found past close
    | false =>
        rw [admitVia_cold warm] at other ⊢
        have different : k ≠ key := by simpa using other
        dsimp only
        rw [Function.update_of_ne different]
        exact sweeps.kept found past close

end Via

end Daimon.Lib.Window
