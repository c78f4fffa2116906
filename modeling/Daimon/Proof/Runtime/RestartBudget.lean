import Daimon.Proof.Runtime.Lifecycle

/-!
# The restart budget

A runner counts its restarts in windows that begin anew once they are over. Within one window the budget is kept, and
over any interval it is kept if a window begins anew only when the last restart is further back than its length.
-/

namespace Daimon.Proof.Runtime
open Daimon.Core Lib
open Daimon.Runtime Daimon.Runtime.Dispatcher

/-! ## The record of a runner -/

structure Record where
  crashes : List Nat
  restarts : List Nat
  delays : List Nat
  gaveUp : Bool

namespace Record

def empty : Record := { crashes := [], restarts := [], delays := [], gaveUp := false }

def crash (config : SupervisorConfig) (now : Nat) (x : Runner) (record : Record) : Record :=
  let crashes := record.crashes ++ [now]
  if (x.crashed config now).phase = .unregister then { record with crashes, gaveUp := true }
  else { record with crashes, delays := record.delays ++ [x.delay] }

def restart (now : Nat) (record : Record) : Record := { record with restarts := record.restarts ++ [now] }

def advance (config : SupervisorConfig) (now : Nat) (x : Runner) (record : Record) : Record :=
  match x.phase with
  | .running _ => record.crash config now x
  | .sleeping _ => record.restart now
  | _ => record

end Record

variable {sv : Semver}

/-- What a step adds to the record of runner `r`. -/
def observe (config : SupervisorConfig) (r : Nat) (w : World sv) (record : Record) (a : Action sv) : Record :=
  if a = .supervise (.advanceRunner r) then
    match w.supervisor.runners[r]? with
    | some x => record.advance config w.now x
    | none => record
  else record

def watch (config : SupervisorConfig) (r : Nat) (s : World sv × Record) (a : Action sv) : Option (World sv × Record) :=
  (s.1.step config a).map fun w => (w, observe config r s.1 s.2 a)

def within (window t x : Nat) : Bool := t ≤ x && x ≤ t + window

structure Budget (config : SupervisorConfig) (record : Record) : Prop where
  limited : ∀ t, record.restarts.countP (within config.restartWindow t) ≤ config.restartMaxInWindow
  exhausted : record.gaveUp = true →
    ∃ t, config.restartMaxInWindow < record.crashes.countP (within config.restartWindow t)
  sorted : record.delays.Pairwise (· ≤ ·)
  first : ∀ d ∈ record.delays.head?, d = config.restartInitialDelay
  bounded : ∀ d ∈ record.delays, d ≤ max config.restartInitialDelay config.restartMaxDelay

def isRunning (x : Runner) : Bool :=
  match x.phase with
  | .running _ => true
  | _ => false

/-- A crash that begins a new window comes more than the window's length after every restart. -/
def Apart (config : SupervisorConfig) (r : Nat) (s : World sv × Record) (a : Action sv) : Prop :=
  a = .supervise (.advanceRunner r) → ∀ x ∈ s.1.supervisor.runners[r]?, isRunning x = true →
    config.restartWindow < s.1.now - x.windowStart → ∀ t ∈ s.2.restarts, t + config.restartWindow < s.1.now

/-! ## What a step does to a runner -/

variable {config : SupervisorConfig} {w w' : World sv} {a : Action sv} {r now : Nat} {x x' : Runner}
  {record record' : Record}

/-- The counters move at the first poll, at a crash and after a sleep only. -/
inductive Move (config : SupervisorConfig) (now : Nat) (x : Runner) (record : Record) : Runner → Record → Prop
  | kept {x' : Runner} (delay : x'.delay = x.delay) (restarts : x'.restarts = x.restarts)
      (windowStart : x'.windowStart = x.windowStart)
      (phase : x'.phase = x.phase ∨ x'.phase ≠ .created ∧ ∀ wake, x'.phase ≠ .sleeping wake) :
      Move config now x record x' record
  | polled (phase : x.phase = .created) : Move config now x record { x with phase := .starting, windowStart := now } record
  | crashed {l : Nat} (phase : x.phase = .running l) :
      Move config now x record (x.crashed config now) (record.crash config now x)
  | woken {wake : Nat} (phase : x.phase = .sleeping wake) : Move config now x record
      { x with phase := .starting, delay := min (x.delay * 2) config.restartMaxDelay } (record.restart now)

theorem runnerStep_move (record : Record) (moved : w.runnerStep config r x = some w') : w'.now = w.now ∧ ∃ x',
    w'.supervisor.runners = w.supervisor.runners.set r x' ∧
      Move config w.now x record x' (record.advance config w.now x) := by
  unfold World.runnerStep World.setRunner at moved
  cases phase : x.phase with
  | created =>
      simp only [phase] at moved
      obtain rfl := Option.some.inj moved
      exact ⟨rfl, _, rfl, by simpa [Record.advance, phase] using .polled phase⟩
  | starting =>
      simp only [phase] at moved
      obtain rfl := Option.some.inj moved
      refine ⟨rfl, _, rfl, ?_⟩
      simp only [Record.advance, phase]
      exact .kept rfl rfl rfl (.inr (by split <;> simp))
  | running l =>
      simp only [phase] at moved
      split at moved
      · obtain rfl := Option.some.inj moved
        exact ⟨rfl, _, rfl, by simpa [Record.advance, phase] using .crashed phase⟩
      · cases moved
  | sleeping wake =>
      simp only [phase] at moved
      split at moved
      · obtain rfl := Option.some.inj moved
        exact ⟨rfl, _, rfl, by simpa [Record.advance, phase] using .woken phase⟩
      · cases moved
  | unregister | removeHandle | removeAgent =>
      simp only [phase] at moved
      obtain rfl := Option.some.inj moved
      refine ⟨rfl, _, rfl, ?_⟩
      simp only [Record.advance, phase]
      exact .kept rfl rfl rfl (.inr (by simp))
  | finished | cancelled => simp [phase] at moved

theorem abort_move (x : Runner) : Move config now x record x.abort record := by
  cases phase : x.phase <;> simp only [Runner.abort, phase] <;>
    exact .kept rfl rfl rfl (by simp [phase])

/-- What becomes of runner `r` in a step of the whole runtime. -/
inductive Seen (config : SupervisorConfig) (r : Nat) (w : World sv) (record : Record) (w' : World sv) : Record → Prop
  | absent (before : w.supervisor.runners[r]? = none) (after : w'.supervisor.runners[r]? = none) :
      Seen config r w record w' record
  | new (agent : Agent) (before : w.supervisor.runners[r]? = none)
      (after : w'.supervisor.runners[r]? = some (.new config agent)) : Seen config r w record w' record
  | moved {x x' : Runner} {record' : Record} (before : w.supervisor.runners[r]? = some x)
      (after : w'.supervisor.runners[r]? = some x') (move : Move config w.now x record x' record') :
      Seen config r w record w' record'

theorem Seen.same (same : w'.supervisor.runners[r]? = w.supervisor.runners[r]?) : Seen config r w record w' record := by
  cases before : w.supervisor.runners[r]? with
  | none => exact .absent before (same.trans before)
  | some x => exact .moved before (same.trans before) (.kept rfl rfl rfl (.inl rfl))

theorem observe_other (other : a ≠ .supervise (.advanceRunner r)) : observe config r w record a = record := if_neg other

theorem seen_advance {k : Nat} (moved : w.supervise config (.advanceRunner k) = some w') :
    w'.now = w.now ∧ Seen config r w record w' (observe config r w record (.supervise (.advanceRunner k))) := by
  simp only [World.supervise] at moved
  cases found : w.supervisor.runners[k]? with
  | none => simp [found] at moved
  | some x =>
      simp only [found] at moved
      obtain ⟨clock, x', runners, move⟩ := runnerStep_move record moved
      refine ⟨clock, ?_⟩
      by_cases own : k = r
      · subst own
        have bound := (List.getElem?_eq_some_iff.mp found).1
        rw [observe, if_pos rfl]
        simp only [found]
        exact .moved found (by rw [runners, List.getElem?_set_self bound]) move
      · rw [observe_other (by simpa using own)]
        exact .same (by rw [runners, List.getElem?_set_ne own])

theorem seen_stop {k : Nat} {call : Stop} {s' : Supervisor} (moved : StopStep w.supervisor k call s') :
    Seen config r w record { w with supervisor := s' } record := by
  cases before : w.supervisor.runners[r]? with
  | none =>
      refine .absent before ?_
      rw [List.getElem?_eq_none_iff] at before ⊢
      exact (stop_frame moved).2.1 ▸ before
  | some x =>
      obtain ⟨x', after, -⟩ := stop_runner_kept moved before
      refine .moved before after ?_
      obtain ⟨y, there, rfl | ⟨rfl, -, -⟩⟩ := stop_runner moved after
      · obtain rfl := Option.some.inj (there.symm.trans before)
        exact .kept rfl rfl rfl (.inl rfl)
      · obtain rfl := Option.some.inj (there.symm.trans before)
        exact abort_move _

theorem step_seen (r : Nat) (record : Record) (moved : w.step config a = some w') :
    w.now ≤ w'.now ∧ Seen config r w record w' (observe config r w record a) := by
  by_cases supervising : ∃ action, a = .supervise action
  · obtain ⟨action, rfl⟩ := supervising
    change w.supervise config action = some w' at moved
    cases action with
    | advanceRunner k =>
        obtain ⟨clock, seen⟩ := seen_advance moved
        exact ⟨clock.ge, seen⟩
    | spawn | stop =>
        rw [observe_other (by simp)]
        obtain rfl := Option.some.inj moved
        exact ⟨le_rfl, .same rfl⟩
    | advanceSpawn k =>
        rw [observe_other (by simp)]
        cases supervise_cases moved with
        | @spawn k call s' found step =>
            refine ⟨le_rfl, ?_⟩
            rcases (spawn_runners step).2 with same | more
            · exact .same (by simp [same])
            · rcases Nat.lt_trichotomy r w.supervisor.runners.length with old | rfl | far
              · exact .same (by simp [more, List.getElem?_append_left old])
              · exact .new call.agent (by simp) (by simp [more])
              · exact .absent (List.getElem?_eq_none (by omega)) (List.getElem?_eq_none (by simp [more]; omega))
    | advanceStop k =>
        rw [observe_other (by simp)]
        cases supervise_cases moved with
        | stop found step => exact ⟨le_rfl, seen_stop step⟩
    | cancelRunner k =>
        rw [observe_other (by simp)]
        cases supervise_cases moved with
        | cancelled found aborted =>
            refine ⟨le_rfl, ?_⟩
            by_cases own : k = r
            · subst own
              have bound := (List.getElem?_eq_some_iff.mp found).1
              exact .moved found (List.getElem?_set_self bound) (.kept rfl rfl rfl (.inr (by simp)))
            · exact .same (by simp [World.setRunner, own])
  · rw [observe_other fun same => supervising ⟨_, same⟩]
    have supervisor := (step_elsewhere moved fun action same => supervising ⟨action, same⟩).1
    refine ⟨?_, .same (by rw [supervisor])⟩
    cases a with
    | supervise action => exact absurd ⟨action, rfl⟩ supervising
    | dispatch | publish =>
        obtain rfl := Option.some.inj moved
        exact le_rfl
    | elapse =>
        obtain rfl := Option.some.inj moved
        exact Nat.le_add_right _ _
    | call | send | loop | reply =>
        obtain ⟨traffic, -, rfl⟩ := Option.map_eq_some_iff.mp moved
        exact le_rfl

/-! ## Properties of a runner and its record -/

/-- A property of runner `r` and its record, once there is the runner. -/
def Holds (p : Nat → Runner → Record → Prop) (r : Nat) (s : World sv × Record) : Prop :=
  match s.1.supervisor.runners[r]? with
  | none => s.2 = .empty
  | some x => p s.1.now x s.2

/-- What holds of a new runner, at any later time and after its moves holds in every run. -/
theorem holds_step {p : Nat → Runner → Record → Prop} {s s' : World sv × Record}
    (new : ∀ now agent, p now (.new config agent) .empty)
    (later : ∀ now now' x record, now ≤ now' → p now x record → p now' x record)
    (moves : ∀ x x' record', s.1.supervisor.runners[r]? = some x →
      (a ≠ .supervise (.advanceRunner r) → record' = s.2) →
      Move config s.1.now x s.2 x' record' → p s.1.now x s.2 → p s.1.now x' record')
    (holds : Holds p r s) (moved : watch config r s a = some s') : Holds p r s' := by
  obtain ⟨w, record⟩ := s
  obtain ⟨w', stepped, rfl⟩ := Option.map_eq_some_iff.mp moved
  obtain ⟨clock, seen⟩ := step_seen r record stepped
  unfold Holds at holds ⊢
  simp only at holds ⊢
  have other : a ≠ .supervise (.advanceRunner r) → observe config r w record a = record := observe_other
  generalize observe config r w record a = record' at seen other ⊢
  cases seen with
  | absent before after =>
      rw [before] at holds
      rw [after]
      exact holds
  | new agent before after =>
      rw [before] at holds
      rw [after]
      subst holds
      exact new _ agent
  | moved before after move =>
      rw [before] at holds
      rw [after]
      exact later _ _ _ _ clock (moves _ _ _ before other move holds)

/-! ## Crashes -/

theorem crashed_sleeping (calm : ¬ (x.crashed config now).phase = .unregister) :
    (x.crashed config now).restarts ≤ config.restartMaxInWindow ∧
      ∃ wake, (x.crashed config now).phase = .sleeping wake := by
  refine ⟨?_, (crashed_phase config now x).resolve_left calm⟩
  by_contra exceeded
  exact calm (if_pos (Nat.lt_of_not_le exceeded))

theorem crashed_unregister (left : (x.crashed config now).phase = .unregister) :
    config.restartMaxInWindow < (x.crashed config now).restarts := by
  by_contra within
  have sleeping : (x.crashed config now).phase = .sleeping (now + x.delay) := if_neg within
  cases sleeping.symm.trans left

theorem crashed_not_created (config : SupervisorConfig) (now : Nat) (x : Runner) :
    (x.crashed config now).phase ≠ .created := by
  intro created
  rcases crashed_phase config now x with left | ⟨wake, sleeping⟩
  · cases left.symm.trans created
  · cases sleeping.symm.trans created

theorem within_self (window t : Nat) : within window t t = true := by
  simp [within]

/-- The crashes that the counter counts lie in the current window. -/
structure Counted (config : SupervisorConfig) (now : Nat) (x : Runner) (record : Record) : Prop where
  clock : x.windowStart ≤ now
  idle : x.phase = .created → x.restarts = 0
  counted : x.restarts ≤ record.crashes.countP (within config.restartWindow x.windowStart)
  exhausted : record.gaveUp = true →
    ∃ t, config.restartMaxInWindow < record.crashes.countP (within config.restartWindow t)

theorem crashed_counted (inv : Counted config now x record) : (x.crashed config now).windowStart ≤ now ∧
    (x.crashed config now).restarts ≤
      (record.crashes ++ [now]).countP (within config.restartWindow (x.crashed config now).windowStart) := by
  by_cases fresh : config.restartWindow < now - x.windowStart
  · simp [Runner.crashed, fresh, within_self]
  · have counted := inv.counted
    have inside : within config.restartWindow x.windowStart now = true := by
      have := inv.clock
      simp only [within, Bool.and_eq_true, decide_eq_true_eq]
      omega
    simp [Runner.crashed, fresh, inside, inv.clock, counted]

theorem counted_move (move : Move config now x record x' record') (inv : Counted config now x record) :
    Counted config now x' record' := by
  cases move with
  | kept delay restarts windowStart phase =>
      refine ⟨windowStart ▸ inv.clock, fun created => ?_, by rw [restarts, windowStart]; exact inv.counted, inv.exhausted⟩
      rcases phase with same | ⟨other, -⟩
      · rw [restarts]
        exact inv.idle (same.symm.trans created)
      · exact absurd created other
  | polled phase => exact ⟨le_rfl, by simp, by simp [inv.idle phase], inv.exhausted⟩
  | woken phase => exact ⟨inv.clock, by simp, inv.counted, inv.exhausted⟩
  | crashed phase =>
      obtain ⟨clock, counted⟩ := crashed_counted inv
      have idle : (x.crashed config now).phase = .created → (x.crashed config now).restarts = 0 :=
        fun created => absurd created (crashed_not_created config now x)
      by_cases left : (x.crashed config now).phase = .unregister
      · rw [Record.crash, if_pos left]
        exact ⟨clock, idle, counted, fun _ => ⟨_, (crashed_unregister left).trans_le counted⟩⟩
      · rw [Record.crash, if_neg left]
        refine ⟨clock, idle, counted, fun gaveUp => ?_⟩
        obtain ⟨t, more⟩ := inv.exhausted gaveUp
        exact ⟨t, more.trans_le (by simp)⟩

/-! ## Delays -/

/-- The next delay and the ones before it. -/
structure Delayed (config : SupervisorConfig) (x : Runner) (record : Record) : Prop where
  unused : record.delays = [] → x.delay = config.restartInitialDelay ∧ ∀ wake, x.phase ≠ .sleeping wake
  first : ∀ d ∈ record.delays.head?, d = config.restartInitialDelay
  next : x.delay ≤ max config.restartInitialDelay config.restartMaxDelay
  bounded : ∀ d ∈ record.delays, d ≤ max config.restartInitialDelay config.restartMaxDelay

theorem delayed_move (move : Move config now x record x' record') (inv : Delayed config x record) :
    Delayed config x' record' := by
  cases move with
  | kept delay restarts windowStart phase =>
      refine ⟨fun none => ⟨delay ▸ (inv.unused none).1, fun wake sleeping => ?_⟩, inv.first, delay ▸ inv.next, inv.bounded⟩
      rcases phase with same | ⟨-, other⟩
      · exact (inv.unused none).2 wake (same.symm.trans sleeping)
      · exact other wake sleeping
  | polled phase => exact ⟨fun none => ⟨(inv.unused none).1, by simp⟩, inv.first, inv.next, inv.bounded⟩
  | woken phase =>
      refine ⟨fun none => absurd phase ((inv.unused none).2 _), inv.first, ?_, inv.bounded⟩
      exact (Nat.min_le_right _ _).trans (Nat.le_max_right _ _)
  | crashed phase =>
      by_cases left : (x.crashed config now).phase = .unregister
      · rw [Record.crash, if_pos left]
        exact ⟨fun none => ⟨(inv.unused none).1, by simp [left]⟩, inv.first, inv.next, inv.bounded⟩
      · rw [Record.crash, if_neg left]
        refine ⟨by simp, ?_, inv.next, ?_⟩
        · intro d isHead
          cases delays : record.delays with
          | nil =>
              simp only [delays, List.nil_append, List.head?_cons, Option.mem_some_iff] at isHead
              exact isHead ▸ (inv.unused delays).1
          | cons e rest =>
              simp only [delays, List.cons_append, List.head?_cons, Option.mem_some_iff] at isHead
              exact inv.first d (by simp [delays, isHead])
        · intro d member
          rcases (mem_snoc).mp member with old | rfl
          · exact inv.bounded d old
          · exact inv.next

/-- The delays of a runner whose initial delay is not above the maximum. -/
structure Growing (config : SupervisorConfig) (x : Runner) (record : Record) : Prop where
  sorted : record.delays.Pairwise (· ≤ ·)
  next : ∀ d ∈ record.delays, d ≤ x.delay
  below : x.delay ≤ config.restartMaxDelay

theorem growing_move (move : Move config now x record x' record') (inv : Growing config x record) :
    Growing config x' record' := by
  cases move with
  | kept delay restarts windowStart phase => exact ⟨inv.sorted, delay ▸ inv.next, delay ▸ inv.below⟩
  | polled phase => exact ⟨inv.sorted, inv.next, inv.below⟩
  | woken phase =>
      refine ⟨inv.sorted, fun d member => ?_, Nat.min_le_right _ _⟩
      have below := inv.below
      exact (inv.next d member).trans (Nat.le_min.mpr ⟨by omega, below⟩)
  | crashed phase =>
      by_cases left : (x.crashed config now).phase = .unregister
      · rw [Record.crash, if_pos left]
        exact ⟨inv.sorted, inv.next, inv.below⟩
      · rw [Record.crash, if_neg left]
        refine ⟨?_, ?_, inv.below⟩
        · rw [List.pairwise_append]
          exact ⟨inv.sorted, List.pairwise_singleton _ _, fun d member e last =>
            List.mem_singleton.mp last ▸ inv.next d member⟩
        · intro d member
          rcases (mem_snoc).mp member with old | rfl
          · exact inv.next d old
          · exact le_rfl

/-! ## Restarts -/

def pending (x : Runner) : Nat :=
  match x.phase with
  | .sleeping _ => 1
  | _ => 0

theorem pending_eq_zero (awake : ∀ wake, x.phase ≠ .sleeping wake) : pending x = 0 := by
  unfold pending
  split
  · next wake sleeping => exact absurd sleeping (awake wake)
  · rfl

/-- The restarts before the current window are further back than its length, and those in it are counted. -/
structure Windowed (config : SupervisorConfig) (now : Nat) (x : Runner) (record : Record) : Prop where
  clock : x.windowStart ≤ now
  idle : x.phase = .created → record.restarts = []
  split : ∃ old new, record.restarts = old ++ new ∧ (∀ t ∈ old, t + config.restartWindow < x.windowStart) ∧
    (∀ t ∈ new, x.windowStart ≤ t) ∧ new.length + pending x ≤ min x.restarts config.restartMaxInWindow
  limited : ∀ t, record.restarts.countP (within config.restartWindow t) ≤ config.restartMaxInWindow

/-- No interval has restarts from before the window and from within it. -/
theorem countP_split {window start budget t : Nat} {old new : List Nat} (before : ∀ u ∈ old, u + window < start)
    (since : ∀ u ∈ new, start ≤ u) (few : new.length ≤ budget) (limited : old.countP (within window t) ≤ budget) :
    (old ++ new).countP (within window t) ≤ budget := by
  rw [List.countP_append]
  by_cases reached : start ≤ t + window
  · have none : old.countP (within window t) = 0 := by
      refine List.countP_eq_zero.mpr fun u member => ?_
      have := before u member
      simp only [within, Bool.and_eq_true, decide_eq_true_eq]
      omega
    have := List.countP_le_length (p := within window t) (l := new)
    omega
  · have none : new.countP (within window t) = 0 := by
      refine List.countP_eq_zero.mpr fun u member => ?_
      have := since u member
      simp only [within, Bool.and_eq_true, decide_eq_true_eq]
      omega
    omega

theorem windowed_crash (inv : Windowed config now x record) (awake : pending x = 0)
    (apart : config.restartWindow < now - x.windowStart → ∀ t ∈ record.restarts, t + config.restartWindow < now) :
    ∃ old new, record.restarts = old ++ new ∧ (∀ t ∈ old, t + config.restartWindow < (x.crashed config now).windowStart) ∧
      (∀ t ∈ new, (x.crashed config now).windowStart ≤ t) ∧
      new.length + pending (x.crashed config now) ≤ min (x.crashed config now).restarts config.restartMaxInWindow := by
  have room : pending (x.crashed config now) = 0 ∨
      pending (x.crashed config now) = 1 ∧ (x.crashed config now).restarts ≤ config.restartMaxInWindow := by
    by_cases left : (x.crashed config now).phase = .unregister
    · exact .inl (by simp [pending, left])
    · obtain ⟨few, wake, sleeping⟩ := crashed_sleeping left
      exact .inr ⟨by simp [pending, sleeping], few⟩
  by_cases fresh : config.restartWindow < now - x.windowStart
  · refine ⟨record.restarts, [], by simp, ?_, by simp, ?_⟩
    · simpa [Runner.crashed, fresh] using apart fresh
    · have counter : (x.crashed config now).restarts = 1 := by simp [Runner.crashed, fresh]
      rw [List.length_nil]
      omega
  · obtain ⟨old, new, split, before, since, few⟩ := inv.split
    refine ⟨old, new, split, ?_, ?_, ?_⟩
    · simpa [Runner.crashed, fresh] using before
    · simpa [Runner.crashed, fresh] using since
    · have counter : (x.crashed config now).restarts = x.restarts + 1 := by simp [Runner.crashed, fresh]
      omega

theorem windowed_move (move : Move config now x record x' record')
    (apart : record' ≠ record → isRunning x = true → config.restartWindow < now - x.windowStart →
      ∀ t ∈ record.restarts, t + config.restartWindow < now)
    (inv : Windowed config now x record) : Windowed config now x' record' := by
  cases move with
  | kept delay restarts windowStart phase =>
      obtain ⟨old, new, split, before, since, few⟩ := inv.split
      refine ⟨windowStart ▸ inv.clock, fun created => ?_, ⟨old, new, split, windowStart ▸ before, windowStart ▸ since, ?_⟩,
        inv.limited⟩
      · rcases phase with same | ⟨other, -⟩
        · exact inv.idle (same.symm.trans created)
        · exact absurd created other
      · have less : pending x' ≤ pending x := by
          rcases phase with same | ⟨-, awake⟩
          · rw [pending, same, pending]
          · simp [pending_eq_zero awake]
        rw [restarts]
        omega
  | polled phase =>
      have none := inv.idle phase
      exact ⟨le_rfl, by simp, ⟨[], [], by simp [none], by simp, by simp, by simp [pending]⟩, inv.limited⟩
  | woken phase =>
      obtain ⟨old, new, split, before, since, few⟩ := inv.split
      have sleeping : pending x = 1 := by simp [pending, phase]
      have since' : ∀ t ∈ new ++ [now], x.windowStart ≤ t := by
        intro t member
        rcases (mem_snoc).mp member with old | rfl
        · exact since t old
        · exact inv.clock
      refine ⟨inv.clock, by simp, ⟨old, new ++ [now], by simp [Record.restart, split], before, since', ?_⟩, fun t => ?_⟩
      · simp only [List.length_append, List.length_singleton, pending]
        omega
      · have limited := inv.limited t
        rw [split, List.countP_append] at limited
        rw [Record.restart, split, List.append_assoc]
        refine countP_split before since' ?_ (by omega)
        simp only [List.length_append, List.length_singleton]
        omega
  | crashed phase =>
      have awake : pending x = 0 := by simp [pending, phase]
      have kept : (record.crash config now x).restarts = record.restarts := by
        rw [Record.crash]
        split <;> rfl
      have longer : (record.crash config now x).crashes = record.crashes ++ [now] := by
        rw [Record.crash]
        split <;> rfl
      have changed : record.crash config now x ≠ record := fun same => by simp [same] at longer
      refine ⟨?_, fun created => ?_, kept ▸ windowed_crash inv awake (apart changed (by simp [isRunning, phase])),
        kept ▸ inv.limited⟩
      · by_cases fresh : config.restartWindow < now - x.windowStart
        · simp [Runner.crashed, fresh]
        · simp [Runner.crashed, fresh, inv.clock]
      · exact absurd created (crashed_not_created config now x)

/-! ## Every run -/

section Run
variable {actions : List (Action sv)}
  (reached : run (watch config r) (World.new .empty, .empty) actions = some (w, record))
include reached

theorem counted_run : Holds (Counted config) r (w, record) := by
  refine invariant_of_run (fun s a s' holds moved => holds_step ?_ ?_ ?_ holds moved) ?_ reached
  · exact fun now agent => ⟨Nat.zero_le _, fun _ => rfl, Nat.zero_le _, by simp [Record.empty]⟩
  · exact fun now now' x record later inv => { inv with clock := inv.clock.trans later }
  · exact fun x x' record' _ _ move inv => counted_move move inv
  · simp [Holds, World.new, Supervisor.new]

theorem delayed_run : Holds (fun _ => Delayed config) r (w, record) := by
  refine invariant_of_run (fun s a s' holds moved => holds_step ?_ ?_ ?_ holds moved) ?_ reached
  · exact fun now agent => ⟨fun _ => ⟨rfl, by simp [Runner.new]⟩, by simp [Record.empty], Nat.le_max_left _ _,
      by simp [Record.empty]⟩
  · exact fun now now' x record _ inv => inv
  · exact fun x x' record' _ _ move inv => delayed_move move inv
  · simp [Holds, World.new, Supervisor.new]

theorem growing_run (patient : config.restartInitialDelay ≤ config.restartMaxDelay) :
    Holds (fun _ => Growing config) r (w, record) := by
  refine invariant_of_run (fun s a s' holds moved => holds_step ?_ ?_ ?_ holds moved) ?_ reached
  · exact fun now agent => ⟨.nil, by simp [Record.empty], patient⟩
  · exact fun now now' x record _ inv => inv
  · exact fun x x' record' _ _ move inv => growing_move move inv
  · simp [Holds, World.new, Supervisor.new]

theorem windowed_run (apart : AllSteps (watch config r) (Apart config r) (World.new .empty, .empty) actions) :
    Holds (Windowed config) r (w, record) := by
  refine invariant_of_allSteps (fun s a s' apart holds moved => holds_step ?_ ?_ ?_ holds moved) apart ?_ reached
  · exact fun now agent => ⟨Nat.zero_le _, fun _ => rfl, ⟨[], [], rfl, by simp, by simp, by simp [pending, Runner.new]⟩,
      by simp [Record.empty]⟩
  · exact fun now now' x record later inv => { inv with clock := inv.clock.trans later }
  · intro x x' record' found other move inv
    refine windowed_move move (fun changed running fresh => ?_) inv
    exact apart (of_not_not fun elsewhere => changed (other elsewhere)) x found running fresh
  · simp [Holds, World.new, Supervisor.new]

/-- Giving up and the bounds of the delays are right in every run. -/
theorem record_bounds :
    (record.gaveUp = true → ∃ t, config.restartMaxInWindow < record.crashes.countP (within config.restartWindow t)) ∧
      (∀ d ∈ record.delays.head?, d = config.restartInitialDelay) ∧
      ∀ d ∈ record.delays, d ≤ max config.restartInitialDelay config.restartMaxDelay := by
  have counted := counted_run reached
  have delayed := delayed_run reached
  unfold Holds at counted delayed
  cases there : w.supervisor.runners[r]? with
  | none =>
      simp only [there] at counted
      simp [counted, Record.empty]
  | some x =>
      simp only [there] at counted delayed
      exact ⟨counted.exhausted, delayed.first, delayed.bounded⟩

end Run

/-- The budget holds in every run in which the windows of a runner begin anew only when its last restart is further back
than their length, if the initial delay is not above the maximum. -/
theorem restart_budget (config : SupervisorConfig) (r : Nat) (actions : List (Action sv)) (w : World sv) (record : Record)
    (patient : config.restartInitialDelay ≤ config.restartMaxDelay)
    (apart : AllSteps (watch config r) (Apart config r) (World.new .empty, .empty) actions)
    (reached : run (watch config r) (World.new .empty, .empty) actions = some (w, record)) : Budget config record := by
  obtain ⟨exhausted, first, bounded⟩ := record_bounds reached
  have growing := growing_run reached patient
  have windowed := windowed_run reached apart
  unfold Holds at growing windowed
  cases there : w.supervisor.runners[r]? with
  | none =>
      simp only [there] at growing
      subst growing
      exact ⟨by simp [Record.empty], exhausted, .nil, first, bounded⟩
  | some x =>
      simp only [there] at growing windowed
      exact ⟨windowed.limited, exhausted, growing.sorted, first, bounded⟩

/-! ## Runs of an agent that crashes -/

/-- One restart in ten nanoseconds, each after one nanosecond. -/
def tight : SupervisorConfig :=
  { restartInitialDelay := 1, restartMaxDelay := 1, restartMaxInWindow := 1, restartWindow := 10 }

/-- The agent panics in loop `l` and is restarted. -/
def crashAndRestart (l : Nat) : List (Action .caret) :=
  [direct "echo", .loop l .receive, .loop l .panic, .supervise (.advanceRunner 0), .elapse 1,
   .supervise (.advanceRunner 0), .supervise (.advanceRunner 0), .loop (l + 1) .subscribe]

instance (config : SupervisorConfig) (r : Nat) (s : World sv × Record) (a : Action sv) : Decidable (Apart config r s a) :=
  inferInstanceAs (Decidable (_ → ∀ x ∈ s.1.supervisor.runners[r]?, isRunning x = true →
    config.restartWindow < s.1.now - x.windowStart → ∀ t ∈ s.2.restarts, t + config.restartWindow < s.1.now))

theorem echo_keeps_budget : ∃ w record,
    run (watch tight 0) (World.new .empty, .empty) (subscribedEcho 0 "echo" ++ crashAndRestart 0) = some (w, record) ∧
      record.restarts = [1] ∧ Budget tight record := by
  have runs : (run (watch tight 0) (World.new .empty, .empty) (subscribedEcho 0 "echo" ++ crashAndRestart 0)).any
      (fun s => s.2.restarts == [1]) = true := by
    decide +kernel
  obtain ⟨⟨w, record⟩, reached, times⟩ := (Option.any_eq_true _ _).mp runs
  exact ⟨w, record, reached, eq_of_beq times, restart_budget tight 0 _ w record (by decide) (by decide +kernel) reached⟩

/-- An initial delay above the maximum, and a budget of two restarts. -/
def impatient : SupervisorConfig :=
  { restartInitialDelay := 2, restartMaxDelay := 1, restartMaxInWindow := 2, restartWindow := 10 }

/-- The second crash comes two nanoseconds after the first one and begins a new window; the second delay is shorter than
the first. -/
theorem restarts_straddle :
    (∃ w record, run (watch tight 0) (World.new .empty, .empty) (subscribedEcho 0 "echo" ++ [.elapse 10] ++
        crashAndRestart 0 ++ [.elapse 1] ++ crashAndRestart 1) = some (w, record) ∧
      record.restarts = [11, 13] ∧ ¬ Budget tight record) ∧
    ∃ w record, run (watch impatient 0) (World.new .empty, .empty) (subscribedEcho 0 "echo" ++ [.elapse 1] ++
        [direct "echo", .loop 0 .receive, .loop 0 .panic, .supervise (.advanceRunner 0), .elapse 2,
          .supervise (.advanceRunner 0), .supervise (.advanceRunner 0), .loop 1 .subscribe] ++ crashAndRestart 1) =
        some (w, record) ∧
      record.delays = [2, 1] ∧ ¬ Budget impatient record := by
  constructor
  · have runs : (run (watch tight 0) (World.new .empty, .empty) (subscribedEcho 0 "echo" ++ [.elapse 10] ++
        crashAndRestart 0 ++ [.elapse 1] ++ crashAndRestart 1)).any (fun s => s.2.restarts == [11, 13]) = true := by
      decide +kernel
    obtain ⟨⟨w, record⟩, reached, times⟩ := (Option.any_eq_true _ _).mp runs
    have times : record.restarts = [11, 13] := eq_of_beq times
    refine ⟨w, record, reached, times, fun budget => ?_⟩
    have limited := budget.limited 11
    rw [times] at limited
    revert limited
    decide
  · have runs : (run (watch impatient 0) (World.new .empty, .empty) (subscribedEcho 0 "echo" ++ [.elapse 1] ++
        [direct "echo", .loop 0 .receive, .loop 0 .panic, .supervise (.advanceRunner 0), .elapse 2,
          .supervise (.advanceRunner 0), .supervise (.advanceRunner 0), .loop 1 .subscribe] ++ crashAndRestart 1)).any
          (fun s => s.2.delays == [2, 1]) = true := by
      decide +kernel
    obtain ⟨⟨w, record⟩, reached, delays⟩ := (Option.any_eq_true _ _).mp runs
    have delays : record.delays = [2, 1] := eq_of_beq delays
    refine ⟨w, record, reached, delays, fun budget => ?_⟩
    have sorted := budget.sorted
    rw [delays] at sorted
    revert sorted
    decide

end Daimon.Proof.Runtime
