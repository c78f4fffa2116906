import Daimon.Proof.Runtime.Station

/-!
# The supervisor's maps agree with its loops

Where no call breaks in on another's work on its id, an id is registered exactly when it has an agent and a loop, and
what was stopped handles nothing more. A `stop` with a live loop leaves it running.
-/

namespace Daimon.Proof.Runtime
open Daimon.Core Lib
open Daimon.Runtime Daimon.Runtime.Dispatcher

variable {sv : Semver} {config : SupervisorConfig} {w w' : World sv} {a : Action sv}
  {s s' : Supervisor} {id : AgentId} {k r : Nat}

/-! ## Loops -/

/-- Every live loop is the one its runner waits for. -/
structure Looped (runners : List Runner) (loops : List (HandlerLoop sv)) : Prop where
  running : ∀ (r l : Nat) (x : Runner), runners[r]? = some x → x.phase = .running l →
    ∃ loop, loops[l]? = some loop ∧ loop.runner = r ∧ loop.agent = x.agent
  live : ∀ (l : Nat) (loop : HandlerLoop sv), loops[l]? = some loop → loop.status ≠ .ended →
    ∃ x, runners[loop.runner]? = some x ∧ x.phase = .running l ∧ x.agent = loop.agent

structure Keeps (loops loops' : List (HandlerLoop sv)) : Prop where
  forth : ∀ (l : Nat) (loop : HandlerLoop sv), loops[l]? = some loop →
    ∃ loop', loops'[l]? = some loop' ∧ loop'.runner = loop.runner ∧ loop'.agent = loop.agent
  back : ∀ (l : Nat) (loop' : HandlerLoop sv), loops'[l]? = some loop' →
    ∃ loop, loops[l]? = some loop ∧ loop'.runner = loop.runner ∧ loop'.agent = loop.agent ∧
      (loop'.status ≠ .ended → loop.status ≠ .ended)

section Loops
variable {runners : List Runner} {loops loops' : List (HandlerLoop sv)} {loop loop' : HandlerLoop sv} {l : Nat}

theorem Keeps.refl (loops : List (HandlerLoop sv)) : Keeps loops loops :=
  ⟨fun _ loop found => ⟨loop, found, rfl, rfl⟩, fun _ loop found => ⟨loop, found, rfl, rfl, id⟩⟩

theorem deliver_keeps (loop : HandlerLoop sv) (m : Message sv) : (loop.deliver m).runner = loop.runner ∧
    (loop.deliver m).agent = loop.agent ∧ (loop.deliver m).status = loop.status := by
  unfold HandlerLoop.deliver
  split
  · exact ⟨rfl, rfl, rfl⟩
  · exact ⟨rfl, rfl, rfl⟩

theorem keeps_deliver (loops : List (HandlerLoop sv)) (m : Message sv) :
    Keeps loops (loops.map fun loop => loop.deliver m) := by
  constructor
  · intro l loop found
    obtain ⟨runner, agent, -⟩ := deliver_keeps loop m
    exact ⟨loop.deliver m, by simp [found], runner, agent⟩
  · intro l loop' found
    obtain ⟨loop, there, rfl⟩ := Option.map_eq_some_iff.mp ((List.getElem?_map ..).symm.trans found)
    obtain ⟨runner, agent, status⟩ := deliver_keeps loop m
    exact ⟨loop, there, runner, agent, fun alive => status ▸ alive⟩

theorem keeps_loopStep {action : LoopAction} {passed : Option (Message sv)} (found : loops[l]? = some loop)
    (moved : LoopStep loop action loop' passed) : Keeps loops (loops.set l loop') := by
  have same : loop'.runner = loop.runner ∧ loop'.agent = loop.agent ∧ loop.status ≠ .ended := by
    cases moved <;> exact ⟨rfl, rfl, by simp_all⟩
  constructor
  · intro j before there
    by_cases own : l = j
    · subst own
      obtain rfl := Option.some.inj (found.symm.trans there)
      exact ⟨loop', List.getElem?_set_self (List.getElem?_eq_some_iff.mp found).1, same.1, same.2.1⟩
    · exact ⟨before, (List.getElem?_set_ne own).trans there, rfl, rfl⟩
  · intro j after there
    rcases set_cases there with ⟨rfl, rfl⟩ | ⟨-, old⟩
    · exact ⟨loop, found, same.1, same.2.1, fun _ => same.2.2⟩
    · exact ⟨after, old, rfl, rfl, id⟩

theorem Looped.of_keeps (inv : Looped runners loops) (keeps : Keeps loops loops') : Looped runners loops' := by
  constructor
  · intro r l x there phase
    obtain ⟨loop, found, runner, agent⟩ := inv.running r l x there phase
    obtain ⟨loop', after, sameRunner, sameAgent⟩ := keeps.forth l loop found
    exact ⟨loop', after, sameRunner.trans runner, sameAgent.trans agent⟩
  · intro l loop' after alive
    obtain ⟨loop, found, sameRunner, sameAgent, earlier⟩ := keeps.back l loop' after
    obtain ⟨x, there, phase, agent⟩ := inv.live l loop found (earlier alive)
    exact ⟨x, sameRunner ▸ there, phase, agent.trans sameAgent.symm⟩

theorem looped_snoc (inv : Looped runners loops) {x : Runner} (fresh : ∀ l, x.phase ≠ .running l) :
    Looped (runners ++ [x]) loops := by
  constructor
  · intro r l y there phase
    rcases snoc_cases there with old | ⟨-, rfl⟩
    · exact inv.running r l y old phase
    · exact absurd phase (fresh l)
  · intro l loop found alive
    obtain ⟨y, there, known⟩ := inv.live l loop found alive
    exact ⟨y, (List.getElem?_append_left (List.getElem?_eq_some_iff.mp there).1).trans there, known⟩

theorem looped_set (inv : Looped runners loops) {r : Nat} {x after : Runner} (found : runners[r]? = some x)
    (fresh : ∀ l, after.phase ≠ .running l)
    (alone : ∀ (l : Nat) (loop : HandlerLoop sv), loops[l]? = some loop → x.phase = .running l → loop.status = .ended) :
    Looped (runners.set r after) loops := by
  constructor
  · intro r' l y there phase
    rcases set_cases there with ⟨-, rfl⟩ | ⟨-, old⟩
    · exact absurd phase (fresh l)
    · exact inv.running r' l y old phase
  · intro l loop at_l alive
    obtain ⟨y, there, phase, agent⟩ := inv.live l loop at_l alive
    have different : r ≠ loop.runner := by
      rintro rfl
      obtain rfl := Option.some.inj (found.symm.trans there)
      exact alive (alone l loop at_l phase)
    exact ⟨y, (List.getElem?_set_ne different).trans there, phase, agent⟩

theorem looped_start (inv : Looped runners loops) {r : Nat} {x after : Runner} (found : runners[r]? = some x)
    (idle : ∀ l, x.phase ≠ .running l) (phase : after.phase = .running loops.length) :
    Looped (runners.set r after) (loops ++ [.start r after.agent]) := by
  constructor
  · intro r' l y there running
    rcases set_cases there with ⟨rfl, rfl⟩ | ⟨-, old⟩
    · obtain rfl := RunnerPhase.running.inj (phase.symm.trans running)
      exact ⟨.start r' y.agent, by simp, rfl, rfl⟩
    · obtain ⟨loop, before, known⟩ := inv.running r' l y old running
      exact ⟨loop, (List.getElem?_append_left (List.getElem?_eq_some_iff.mp before).1).trans before, known⟩
  · intro l loop at_l alive
    rcases snoc_cases at_l with old | ⟨rfl, rfl⟩
    · obtain ⟨y, there, running, agent⟩ := inv.live l loop old alive
      have different : r ≠ loop.runner := by
        rintro rfl
        obtain rfl := Option.some.inj (found.symm.trans there)
        exact idle l running
      exact ⟨y, (List.getElem?_set_ne different).trans there, running, agent⟩
    · exact ⟨after, List.getElem?_set_self (List.getElem?_eq_some_iff.mp found).1, phase, rfl⟩

theorem looped_spawn {call : Spawn} (inv : Looped s.runners loops) (moved : SpawnStep config s k call s') :
    Looped s'.runners loops := by
  rcases (spawn_runners moved).2 with same | more
  · exact same ▸ inv
  · exact more ▸ looped_snoc inv (by simp [Runner.new])

theorem looped_stop {call : Stop} (inv : Looped s.runners loops) (supervised : Supervised s)
    (moved : StopStep s k call s')
    (quiet : call.phase = .removeHandle → ∀ loop ∈ loops, loop.agent.id = call.id → loop.status = .ended) :
    Looped s'.runners loops := by
  cases moved with
  | @aborted r phase handle =>
      obtain ⟨x, there, own⟩ := supervised.handles call.id r handle
      change Looped (s.runners.modify r Runner.abort) loops
      rw [modify_eq_set there]
      refine looped_set inv there ?_ ?_
      · intro l
        unfold Runner.abort
        cases at_x : x.phase <;> simp [at_x]
      · intro l loop at_l running
        obtain ⟨loop', found, -, agent⟩ := inv.running r l x there running
        obtain rfl := Option.some.inj (at_l.symm.trans found)
        exact quiet phase loop (List.mem_of_getElem? at_l) (agent ▸ own)
  | missed | unregistered | removed => exact inv

theorem looped_runner {runner : Runner} {new : List (HandlerLoop sv)} (inv : Looped s.runners loops)
    (found : s.runners[r]? = some runner) (unaborted : runner.aborted = false)
    (moved : RunnerStep s loops r runner s' new) : Looped s'.runners (loops ++ new) := by
  cases moved with
  | polled now phase =>
      rw [List.append_nil]
      exact looped_set inv found (by simp) (by simp [phase])
  | started phase =>
      refine looped_start inv found (by simp [phase]) ?_
      simp [unaborted]
  | @crashed config now l phase ended =>
      rw [List.append_nil]
      refine looped_set inv found ?_ ?_
      · intro l'
        rcases crashed_phase config now runner with gaveUp | ⟨wake, sleeps⟩
        · simp [gaveUp]
        · simp [sleeps]
      · intro l' loop at_l running
        obtain rfl := RunnerPhase.running.inj (phase.symm.trans running)
        simpa [at_l] using ended
  | woken delay phase =>
      rw [List.append_nil]
      exact looped_set inv found (by simp) (by simp [phase])
  | unregistered phase | handleRemoved phase | agentRemoved phase =>
      rw [List.append_nil]
      exact looped_set inv found (by simp) (by simp [phase])

end Loops

/-! ## Every step -/

structure Lifecycle (w : World sv) : Prop where
  supervised : Supervised w.supervisor
  looped : Looped w.supervisor.runners w.traffic.loops

theorem lifecycle_supervise {action : SupervisorAction} (orderly : Orderly w (.supervise action)) (inv : Lifecycle w)
    (moved : w.supervise config action = some w') : Lifecycle w' := by
  cases supervise_cases moved with
  | called agent => exact ⟨supervised_called inv.supervised agent, inv.looped⟩
  | asked id => exact ⟨supervised_asked inv.supervised id, inv.looped⟩
  | spawn found step =>
      refine ⟨supervised_spawn inv.supervised found step fun phase unknown => ?_, looped_spawn inv.looped step⟩
      obtain ⟨spawns, stops⟩ := orderly _ found phase unknown
      exact ⟨.of_forall spawns, .of_forall stops⟩
  | stop found step =>
      refine ⟨supervised_stop step inv.supervised found fun phase => ?_,
        looped_stop inv.looped inv.supervised step fun phase => ?_⟩
      · obtain ⟨spawns, calm, -⟩ := orderly _ found phase
        exact ⟨.of_forall spawns, calm⟩
      · exact (orderly _ found phase).2.2
  | runner found step loops =>
      have unaborted := inv.supervised.unaborted _ (List.mem_of_getElem? found)
      exact ⟨supervised_runner step inv.supervised found, loops ▸ looped_runner inv.looped found unaborted step⟩
  | cancelled found aborted =>
      -- an orderly run aborts no runner in its cleanup
      have unaborted := inv.supervised.unaborted _ (List.mem_of_getElem? found)
      rw [aborted] at unaborted
      cases unaborted

theorem step_elsewhere (moved : w.step config a = some w') (other : ∀ action, a ≠ .supervise action) :
    w'.supervisor = w.supervisor ∧ Keeps w.traffic.loops w'.traffic.loops := by
  have supervisor : w'.supervisor = w.supervisor := by
    cases a with
    | supervise action => exact absurd rfl (other action)
    | dispatch | publish | elapse =>
        obtain rfl := Option.some.inj moved
        rfl
    | call | send | loop | reply =>
        obtain ⟨traffic, -, rfl⟩ := Option.map_eq_some_iff.mp moved
        rfl
  refine ⟨supervisor, ?_⟩
  obtain ⟨-, step⟩ := step_traffic moved
  generalize w'.traffic = t' at step ⊢
  cases step with
  | unchanged | called | call => exact .refl _
  | started => exact absurd rfl (other _)
  | sent | replied | published => exact keeps_deliver _ _
  | loop found advanced => exact keeps_loopStep found advanced

theorem lifecycle_step (orderly : Orderly w a) (inv : Lifecycle w) (moved : w.step config a = some w') :
    Lifecycle w' := by
  by_cases supervising : ∃ action, a = .supervise action
  · obtain ⟨action, rfl⟩ := supervising
    exact lifecycle_supervise orderly inv moved
  · obtain ⟨supervisor, keeps⟩ := step_elsewhere moved (fun action same => supervising ⟨action, same⟩)
    exact ⟨supervisor ▸ inv.supervised, supervisor ▸ inv.looped.of_keeps keeps⟩

theorem lifecycle_new : Lifecycle (World.new .empty : World sv) where
  supervised := {
    stations := fun id => .vacant (.of_forall (by simp [World.new, Supervisor.new]))
      (.of_forall (by simp [World.new, Supervisor.new])) (by simp [World.new, Supervisor.new])
      (by simp [World.new, Supervisor.new])
    unaborted := by simp [World.new, Supervisor.new]
    handles := by simp [World.new, Supervisor.new]
    started := by simp [World.new, Supervisor.new]
    stopped := by simp [World.new, Supervisor.new] }
  looped := by constructor <;> simp [World.new, Supervisor.new, Traffic.new]

theorem lifecycle_run {actions : List (Action sv)} (orderly : AllSteps (World.step config) Orderly w actions)
    (inv : Lifecycle w) (reached : run (World.step config) w actions = some w') : Lifecycle w' :=
  invariant_of_allSteps (fun _ _ _ orderly inv moved => lifecycle_step orderly inv moved) orderly inv reached

/-! ## Settled ids -/

def LiveLoop (w : World sv) (id : AgentId) (l : Nat) : Prop :=
  ∃ loop, w.traffic.loops[l]? = some loop ∧ loop.agent.id = id ∧ loop.status ≠ .ended

/-- No `spawn`, `stop` or runner exit for the id is in progress. -/
def Settled (w : World sv) (id : AgentId) : Prop :=
  (∀ c ∈ w.supervisor.spawns, c.agent.id = id → spawnReturned c.phase = true) ∧
  (∀ p ∈ w.supervisor.stops, p.id = id → p.phase = .returned) ∧
  ∀ x ∈ w.supervisor.runners, x.agent.id = id → x.exiting = false

/-- A runner of the id has no live loop: it has not started its first one yet, or its last one has panicked
and the next has not started. -/
def Respawning (w : World sv) (id : AgentId) : Prop :=
  ∃ x ∈ w.supervisor.runners, x.agent.id = id ∧ isOpen x.phase = true ∧
    ∀ (l : Nat) (loop : HandlerLoop sv), x.phase = .running l → w.traffic.loops[l]? = some loop → loop.status = .ended

section Settled
variable (inv : Lifecycle w)
include inv

theorem live_runner {l : Nat} (live : LiveLoop w id l) :
    ∃ (r : Nat) (x : Runner), w.supervisor.runners[r]? = some x ∧ RunnerOf id x ∧ x.phase = .running l := by
  obtain ⟨loop, found, own, alive⟩ := live
  obtain ⟨x, there, phase, agent⟩ := inv.looped.live l loop found alive
  exact ⟨loop.runner, x, there, ⟨by rw [agent, own], by rw [phase]; rfl⟩, phase⟩

theorem live_unique {l l' : Nat} (live : LiveLoop w id l) (live' : LiveLoop w id l') : l = l' := by
  obtain ⟨r, x, there, own, phase⟩ := live_runner inv live
  obtain ⟨r', x', there', own', phase'⟩ := live_runner inv live'
  obtain ⟨alone, -⟩ := (inv.supervised.stations id).of_runner there own
  obtain ⟨-, rfl⟩ := alone.eq there' own'
  exact RunnerPhase.running.inj (phase.symm.trans phase')

theorem live_agent {l : Nat} (live : LiveLoop w id l) : (w.supervisor.agents id).isSome := by
  obtain ⟨r, x, there, own, phase⟩ := live_runner inv live
  exact ((inv.supervised.stations id).of_runner there own).2.2.2.1

theorem settled_cases (settled : Settled w id) :
    (w.supervisor.registry.get id = none ∧ w.supervisor.agents id = none ∧
      Nobody (RunnerOf id) w.supervisor.runners) ∨
    ((w.supervisor.registry.get id).isSome ∧ (w.supervisor.agents id).isSome ∧
      ∃ r x, Alone (RunnerOf id) w.supervisor.runners r x) := by
  obtain ⟨spawned, stopped, exits⟩ := settled
  have noSpawn {k : Nat} {call : Spawn} (alone : Alone (SpawnOf id) w.supervisor.spawns k call) : False := by
    have done := spawned call (List.mem_of_getElem? alone.found) alone.meets.1
    have underWay := alone.meets.2
    cases phase : call.phase <;> simp_all [spawnReturned, spawnUnderWay]
  have noStop {j : Nat} {p : Stop} (there : w.supervisor.stops[j]? = some p) (own : StopOf id p) : False := by
    have done := stopped p (List.mem_of_getElem? there) own.1
    have underWay := own.2
    simp [done, stopUnderWay] at underWay
  cases inv.supervised.stations id with
  | vacant spawns runners registry agents =>
      refine Or.inl ⟨?_, ?_, runners⟩
      · refine Option.not_isSome_iff_eq_none.mp fun present => ?_
        obtain ⟨j, p, there, own, -⟩ := registry present
        exact noStop there own
      · refine Option.not_isSome_iff_eq_none.mp fun present => ?_
        obtain ⟨j, p, there, own⟩ := agents present
        exact noStop there own
  | spawning spawns => exact (noSpawn spawns).elim
  | @up r x runners stops registry agents handle =>
      refine Or.inr ⟨registry.mpr ?_, agents, r, x, runners⟩
      have stays := exits x (List.mem_of_getElem? runners.found) runners.meets.1
      have opened := runners.meets.2
      cases phase : x.phase <;> simp_all [isRegistered, isOpen, Runner.exiting]
  | gone spawns => exact (noSpawn spawns).elim

theorem settled_registry (settled : Settled w id) :
    (w.supervisor.registry.get id).isSome ↔ (w.supervisor.agents id).isSome := by
  rcases settled_cases inv settled with ⟨registry, agents, -⟩ | ⟨registry, agents, -⟩
  · simp [registry, agents]
  · simp [registry, agents]

theorem settled_loop (settled : Settled w id) (served : ¬Respawning w id) :
    (w.supervisor.agents id).isSome ↔ ∃! l, LiveLoop w id l := by
  constructor
  · intro present
    rcases settled_cases inv settled with ⟨-, agents, -⟩ | ⟨-, -, r, x, alone⟩
    · simp [agents] at present
    · obtain ⟨l, loop, phase, found, alive⟩ : ∃ (l : Nat) (loop : HandlerLoop sv), x.phase = .running l ∧
          w.traffic.loops[l]? = some loop ∧ loop.status ≠ .ended := by
        by_contra none_live
        refine served ⟨x, List.mem_of_getElem? alone.found, alone.meets.1, alone.meets.2, ?_⟩
        intro l loop phase found
        by_contra alive
        exact none_live ⟨l, loop, phase, found, alive⟩
      obtain ⟨loop', found', -, agent⟩ := inv.looped.running r l x alone.found phase
      obtain rfl := Option.some.inj (found.symm.trans found')
      have live : LiveLoop w id l := ⟨loop, found, by rw [agent, alone.meets.1], alive⟩
      exact ⟨l, live, fun l' live' => live_unique inv live' live⟩
  · rintro ⟨l, live, -⟩
    exact live_agent inv live

end Settled

/-! ## Stopped instances -/

/-- The loop belongs to an instance that the call was asked to stop. -/
def StoppedBy (p : Stop) (loop : HandlerLoop sv) : Prop := loop.runner < p.instances ∧ loop.agent.id = p.id

theorem loops_forth (moved : w.step config a = some w') {l : Nat} {loop : HandlerLoop sv}
    (found : w.traffic.loops[l]? = some loop) :
    ∃ loop', w'.traffic.loops[l]? = some loop' ∧ loop'.runner = loop.runner ∧ loop'.agent = loop.agent := by
  obtain ⟨-, step⟩ := step_traffic moved
  generalize w'.traffic = t' at step ⊢
  cases step with
  | unchanged | called | call => exact ⟨loop, found, rfl, rfl⟩
  | started =>
      exact ⟨loop, (List.getElem?_append_left (List.getElem?_eq_some_iff.mp found).1).trans found, rfl, rfl⟩
  | sent | replied | published => exact (keeps_deliver _ _).forth l loop found
  | loop there advanced => exact (keeps_loopStep there advanced).forth l loop found

theorem handled_step (moved : w.step config a = some w') :
    ∃ new, w'.traffic.handled = w.traffic.handled ++ new ∧ ∀ entry ∈ new, ∃ loop,
      w.traffic.loops[entry.1]? = some loop ∧ loop.status ≠ .ended := by
  obtain ⟨-, step⟩ := step_traffic moved
  generalize w'.traffic = t' at step ⊢
  cases step with
  | loop found advanced =>
      refine ⟨_, rfl, ?_⟩
      intro entry member
      cases advanced with
      | passed status =>
          obtain rfl : entry = _ := by simpa using member
          exact ⟨_, found, by simp [status]⟩
      | subscribed | skipped | lagged | finished | panicked => simp at member
  | unchanged | started | called | call | sent | replied | published => exact ⟨[], by simp [Traffic.put], by simp⟩

theorem returned_kept (moved : w.step config a = some w') {j : Nat} {p : Stop}
    (there : w.supervisor.stops[j]? = some p) (returned : p.phase = .returned) :
    w'.supervisor.stops[j]? = some p := by
  by_cases supervising : ∃ action, a = .supervise action
  · obtain ⟨action, rfl⟩ := supervising
    cases supervise_cases moved with
    | called agent => exact there
    | asked id => exact (List.getElem?_append_left (List.getElem?_eq_some_iff.mp there).1).trans there
    | spawn found step => exact (spawn_runners step).1 ▸ there
    | @stop k call s' found step =>
        have different : k ≠ j := by
          rintro rfl
          obtain rfl := Option.some.inj (found.symm.trans there)
          cases step with
          | aborted phase | missed phase | unregistered phase | removed phase => cases returned.symm.trans phase
        cases step with
        | aborted | missed | unregistered | removed => exact (List.getElem?_set_ne different).trans there
    | runner found step loops => exact (runner_frame step).2.1 ▸ there
    | cancelled found aborted => exact there
  · exact (step_elsewhere moved fun action same => supervising ⟨action, same⟩).1 ▸ there

structure Quiet (p : Stop) (j : Nat) (before w : World sv) : Prop where
  lifecycle : Lifecycle w
  found : w.supervisor.stops[j]? = some p
  handled : ∃ new, w.traffic.handled = before.traffic.handled ++ new ∧ ∀ entry ∈ new, ∃ loop,
    w.traffic.loops[entry.1]? = some loop ∧ ¬StoppedBy p loop

theorem live_not_stopped (inv : Lifecycle w) {p : Stop} (member : p ∈ w.supervisor.stops)
    (returned : p.phase = .returned) {l : Nat} {loop : HandlerLoop sv} (found : w.traffic.loops[l]? = some loop)
    (alive : loop.status ≠ .ended) : ¬StoppedBy p loop := by
  rintro ⟨early, own⟩
  obtain ⟨x, there, phase, agent⟩ := inv.looped.live l loop found alive
  have closed := (inv.supervised.stopped p member).2 (by simp [returned]) loop.runner x early there (by rw [agent, own])
  rw [phase] at closed
  cases closed

theorem quiet_step {p : Stop} {j : Nat} {before : World sv} (returned : p.phase = .returned) (orderly : Orderly w a)
    (inv : Quiet p j before w) (moved : w.step config a = some w') : Quiet p j before w' where
  lifecycle := lifecycle_step orderly inv.lifecycle moved
  found := returned_kept moved inv.found returned
  handled := by
    obtain ⟨old, since, quiet⟩ := inv.handled
    obtain ⟨new, more, live⟩ := handled_step moved
    refine ⟨old ++ new, by rw [more, since, List.append_assoc], ?_⟩
    have carried {l : Nat} {loop : HandlerLoop sv} (there : w.traffic.loops[l]? = some loop)
        (other : ¬StoppedBy p loop) : ∃ loop', w'.traffic.loops[l]? = some loop' ∧ ¬StoppedBy p loop' := by
      obtain ⟨loop', after, runner, agent⟩ := loops_forth moved there
      exact ⟨loop', after, by rwa [StoppedBy, runner, agent]⟩
    intro entry member
    rcases List.mem_append.mp member with earlier | now
    · obtain ⟨loop, there, other⟩ := quiet entry earlier
      exact carried there other
    · obtain ⟨loop, there, alive⟩ := live entry now
      exact carried there
        (live_not_stopped inv.lifecycle (List.mem_of_getElem? inv.found) returned there alive)

instance decidableOrderly (w : World sv) : (a : Action sv) → Decidable (Orderly w a)
  | .supervise (.advanceSpawn k) => inferInstanceAs (Decidable (∀ call ∈ w.supervisor.spawns[k]?,
      call.phase = .check → w.supervisor.agents call.agent.id = none →
        (∀ c ∈ w.supervisor.spawns, ¬SpawnOf call.agent.id c) ∧ ∀ p ∈ w.supervisor.stops, ¬StopOf call.agent.id p))
  | .supervise (.advanceStop k) => inferInstanceAs (Decidable (∀ call ∈ w.supervisor.stops[k]?,
      call.phase = .removeHandle → (∀ c ∈ w.supervisor.spawns, ¬SpawnOf call.id c) ∧
      (∀ x ∈ w.supervisor.runners, x.agent.id = call.id → x.phase ≠ .starting ∧ x.exiting = false) ∧
      ∀ loop ∈ w.traffic.loops, loop.agent.id = call.id → loop.status = .ended))
  | .supervise (.spawn _) | .supervise (.stop _) | .supervise (.advanceRunner _) | .supervise (.cancelRunner _) =>
      isTrue trivial
  | .dispatch .. | .call .. | .send .. | .loop .. | .reply .. | .publish _ | .elapse _ => isTrue trivial

instance (w : World sv) (id : AgentId) : Decidable (Settled w id) := inferInstanceAs (Decidable (_ ∧ _ ∧ _))

def direct (name : String) : Action .caret :=
  .publish { correlationId := 9, sender := ⟨"operator"⟩, recipient := .direct ⟨name⟩, body := .null }

def stopped (name : String) : List (Action .caret) :=
  [.supervise (.stop ⟨name⟩), .supervise (.advanceStop 0), .supervise (.advanceStop 0), .supervise (.advanceStop 0)]

end Daimon.Proof.Runtime
