import Daimon.Proof.Runtime.Traffic

/-!
# The supervisor's maps and its loops

`spawn`, `stop` and a runner's own cleanup update three maps one lock at a time. What holds of an id is a
matter of who is at work on it: at any moment nobody, one `spawn`, one runner, or `stop` calls alone. The defects are
the steps that break this: a `stop` that aborts a runner and leaves its loop running or misses a runner that
is under way, and a `spawn` that passes its check while another call is at work on the id.
-/

namespace Daimon.Proof.Runtime
open Daimon.Core Lib
open Daimon.Runtime Daimon.Runtime.Dispatcher

variable {sv : Semver} {config : SupervisorConfig} {w w' : World sv} {a : Action sv}
  {s s' : Supervisor} {id : AgentId} {k r : Nat}

/-! ## What a step does -/

def spawnGoes (s : Supervisor) (k : Nat) (call : Spawn) (phase : SpawnPhase) : Supervisor :=
  { s with spawns := s.spawns.set k { call with phase } }

def stopGoes (s : Supervisor) (k : Nat) (call : Stop) (phase : StopPhase) : Supervisor :=
  { s with stops := s.stops.set k { call with phase } }

inductive SpawnStep (config : SupervisorConfig) (s : Supervisor) (k : Nat) (call : Spawn) : Supervisor → Prop
  | refused (phase : call.phase = .check) (known : (s.agents call.agent.id).isSome) :
      SpawnStep config s k call (spawnGoes s k call (.returned (.error (.duplicateAgent call.agent.id.name))))
  | checked (phase : call.phase = .check) (unknown : s.agents call.agent.id = none) :
      SpawnStep config s k call (spawnGoes s k call .register)
  | registered (phase : call.phase = .register) :
      SpawnStep config s k call (spawnGoes
        { s with registry := s.registry.register call.agent.id call.agent.capabilities } k call .insertAgent)
  | inserted (phase : call.phase = .insertAgent) :
      SpawnStep config s k call (spawnGoes
        { s with agents := Function.update s.agents call.agent.id (some call.agent) } k call .startRunner)
  | started (phase : call.phase = .startRunner) :
      SpawnStep config s k call (spawnGoes
        { s with runners := s.runners ++ [.new config call.agent] } k call (.insertHandle s.runners.length))
  | handed {r : Nat} (phase : call.phase = .insertHandle r) :
      SpawnStep config s k call (spawnGoes
        { s with handles := Function.update s.handles call.agent.id (some r) } k call (.returned (.ok ())))

inductive StopStep (s : Supervisor) (k : Nat) (call : Stop) : Supervisor → Prop
  | aborted {r : Nat} (phase : call.phase = .removeHandle) (handle : s.handles call.id = some r) :
      StopStep s k call (stopGoes
        { s with
          runners := s.runners.modify r Runner.abort
          handles := Function.update s.handles call.id none } k call .unregister)
  | missed (phase : call.phase = .removeHandle) (handle : s.handles call.id = none) :
      StopStep s k call (stopGoes { s with handles := Function.update s.handles call.id none } k call .unregister)
  | unregistered (phase : call.phase = .unregister) :
      StopStep s k call (stopGoes { s with registry := s.registry.unregister call.id } k call .removeAgent)
  | removed (phase : call.phase = .removeAgent) :
      StopStep s k call (stopGoes { s with agents := Function.update s.agents call.id none } k call .returned)

theorem spawnStep_cases {call : Spawn} (moved : s.spawnStep config k call = some s') :
    SpawnStep config s k call s' := by
  unfold Supervisor.spawnStep at moved
  cases phase : call.phase with
  | check =>
      simp only [phase] at moved
      split at moved <;> obtain rfl := Option.some.inj moved
      · next known => exact .refused phase known
      · next unknown => exact .checked phase (by simpa using unknown)
  | register =>
      simp only [phase] at moved
      obtain rfl := Option.some.inj moved
      exact .registered phase
  | insertAgent =>
      simp only [phase] at moved
      obtain rfl := Option.some.inj moved
      exact .inserted phase
  | startRunner =>
      simp only [phase] at moved
      obtain rfl := Option.some.inj moved
      exact .started phase
  | insertHandle r =>
      simp only [phase] at moved
      obtain rfl := Option.some.inj moved
      exact .handed phase
  | returned outcome => simp [phase] at moved

theorem stopStep_cases {call : Stop} (moved : s.stopStep k call = some s') : StopStep s k call s' := by
  unfold Supervisor.stopStep at moved
  cases phase : call.phase with
  | removeHandle =>
      simp only [phase] at moved
      obtain rfl := Option.some.inj moved
      cases handle : s.handles call.id with
      | some r => exact .aborted phase handle
      | none => exact .missed phase handle
  | unregister =>
      simp only [phase] at moved
      obtain rfl := Option.some.inj moved
      exact .unregistered phase
  | removeAgent =>
      simp only [phase] at moved
      obtain rfl := Option.some.inj moved
      exact .removed phase
  | returned => simp [phase] at moved

def runnerGoes (s : Supervisor) (r : Nat) (after : Runner) : Supervisor :=
  { s with runners := s.runners.set r after }

inductive RunnerStep (s : Supervisor) (loops : List (HandlerLoop sv)) (r : Nat) (runner : Runner) :
    Supervisor → List (HandlerLoop sv) → Prop
  | polled (now : Nat) (phase : runner.phase = .created) :
      RunnerStep s loops r runner (runnerGoes s r { runner with phase := .starting, windowStart := now }) []
  | started (phase : runner.phase = .starting) :
      RunnerStep s loops r runner (runnerGoes s r { runner with
        phase := if runner.aborted then .cancelled else .running loops.length }) [.start r runner.agent]
  | crashed (config : SupervisorConfig) (now : Nat) {l : Nat} (phase : runner.phase = .running l)
      (ended : (loops[l]?).map HandlerLoop.status = some .ended) :
      RunnerStep s loops r runner (runnerGoes s r (runner.crashed config now)) []
  | woken (delay : Nat) {wake : Nat} (phase : runner.phase = .sleeping wake) :
      RunnerStep s loops r runner (runnerGoes s r { runner with phase := .starting, delay }) []
  | unregistered (phase : runner.phase = .unregister) :
      RunnerStep s loops r runner (runnerGoes { s with registry := s.registry.unregister runner.agent.id } r
        { runner with phase := .removeHandle }) []
  | handleRemoved (phase : runner.phase = .removeHandle) :
      RunnerStep s loops r runner (runnerGoes { s with handles := Function.update s.handles runner.agent.id none } r
        { runner with phase := .removeAgent }) []
  | agentRemoved (phase : runner.phase = .removeAgent) :
      RunnerStep s loops r runner (runnerGoes { s with agents := Function.update s.agents runner.agent.id none } r
        { runner with phase := .finished }) []

theorem runnerStep_cases {runner : Runner} (moved : w.runnerStep config r runner = some w') :
    ∃ new, RunnerStep w.supervisor w.traffic.loops r runner w'.supervisor new ∧
      w'.traffic.loops = w.traffic.loops ++ new := by
  unfold World.runnerStep World.setRunner at moved
  cases phase : runner.phase with
  | created =>
      simp only [phase] at moved
      obtain rfl := Option.some.inj moved
      exact ⟨[], .polled _ phase, by simp⟩
  | starting =>
      simp only [phase] at moved
      obtain rfl := Option.some.inj moved
      exact ⟨_, .started phase, rfl⟩
  | running l =>
      simp only [phase] at moved
      split at moved
      · next ended =>
          obtain rfl := Option.some.inj moved
          exact ⟨[], .crashed _ _ phase ended, by simp⟩
      · cases moved
  | sleeping wake =>
      simp only [phase] at moved
      split at moved
      · obtain rfl := Option.some.inj moved
        exact ⟨[], .woken _ phase, by simp⟩
      · cases moved
  | unregister =>
      simp only [phase] at moved
      obtain rfl := Option.some.inj moved
      exact ⟨[], .unregistered phase, by simp⟩
  | removeHandle =>
      simp only [phase] at moved
      obtain rfl := Option.some.inj moved
      exact ⟨[], .handleRemoved phase, by simp⟩
  | removeAgent =>
      simp only [phase] at moved
      obtain rfl := Option.some.inj moved
      exact ⟨[], .agentRemoved phase, by simp⟩
  | finished | cancelled => simp [phase] at moved

inductive SuperviseStep (config : SupervisorConfig) (w : World sv) : SupervisorAction → World sv → Prop
  | called (agent : Agent) : SuperviseStep config w (.spawn agent) { w with supervisor :=
      { w.supervisor with spawns := w.supervisor.spawns ++ [{ agent, phase := .check }] } }
  | asked (id : AgentId) : SuperviseStep config w (.stop id) { w with supervisor :=
      { w.supervisor with stops := w.supervisor.stops ++
          [{ id, instances := w.supervisor.runners.length, phase := .removeHandle }] } }
  | spawn {k : Nat} {call : Spawn} {s' : Supervisor} (found : w.supervisor.spawns[k]? = some call)
      (step : SpawnStep config w.supervisor k call s') :
      SuperviseStep config w (.advanceSpawn k) { w with supervisor := s' }
  | stop {k : Nat} {call : Stop} {s' : Supervisor} (found : w.supervisor.stops[k]? = some call)
      (step : StopStep w.supervisor k call s') : SuperviseStep config w (.advanceStop k) { w with supervisor := s' }
  | runner {r : Nat} {runner : Runner} {w' : World sv} {new : List (HandlerLoop sv)}
      (found : w.supervisor.runners[r]? = some runner)
      (step : RunnerStep w.supervisor w.traffic.loops r runner w'.supervisor new)
      (loops : w'.traffic.loops = w.traffic.loops ++ new) : SuperviseStep config w (.advanceRunner r) w'
  | cancelled {r : Nat} {runner : Runner} (found : w.supervisor.runners[r]? = some runner)
      (aborted : runner.aborted = true) :
      SuperviseStep config w (.cancelRunner r) (w.setRunner r { runner with phase := .cancelled })

theorem supervise_cases {action : SupervisorAction} (moved : w.supervise config action = some w') :
    SuperviseStep config w action w' := by
  unfold World.supervise at moved
  cases action with
  | spawn agent =>
      obtain rfl := Option.some.inj moved
      exact .called agent
  | stop id =>
      obtain rfl := Option.some.inj moved
      exact .asked id
  | advanceSpawn k =>
      dsimp only at moved
      split at moved
      · next found =>
          obtain ⟨s', done, rfl⟩ := Option.map_eq_some_iff.mp moved
          exact .spawn found (spawnStep_cases done)
      · cases moved
  | advanceStop k =>
      dsimp only at moved
      split at moved
      · next found =>
          obtain ⟨s', done, rfl⟩ := Option.map_eq_some_iff.mp moved
          exact .stop found (stopStep_cases done)
      · cases moved
  | advanceRunner r =>
      dsimp only at moved
      split at moved
      · next found =>
          obtain ⟨new, step, loops⟩ := runnerStep_cases moved
          exact .runner found step loops
      · cases moved
  | cancelRunner r =>
      dsimp only at moved
      split at moved
      · next found =>
          split at moved
          · next both =>
              obtain rfl := Option.some.inj moved
              exact .cancelled found (Bool.and_eq_true_iff.mp both).1
          · cases moved
      · cases moved

/-! ## Who is at work on an id -/

def spawnUnderWay : SpawnPhase → Bool
  | .register | .insertAgent | .startRunner | .insertHandle _ => true
  | .check | .returned _ => false

def stopUnderWay : StopPhase → Bool
  | .unregister | .removeAgent => true
  | .removeHandle | .returned => false

def isOpen : RunnerPhase → Bool
  | .finished | .cancelled => false
  | .created | .starting | .running _ | .sleeping _ | .unregister | .removeHandle | .removeAgent => true

def isRegistered : RunnerPhase → Bool
  | .created | .starting | .running _ | .sleeping _ | .unregister => true
  | .removeHandle | .removeAgent | .finished | .cancelled => false

def spawnReturned : SpawnPhase → Bool
  | .returned _ => true
  | .check | .register | .insertAgent | .startRunner | .insertHandle _ => false

def SpawnOf (id : AgentId) (call : Spawn) : Prop := call.agent.id = id ∧ spawnUnderWay call.phase = true

def StopOf (id : AgentId) (call : Stop) : Prop := call.id = id ∧ stopUnderWay call.phase = true

def RunnerOf (id : AgentId) (runner : Runner) : Prop := runner.agent.id = id ∧ isOpen runner.phase = true

instance (id : AgentId) (call : Spawn) : Decidable (SpawnOf id call) := inferInstanceAs (Decidable (_ ∧ _))

instance (id : AgentId) (call : Stop) : Decidable (StopOf id call) := inferInstanceAs (Decidable (_ ∧ _))

inductive Station (s : Supervisor) (id : AgentId) : Prop
  | vacant (spawns : Nobody (SpawnOf id) s.spawns) (runners : Nobody (RunnerOf id) s.runners)
      (registry : (s.registry.get id).isSome →
        ∃ (j : Nat) (p : Stop), s.stops[j]? = some p ∧ StopOf id p ∧ p.phase = .unregister)
      (agents : (s.agents id).isSome → ∃ (j : Nat) (p : Stop), s.stops[j]? = some p ∧ StopOf id p)
  | spawning {k : Nat} {call : Spawn} (spawns : Alone (SpawnOf id) s.spawns k call)
      (early : ∀ r, call.phase ≠ .insertHandle r)
      (stops : Nobody (StopOf id) s.stops) (runners : Nobody (RunnerOf id) s.runners)
      (registry : (s.registry.get id).isSome ↔ call.phase ≠ .register)
      (agents : (s.agents id).isSome ↔ call.phase = .startRunner)
  | up {r : Nat} {runner : Runner} (runners : Alone (RunnerOf id) s.runners r runner)
      (stops : Nobody (StopOf id) s.stops) (registry : (s.registry.get id).isSome ↔ isRegistered runner.phase = true)
      (agents : (s.agents id).isSome)
      (handle : Nobody (SpawnOf id) s.spawns ∧ (s.handles id = some r ∨ runner.phase = .removeAgent) ∨
        ∃ k call, Alone (SpawnOf id) s.spawns k call ∧ call.phase = .insertHandle r)
  | gone {k r : Nat} {call : Spawn} (spawns : Alone (SpawnOf id) s.spawns k call) (late : call.phase = .insertHandle r)
      (stops : Nobody (StopOf id) s.stops) (runners : Nobody (RunnerOf id) s.runners)
      (registry : s.registry.get id = none) (agents : s.agents id = none)

/-- Nothing that is at work on the id differs. -/
structure SameStation (id : AgentId) (s s' : Supervisor) : Prop where
  spawns : Agree (SpawnOf id) s.spawns s'.spawns
  stops : Agree (StopOf id) s.stops s'.stops
  runners : Agree (RunnerOf id) s.runners s'.runners
  registry : s'.registry.get id = s.registry.get id
  agents : s'.agents id = s.agents id
  handles : s'.handles id = s.handles id

theorem SameStation.refl (id : AgentId) (s : Supervisor) : SameStation id s s :=
  ⟨.refl _ _, .refl _ _, .refl _ _, rfl, rfl, rfl⟩

theorem Station.of_same (station : Station s id) (same : SameStation id s s') : Station s' id := by
  obtain ⟨spawned, stopped, run, reg, ag, hand⟩ := same
  cases station with
  | vacant spawns runners registry agents =>
      refine .vacant (spawns.of_agree spawned) (runners.of_agree run) ?_ ?_
      · rw [reg]
        intro present
        obtain ⟨j, p, found, own, phase⟩ := registry present
        exact ⟨j, p, (stopped j p own).mpr found, own, phase⟩
      · rw [ag]
        intro present
        obtain ⟨j, p, found, own⟩ := agents present
        exact ⟨j, p, (stopped j p own).mpr found, own⟩
  | spawning spawns early stops runners registry agents =>
      exact .spawning (spawns.of_agree spawned) early (stops.of_agree stopped) (runners.of_agree run)
        (reg ▸ registry) (ag ▸ agents)
  | up runners stops registry agents handle =>
      refine .up (runners.of_agree run) (stops.of_agree stopped) (reg ▸ registry) (ag ▸ agents) ?_
      rw [hand]
      rcases handle with ⟨nobody, held⟩ | ⟨k, call, alone, phase⟩
      · exact Or.inl ⟨nobody.of_agree spawned, held⟩
      · exact Or.inr ⟨k, call, alone.of_agree spawned, phase⟩
  | gone spawns late stops runners registry agents =>
      exact .gone (spawns.of_agree spawned) late (stops.of_agree stopped) (runners.of_agree run)
        (reg ▸ registry) (ag ▸ agents)

/-! ## Which station a party is at -/

theorem Station.of_early {call : Spawn} (station : Station s id) (found : s.spawns[k]? = some call)
    (own : SpawnOf id call) (early : ∀ r, call.phase ≠ .insertHandle r) :
    Alone (SpawnOf id) s.spawns k call ∧ Nobody (StopOf id) s.stops ∧ Nobody (RunnerOf id) s.runners ∧
      ((s.registry.get id).isSome ↔ call.phase ≠ .register) ∧ ((s.agents id).isSome ↔ call.phase = .startRunner) := by
  cases station with
  | vacant spawns => exact absurd own (spawns k call found)
  | spawning spawns _ stops runners registry agents =>
      obtain ⟨rfl, rfl⟩ := spawns.eq found own
      exact ⟨spawns, stops, runners, registry, agents⟩
  | up _ _ _ _ handle =>
      rcases handle with ⟨nobody, -⟩ | ⟨j, other, alone, late⟩
      · exact absurd own (nobody k call found)
      · obtain ⟨rfl, rfl⟩ := alone.eq found own
        exact absurd late (early _)
  | gone spawns late =>
      obtain ⟨rfl, rfl⟩ := spawns.eq found own
      exact absurd late (early _)

theorem Station.of_stop {call : Stop} (station : Station s id) (found : s.stops[k]? = some call)
    (own : StopOf id call) :
    Nobody (SpawnOf id) s.spawns ∧ Nobody (RunnerOf id) s.runners ∧
      ((s.registry.get id).isSome →
        ∃ (j : Nat) (p : Stop), s.stops[j]? = some p ∧ StopOf id p ∧ p.phase = .unregister) := by
  cases station with
  | vacant spawns runners registry _ => exact ⟨spawns, runners, registry⟩
  | spawning _ _ stops => exact absurd own (stops k call found)
  | up _ stops => exact absurd own (stops k call found)
  | gone _ _ stops => exact absurd own (stops k call found)

theorem Station.of_runner {runner : Runner} (station : Station s id) (found : s.runners[r]? = some runner)
    (own : RunnerOf id runner) :
    Alone (RunnerOf id) s.runners r runner ∧ Nobody (StopOf id) s.stops ∧
      ((s.registry.get id).isSome ↔ isRegistered runner.phase = true) ∧ (s.agents id).isSome ∧
      (Nobody (SpawnOf id) s.spawns ∧ (s.handles id = some r ∨ runner.phase = .removeAgent) ∨
        ∃ k call, Alone (SpawnOf id) s.spawns k call ∧ call.phase = .insertHandle r) := by
  cases station with
  | vacant _ runners => exact absurd own (runners r runner found)
  | spawning _ _ _ runners => exact absurd own (runners r runner found)
  | up runners stops registry agents handle =>
      obtain ⟨rfl, rfl⟩ := runners.eq found own
      exact ⟨runners, stops, registry, agents, handle⟩
  | gone _ _ _ runners => exact absurd own (runners r runner found)

/-! ## Spawn calls -/

section Spawn
variable {call : Spawn} (found : s.spawns[k]? = some call) (moved : SpawnStep config s k call s')
include found moved

theorem spawn_elsewhere (other : call.agent.id ≠ id) : SameStation id s s' := by
  have spawns (phase : SpawnPhase) : Agree (SpawnOf id) s.spawns (s.spawns.set k { call with phase }) :=
    agree_set found (fun own => other own.1) (fun own => other own.1)
  cases moved with
  | refused | checked => exact { SameStation.refl id s with spawns := spawns _ }
  | registered => exact { SameStation.refl id s with
      spawns := spawns _
      registry := by simp [spawnGoes, other.symm] }
  | inserted => exact { SameStation.refl id s with
      spawns := spawns _
      agents := Function.update_of_ne other.symm .. }
  | started => exact { SameStation.refl id s with
      spawns := spawns _
      runners := agree_snoc (fun own => other own.1) }
  | handed => exact { SameStation.refl id s with
      spawns := spawns _
      handles := Function.update_of_ne other.symm .. }

theorem station_spawn (station : Station s call.agent.id)
    (free : call.phase = .check → s.agents call.agent.id = none →
      Nobody (SpawnOf call.agent.id) s.spawns ∧ Nobody (StopOf call.agent.id) s.stops) :
    Station s' call.agent.id := by
  cases moved with
  | refused phase known =>
      refine station.of_same { SameStation.refl _ s with spawns := agree_set found ?_ ?_ }
      · simp [SpawnOf, phase, spawnUnderWay]
      · simp [SpawnOf, spawnUnderWay]
  | checked phase unknown =>
      obtain ⟨spawns, stops⟩ := free phase unknown
      cases station with
      | vacant _ runners registry agents =>
          refine .spawning (spawns.alone_set found ⟨rfl, rfl⟩) (by simp) stops runners ?_ ?_
          · simp only [ne_eq, not_true_eq_false, iff_false]
            intro present
            obtain ⟨j, p, there, own, -⟩ := registry present
            exact stops j p there own
          · simp [spawnGoes, unknown]
      | spawning alone => exact absurd alone.meets (spawns _ _ alone.found)
      | up _ _ _ agents => simp [unknown] at agents
      | gone alone => exact absurd alone.meets (spawns _ _ alone.found)
  | registered phase =>
      obtain ⟨alone, stops, runners, -, agents⟩ := station.of_early found ⟨rfl, by rw [phase]; rfl⟩ (by simp [phase])
      refine .spawning (alone.set ⟨rfl, rfl⟩) (by simp) stops runners (by simp [spawnGoes]) ?_
      simpa [spawnGoes, phase] using agents
  | inserted phase =>
      obtain ⟨alone, stops, runners, registry, -⟩ := station.of_early found ⟨rfl, by rw [phase]; rfl⟩ (by simp [phase])
      refine .spawning (alone.set ⟨rfl, rfl⟩) (by simp) stops runners ?_ (by simp [spawnGoes])
      simpa [spawnGoes, phase] using registry
  | started phase =>
      obtain ⟨alone, stops, runners, registry, agents⟩ :=
        station.of_early found ⟨rfl, by rw [phase]; rfl⟩ (by simp [phase])
      refine .up (runners.alone_snoc ⟨rfl, rfl⟩) stops ?_ (agents.mpr phase) ?_
      · simpa [spawnGoes, phase, Runner.new, isRegistered] using registry
      · exact Or.inr ⟨k, _, alone.set ⟨rfl, rfl⟩, rfl⟩
  | @handed r phase =>
      have own : SpawnOf call.agent.id call := ⟨rfl, by rw [phase]; rfl⟩
      have done : ¬SpawnOf call.agent.id { call with phase := .returned (.ok ()) } := by simp [SpawnOf, spawnUnderWay]
      cases station with
      | vacant spawns => exact absurd own (spawns k call found)
      | spawning spawns early =>
          obtain ⟨rfl, rfl⟩ := spawns.eq found own
          exact absurd phase (early _)
      | up runners stops registry agents handle =>
          rcases handle with ⟨nobody, -⟩ | ⟨j, other, alone, late⟩
          · exact absurd own (nobody k call found)
          · obtain ⟨rfl, rfl⟩ := alone.eq found own
            obtain rfl := SpawnPhase.insertHandle.inj (late.symm.trans phase)
            exact .up runners stops registry agents (Or.inl ⟨alone.leave done, Or.inl (by simp [spawnGoes])⟩)
      | gone spawns late stops runners registry agents =>
          obtain ⟨rfl, rfl⟩ := spawns.eq found own
          refine .vacant (spawns.leave done) runners ?_ ?_
          · simp [spawnGoes, registry]
          · simp [spawnGoes, agents]

end Spawn

/-! ## Stop calls -/

theorem abort_agent (runner : Runner) : runner.abort.agent = runner.agent := by
  unfold Runner.abort
  split <;> rfl

/-- Away from the moments in which a runner starts a loop or cleans up, aborting it ends it. -/
theorem abort_closed {runner : Runner} (calm : runner.phase ≠ .starting ∧ runner.exiting = false) :
    isOpen runner.abort.phase = false ∧ runner.abort.aborted = runner.aborted := by
  unfold Runner.exiting at calm
  unfold Runner.abort
  cases phase : runner.phase <;> simp_all [isOpen]

section Stop
variable {call : Stop} (found : s.stops[k]? = some call) (moved : StopStep s k call s')
  (owner : ∀ r, s.handles call.id = some r → ∃ x, s.runners[r]? = some x ∧ x.agent.id = call.id)
include found moved owner

theorem stop_elsewhere (other : call.id ≠ id) : SameStation id s s' := by
  have stops (phase : StopPhase) : Agree (StopOf id) s.stops (s.stops.set k { call with phase }) :=
    agree_set found (fun own => other own.1) (fun own => other own.1)
  cases moved with
  | @aborted r phase handle =>
      obtain ⟨x, there, own⟩ := owner r handle
      exact { SameStation.refl id s with
        stops := stops _
        runners := by
          change Agree _ _ (s.runners.modify r Runner.abort)
          rw [modify_eq_set there]
          refine agree_set there (fun mine => other (own.symm.trans mine.1)) (fun mine => ?_)
          exact other (own.symm.trans ((abort_agent x).symm ▸ mine.1))
        handles := Function.update_of_ne other.symm .. }
  | missed => exact { SameStation.refl id s with
      stops := stops _
      handles := Function.update_of_ne other.symm .. }
  | unregistered => exact { SameStation.refl id s with
      stops := stops _
      registry := by simp [stopGoes, other.symm] }
  | removed => exact { SameStation.refl id s with
      stops := stops _
      agents := Function.update_of_ne other.symm .. }

theorem station_stop (station : Station s call.id)
    (free : call.phase = .removeHandle → Nobody (SpawnOf call.id) s.spawns ∧
      ∀ x ∈ s.runners, x.agent.id = call.id → x.phase ≠ .starting ∧ x.exiting = false) :
    Station s' call.id := by
  have here (phase : StopPhase) : (s.stops.set k { call with phase })[k]? = some { call with phase } :=
    List.getElem?_set_self (List.getElem?_eq_some_iff.mp found).1
  cases moved with
  | @aborted r phase handle =>
      obtain ⟨spawns, calm⟩ := free phase
      obtain ⟨x, there, own⟩ := owner r handle
      have closed : ¬RunnerOf call.id x.abort := by
        simp [RunnerOf, (abort_closed (calm x (List.mem_of_getElem? there) own)).1]
      refine .vacant spawns ?_ (fun _ => ⟨k, _, here _, ⟨rfl, rfl⟩, rfl⟩) (fun _ => ⟨k, _, here _, ⟨rfl, rfl⟩⟩)
      change Nobody _ (s.runners.modify r Runner.abort)
      rw [modify_eq_set there]
      cases station with
      | vacant _ runners => exact runners.set r closed
      | spawning alone => exact absurd alone.meets (spawns _ _ alone.found)
      | @up r' runner runners _ _ _ held =>
          rcases held with ⟨-, held | last⟩ | ⟨j, other, alone, -⟩
          · obtain rfl := Option.some.inj (handle.symm.trans held)
            exact runners.leave closed
          · have idle := (calm runner (List.mem_of_getElem? runners.found) runners.meets.1).2
            simp [Runner.exiting, last] at idle
          · exact absurd alone.meets (spawns _ _ alone.found)
      | gone alone => exact absurd alone.meets (spawns _ _ alone.found)
  | missed phase handle =>
      obtain ⟨spawns, calm⟩ := free phase
      refine .vacant spawns ?_ (fun _ => ⟨k, _, here _, ⟨rfl, rfl⟩, rfl⟩) (fun _ => ⟨k, _, here _, ⟨rfl, rfl⟩⟩)
      cases station with
      | vacant _ runners => exact runners
      | spawning alone => exact absurd alone.meets (spawns _ _ alone.found)
      | @up r' runner runners _ _ _ held =>
          rcases held with ⟨-, held | last⟩ | ⟨j, other, alone, -⟩
          · cases handle.symm.trans held
          · have idle := (calm runner (List.mem_of_getElem? runners.found) runners.meets.1).2
            simp [Runner.exiting, last] at idle
          · exact absurd alone.meets (spawns _ _ alone.found)
      | gone alone => exact absurd alone.meets (spawns _ _ alone.found)
  | unregistered phase =>
      obtain ⟨spawns, runners, -⟩ := station.of_stop found ⟨rfl, by rw [phase]; rfl⟩
      refine .vacant spawns runners ?_ (fun _ => ⟨k, _, here _, ⟨rfl, rfl⟩⟩)
      simp [stopGoes]
  | removed phase =>
      obtain ⟨spawns, runners, registry⟩ := station.of_stop found ⟨rfl, by rw [phase]; rfl⟩
      refine .vacant spawns runners ?_ (by simp [stopGoes])
      intro present
      obtain ⟨j, p, there, own, early⟩ := registry present
      have different : k ≠ j := by
        rintro rfl
        obtain rfl := Option.some.inj (found.symm.trans there)
        cases phase.symm.trans early
      exact ⟨j, p, (List.getElem?_set_ne different).trans there, own, early⟩

end Stop

/-! ## Runners -/

theorem crashed_phase (config : SupervisorConfig) (now : Nat) (runner : Runner) :
    (runner.crashed config now).phase = .unregister ∨ ∃ wake, (runner.crashed config now).phase = .sleeping wake := by
  by_cases exhausted : config.restartMaxInWindow <
      (if config.restartWindow < now - runner.windowStart then 0 else runner.restarts) + 1
  · exact Or.inl (if_pos exhausted)
  · exact Or.inr ⟨_, if_neg exhausted⟩

section Runner
variable {loops new : List (HandlerLoop sv)} {runner : Runner} (found : s.runners[r]? = some runner)
include found

theorem runner_elsewhere (moved : RunnerStep s loops r runner s' new) (other : runner.agent.id ≠ id) :
    SameStation id s s' := by
  have runners (after : Runner) (same : after.agent = runner.agent) :
      Agree (RunnerOf id) s.runners (s.runners.set r after) :=
    agree_set found (fun own => other own.1) (fun own => other (same ▸ own.1))
  cases moved with
  | polled | started | crashed | woken => exact { SameStation.refl id s with runners := runners _ rfl }
  | unregistered => exact { SameStation.refl id s with
      runners := runners _ rfl
      registry := by simp [runnerGoes, other.symm] }
  | handleRemoved => exact { SameStation.refl id s with
      runners := runners _ rfl
      handles := Function.update_of_ne other.symm .. }
  | agentRemoved => exact { SameStation.refl id s with
      runners := runners _ rfl
      agents := Function.update_of_ne other.symm .. }

theorem station_kept (station : Station s runner.agent.id) {after : Runner} (same : after.agent = runner.agent)
    (before : isRegistered runner.phase = true) (still : isRegistered after.phase = true) :
    Station (runnerGoes s r after) runner.agent.id := by
  have closed (phase : RunnerPhase) (registered : isRegistered phase = true) : isOpen phase = true := by
    cases phase <;> simp_all [isRegistered, isOpen]
  obtain ⟨alone, stops, registry, agents, handle⟩ := station.of_runner found ⟨rfl, closed _ before⟩
  refine .up (alone.set ⟨by rw [same], closed _ still⟩) stops ?_ agents ?_
  · simpa [runnerGoes, before, still] using registry
  · rcases handle with ⟨nobody, held | last⟩ | late
    · exact Or.inl ⟨nobody, Or.inl held⟩
    · simp [last, isRegistered] at before
    · exact Or.inr late

theorem station_runner (moved : RunnerStep s loops r runner s' new) (station : Station s runner.agent.id)
    (unaborted : runner.aborted = false) : Station s' runner.agent.id := by
  cases moved with
  | polled now phase => exact station_kept found station rfl (by rw [phase]; rfl) rfl
  | started phase =>
      refine station_kept found station rfl (by rw [phase]; rfl) ?_
      simp [unaborted, isRegistered]
  | crashed config now phase ended =>
      refine station_kept found station rfl (by rw [phase]; rfl) ?_
      rcases crashed_phase config now runner with gaveUp | ⟨wake, sleeps⟩
      · rw [gaveUp]; rfl
      · rw [sleeps]; rfl
  | woken delay phase => exact station_kept found station rfl (by rw [phase]; rfl) rfl
  | unregistered phase =>
      obtain ⟨alone, stops, -, agents, handle⟩ := station.of_runner found ⟨rfl, by rw [phase]; rfl⟩
      refine .up (alone.set ⟨rfl, rfl⟩) stops (by simp [runnerGoes, isRegistered]) agents ?_
      rcases handle with ⟨nobody, held | last⟩ | late
      · exact Or.inl ⟨nobody, Or.inl held⟩
      · cases phase.symm.trans last
      · exact Or.inr late
  | handleRemoved phase =>
      obtain ⟨alone, stops, registry, agents, handle⟩ := station.of_runner found ⟨rfl, by rw [phase]; rfl⟩
      refine .up (alone.set ⟨rfl, rfl⟩) stops ?_ agents ?_
      · simpa [runnerGoes, isRegistered, phase] using registry
      · rcases handle with ⟨nobody, -⟩ | late
        · exact Or.inl ⟨nobody, Or.inr rfl⟩
        · exact Or.inr late
  | agentRemoved phase =>
      obtain ⟨alone, stops, registry, agents, handle⟩ := station.of_runner found ⟨rfl, by rw [phase]; rfl⟩
      have left := alone.leave (y := { runner with phase := .finished }) (by simp [RunnerOf, isOpen])
      have unregistered : s.registry.get runner.agent.id = none := by
        simpa [phase, isRegistered] using registry
      rcases handle with ⟨nobody, -⟩ | ⟨k, call, spawns, late⟩
      · refine .vacant nobody left ?_ (by simp [runnerGoes])
        simp [runnerGoes, unregistered]
      · exact .gone spawns late stops left unregistered (by simp [runnerGoes])

end Runner

/-! ## The supervisor -/

structure Supervised (s : Supervisor) : Prop where
  stations : ∀ id, Station s id
  unaborted : ∀ x ∈ s.runners, x.aborted = false
  handles : ∀ id r, s.handles id = some r → ∃ x, s.runners[r]? = some x ∧ x.agent.id = id
  started : ∀ c ∈ s.spawns, ∀ r, c.phase = .insertHandle r → ∃ x, s.runners[r]? = some x ∧ x.agent.id = c.agent.id
  /-- A `stop` that has taken the handle has left no instance open that was there when it began. -/
  stopped : ∀ p ∈ s.stops, p.instances ≤ s.runners.length ∧ (p.phase ≠ .removeHandle →
    ∀ (r : Nat) (x : Runner), r < p.instances → s.runners[r]? = some x → x.agent.id = p.id → isOpen x.phase = false)

/-- `spawn` passes its check when no other call is at work on the id, and `stop` takes the handle when no `spawn` is
at work on the id, no runner of the id is starting a loop or cleaning up, and no loop of the id is live. -/
def Orderly (w : World sv) : Action sv → Prop
  | .supervise (.advanceSpawn k) => ∀ call ∈ w.supervisor.spawns[k]?,
      call.phase = .check → w.supervisor.agents call.agent.id = none →
        (∀ c ∈ w.supervisor.spawns, ¬SpawnOf call.agent.id c) ∧ ∀ p ∈ w.supervisor.stops, ¬StopOf call.agent.id p
  | .supervise (.advanceStop k) => ∀ call ∈ w.supervisor.stops[k]?, call.phase = .removeHandle →
      (∀ c ∈ w.supervisor.spawns, ¬SpawnOf call.id c) ∧
      (∀ x ∈ w.supervisor.runners, x.agent.id = call.id → x.phase ≠ .starting ∧ x.exiting = false) ∧
      ∀ loop ∈ w.traffic.loops, loop.agent.id = call.id → loop.status = .ended
  | _ => True

section SpawnCall
variable {call : Spawn} (inv : Supervised s) (found : s.spawns[k]? = some call)
  (moved : SpawnStep config s k call s')
include moved

theorem spawn_runners : s'.stops = s.stops ∧
    (s'.runners = s.runners ∨ s'.runners = s.runners ++ [.new config call.agent]) := by
  cases moved with
  | started => exact ⟨rfl, Or.inr rfl⟩
  | refused | checked | registered | inserted | handed => exact ⟨rfl, Or.inl rfl⟩

theorem spawn_runners_kept {r : Nat} {x : Runner} (there : s.runners[r]? = some x) : s'.runners[r]? = some x := by
  rcases (spawn_runners moved).2 with same | more
  · rw [same, there]
  · rw [more, List.getElem?_append_left (List.getElem?_eq_some_iff.mp there).1, there]

include inv found

theorem supervised_spawn
    (free : call.phase = .check → s.agents call.agent.id = none →
      Nobody (SpawnOf call.agent.id) s.spawns ∧ Nobody (StopOf call.agent.id) s.stops) : Supervised s' where
  stations := by
    intro id
    by_cases own : call.agent.id = id
    · subst own
      exact station_spawn found moved (inv.stations _) free
    · exact (inv.stations id).of_same (spawn_elsewhere found moved own)
  unaborted := by
    intro x member
    rcases (spawn_runners moved).2 with same | more
    · exact inv.unaborted x (same ▸ member)
    · rcases (mem_snoc).mp (more ▸ member) with old | rfl
      · exact inv.unaborted x old
      · rfl
  handles := by
    intro id r handle
    have old (before : s.handles id = some r) : ∃ x, s'.runners[r]? = some x ∧ x.agent.id = id := by
      obtain ⟨x, there, own⟩ := inv.handles id r before
      exact ⟨x, spawn_runners_kept moved there, own⟩
    cases moved with
    | refused | checked | registered | inserted | started => exact old handle
    | @handed r' phase =>
        change Function.update s.handles call.agent.id (some r') id = some r at handle
        rw [Function.update_apply] at handle
        split at handle
        · next own =>
            obtain rfl := Option.some.inj handle
            exact own ▸ inv.started call (List.mem_of_getElem? found) _ phase
        · exact old handle
  started := by
    intro c member r phase
    have old (before : c ∈ s.spawns) : ∃ x, s'.runners[r]? = some x ∧ x.agent.id = c.agent.id := by
      obtain ⟨x, there, own⟩ := inv.started c before r phase
      exact ⟨x, spawn_runners_kept moved there, own⟩
    cases moved with
    | started early =>
        rcases List.mem_or_eq_of_mem_set member with before | rfl
        · exact old before
        · obtain rfl := SpawnPhase.insertHandle.inj phase
          exact ⟨.new config call.agent, by simp [spawnGoes], rfl⟩
    | refused | checked | registered | inserted | handed =>
        rcases List.mem_or_eq_of_mem_set member with before | rfl
        · exact old before
        · cases phase
  stopped := by
    intro p member
    obtain ⟨stops, runners⟩ := spawn_runners moved
    obtain ⟨bound, closed⟩ := inv.stopped p (stops ▸ member)
    rcases runners with same | more
    · rw [same]
      exact ⟨bound, closed⟩
    · rw [more]
      refine ⟨bound.trans (by simp), fun taken r x early there own => ?_⟩
      rw [List.getElem?_append_left (early.trans_le bound)] at there
      exact closed taken r x early there own

end SpawnCall

section StopCall
variable {call : Stop} (moved : StopStep s k call s')
include moved

theorem stop_frame : s'.spawns = s.spawns ∧ s'.runners.length = s.runners.length ∧
    ∀ id r, s'.handles id = some r → s.handles id = some r := by
  have dropped (id : AgentId) (r : Nat) (held : Function.update s.handles call.id none id = some r) :
      s.handles id = some r := by
    rw [Function.update_apply] at held
    split at held
    · cases held
    · exact held
  cases moved with
  | aborted => exact ⟨rfl, List.length_modify .., dropped⟩
  | missed => exact ⟨rfl, rfl, dropped⟩
  | unregistered | removed => exact ⟨rfl, rfl, fun _ _ held => held⟩

theorem stop_runner {r : Nat} {x' : Runner} (there : s'.runners[r]? = some x') :
    ∃ x, s.runners[r]? = some x ∧
      (x' = x ∨ x' = x.abort ∧ s.handles call.id = some r ∧ call.phase = .removeHandle) := by
  cases moved with
  | aborted phase handle =>
      rcases modify_cases there with ⟨rfl, x, before, rfl⟩ | ⟨-, before⟩
      · exact ⟨x, before, Or.inr ⟨rfl, handle, phase⟩⟩
      · exact ⟨x', before, Or.inl rfl⟩
  | missed | unregistered | removed => exact ⟨x', there, Or.inl rfl⟩

theorem stop_runner_kept {r : Nat} {x : Runner} (there : s.runners[r]? = some x) :
    ∃ x', s'.runners[r]? = some x' ∧ x'.agent = x.agent := by
  have bound : r < s'.runners.length := by
    rw [(stop_frame moved).2.1]
    exact (List.getElem?_eq_some_iff.mp there).1
  obtain ⟨x', after⟩ : ∃ x', s'.runners[r]? = some x' := ⟨_, List.getElem?_eq_getElem bound⟩
  refine ⟨x', after, ?_⟩
  obtain ⟨x₀, before, rfl | ⟨rfl, -, -⟩⟩ := stop_runner moved after
  · rw [Option.some.inj (before.symm.trans there)]
  · rw [abort_agent, Option.some.inj (before.symm.trans there)]

theorem stop_closed {r : Nat} {x' : Runner} (there : s'.runners[r]? = some x')
    (closed : ∀ x, s.runners[r]? = some x → x.agent = x'.agent → isOpen x.phase = false) :
    isOpen x'.phase = false := by
  obtain ⟨x, before, rfl | ⟨rfl, -, -⟩⟩ := stop_runner moved there
  · exact closed _ before rfl
  · have shut := closed x before (abort_agent x).symm
    unfold Runner.abort
    cases phase : x.phase <;> simp_all [isOpen]

theorem supervised_stop (inv : Supervised s) (found : s.stops[k]? = some call)
    (free : call.phase = .removeHandle → Nobody (SpawnOf call.id) s.spawns ∧
      ∀ x ∈ s.runners, x.agent.id = call.id → x.phase ≠ .starting ∧ x.exiting = false) : Supervised s' := by
  have owner (r : Nat) := inv.handles call.id r
  obtain ⟨spawns, length, handles⟩ := stop_frame moved
  have stations (id : AgentId) : Station s' id := by
    by_cases own : call.id = id
    · subst own
      exact station_stop found moved owner (inv.stations _) free
    · exact (inv.stations id).of_same (stop_elsewhere found moved owner own)
  have left (p : Stop) (member : p ∈ s.stops) (taken : p.phase ≠ .removeHandle) (r : Nat) (x' : Runner)
      (early : r < p.instances) (there : s'.runners[r]? = some x') (own : x'.agent.id = p.id) :
      isOpen x'.phase = false :=
    stop_closed moved there fun x before same => (inv.stopped p member).2 taken r x early before (same ▸ own)
  refine ⟨stations, ?_, ?_, ?_, ?_⟩
  · intro x' member
    obtain ⟨r, there⟩ := List.mem_iff_getElem?.mp member
    obtain ⟨x, before, rfl | ⟨rfl, handle, phase⟩⟩ := stop_runner moved there
    · exact inv.unaborted _ (List.mem_of_getElem? before)
    · obtain ⟨y, known, own⟩ := owner r handle
      obtain rfl := Option.some.inj (known.symm.trans before)
      rw [(abort_closed ((free phase).2 _ (List.mem_of_getElem? before) own)).2]
      exact inv.unaborted _ (List.mem_of_getElem? before)
  · intro id r handle
    obtain ⟨x, there, own⟩ := inv.handles id r (handles id r handle)
    obtain ⟨x', after, same⟩ := stop_runner_kept moved there
    exact ⟨x', after, same ▸ own⟩
  · rw [spawns]
    intro c member r phase
    obtain ⟨x, there, own⟩ := inv.started c member r phase
    obtain ⟨x', after, same⟩ := stop_runner_kept moved there
    exact ⟨x', after, same ▸ own⟩
  · rw [length]
    have mine := inv.stopped call (List.mem_of_getElem? found)
    -- a call that takes the handle leaves its id vacant
    have took (phase : StopPhase) (here : s'.stops[k]? = some { call with phase })
        (underWay : stopUnderWay phase = true) (r : Nat) (x' : Runner) (there : s'.runners[r]? = some x')
        (own : x'.agent.id = call.id) : isOpen x'.phase = false := by
      obtain ⟨-, nobody, -⟩ := (stations call.id).of_stop here ⟨rfl, underWay⟩
      exact Bool.eq_false_iff.mpr fun shut => nobody r x' there ⟨own, shut⟩
    have here (phase : StopPhase) : (s.stops.set k { call with phase })[k]? = some { call with phase } :=
      List.getElem?_set_self (List.getElem?_eq_some_iff.mp found).1
    intro p member
    cases moved with
    | aborted | missed =>
        rcases List.mem_or_eq_of_mem_set member with old | rfl
        · exact ⟨(inv.stopped p old).1, left p old⟩
        · exact ⟨mine.1, fun _ r x' _ there own => took _ (here _) rfl r x' there own⟩
    | unregistered phase | removed phase =>
        rcases List.mem_or_eq_of_mem_set member with old | rfl
        · exact ⟨(inv.stopped p old).1, left p old⟩
        · exact ⟨mine.1, fun _ => left call (List.mem_of_getElem? found) (by simp [phase])⟩

end StopCall

section RunnerTask
variable {loops new : List (HandlerLoop sv)} {runner : Runner} (moved : RunnerStep s loops r runner s' new)
include moved

theorem runner_frame : s'.spawns = s.spawns ∧ s'.stops = s.stops ∧ isOpen runner.phase = true ∧
    (∃ after : Runner, s'.runners = s.runners.set r after ∧ after.agent = runner.agent ∧
      after.aborted = runner.aborted) ∧ ∀ id r', s'.handles id = some r' → s.handles id = some r' := by
  cases moved with
  | polled now phase => exact ⟨rfl, rfl, by rw [phase]; rfl, ⟨_, rfl, rfl, rfl⟩, fun _ _ held => held⟩
  | started phase => exact ⟨rfl, rfl, by rw [phase]; rfl, ⟨_, rfl, rfl, rfl⟩, fun _ _ held => held⟩
  | crashed config now phase ended => exact ⟨rfl, rfl, by rw [phase]; rfl, ⟨_, rfl, rfl, rfl⟩, fun _ _ held => held⟩
  | woken delay phase => exact ⟨rfl, rfl, by rw [phase]; rfl, ⟨_, rfl, rfl, rfl⟩, fun _ _ held => held⟩
  | unregistered phase => exact ⟨rfl, rfl, by rw [phase]; rfl, ⟨_, rfl, rfl, rfl⟩, fun _ _ held => held⟩
  | handleRemoved phase =>
      refine ⟨rfl, rfl, by rw [phase]; rfl, ⟨_, rfl, rfl, rfl⟩, fun id r' held => ?_⟩
      change Function.update s.handles runner.agent.id none id = some r' at held
      rw [Function.update_apply] at held
      split at held
      · cases held
      · exact held
  | agentRemoved phase => exact ⟨rfl, rfl, by rw [phase]; rfl, ⟨_, rfl, rfl, rfl⟩, fun _ _ held => held⟩

theorem supervised_runner (inv : Supervised s) (found : s.runners[r]? = some runner) : Supervised s' := by
  obtain ⟨spawns, stops, opened, ⟨after, runners, agent, aborted⟩, handles⟩ := runner_frame moved
  have unaborted := inv.unaborted runner (List.mem_of_getElem? found)
  have kept {r' : Nat} {id : AgentId} (known : ∃ x, s.runners[r']? = some x ∧ x.agent.id = id) :
      ∃ x, s'.runners[r']? = some x ∧ x.agent.id = id := by
    obtain ⟨x, there, own⟩ := known
    rw [runners]
    by_cases same : r = r'
    · subst same
      obtain rfl := Option.some.inj (found.symm.trans there)
      exact ⟨after, List.getElem?_set_self (List.getElem?_eq_some_iff.mp found).1, agent ▸ own⟩
    · exact ⟨x, (List.getElem?_set_ne same).trans there, own⟩
  refine ⟨?_, ?_, ?_, ?_, ?_⟩
  · intro id
    by_cases own : runner.agent.id = id
    · subst own
      exact station_runner found moved (inv.stations _) unaborted
    · exact (inv.stations id).of_same (runner_elsewhere found moved own)
  · rw [runners]
    intro x member
    rcases List.mem_or_eq_of_mem_set member with old | rfl
    · exact inv.unaborted x old
    · exact aborted.trans unaborted
  · exact fun id r' handle => kept (inv.handles id r' (handles id r' handle))
  · rw [spawns]
    exact fun c member r' phase => kept (inv.started c member r' phase)
  · rw [stops, runners]
    intro p member
    obtain ⟨bound, closed⟩ := inv.stopped p member
    refine ⟨by simpa using bound, fun taken r' x early there own => ?_⟩
    rcases set_cases there with ⟨rfl, rfl⟩ | ⟨-, before⟩
    · have shut := closed taken r' runner early found (agent ▸ own)
      rw [opened] at shut
      cases shut
    · exact closed taken r' x early before own

end RunnerTask

theorem supervised_called (inv : Supervised s) (agent : Agent) :
    Supervised { s with spawns := s.spawns ++ [{ agent, phase := .check }] } where
  stations := fun id => (inv.stations id).of_same { SameStation.refl id s with
    spawns := agree_snoc (by simp [SpawnOf, spawnUnderWay]) }
  unaborted := inv.unaborted
  handles := inv.handles
  started := by
    intro c member r phase
    rcases (mem_snoc).mp member with old | rfl
    · exact inv.started c old r phase
    · cases phase
  stopped := inv.stopped

theorem supervised_asked (inv : Supervised s) (id : AgentId) :
    Supervised { s with stops := s.stops ++ [{ id, instances := s.runners.length, phase := .removeHandle }] } where
  stations := fun id => (inv.stations id).of_same { SameStation.refl id s with
    stops := agree_snoc (by simp [StopOf, stopUnderWay]) }
  unaborted := inv.unaborted
  handles := inv.handles
  started := inv.started
  stopped := by
    intro p member
    rcases (mem_snoc).mp member with old | rfl
    · exact inv.stopped p old
    · exact ⟨le_rfl, fun taken => absurd rfl taken⟩

end Daimon.Proof.Runtime
