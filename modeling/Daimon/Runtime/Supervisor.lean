import Mathlib.Logic.Function.Basic
import Daimon.Lib.Run
import Daimon.Runtime.Dispatcher

/-!
# The supervisor

`Supervisor::spawn`, `spawn_runner` and `stop` (`daimon-runtime/src/supervisor.rs`) and the whole runtime around
them. Each call and each runner takes its locks one at a time, and everything moves in any order. `shutdown` is a
sequence of `stop` calls. Times and durations are in nanoseconds.
-/

namespace Daimon.Runtime
open Daimon.Core Lib Dispatcher

structure SupervisorConfig where
  restartInitialDelay : Nat
  restartMaxDelay : Nat
  restartMaxInWindow : Nat
  restartWindow : Nat
  deriving DecidableEq, Repr

def SupervisorConfig.default : SupervisorConfig :=
  { restartInitialDelay := 100000000
    restartMaxDelay := 30000000000
    restartMaxInWindow := 5
    restartWindow := 60000000000 }

inductive RuntimeError where
  | duplicateAgent (id : String)
  deriving DecidableEq, Repr

/-! ## Runners -/

/-- Where the task of `spawn_runner` stands. It waits in `created` for its first poll, in `running` for its
inner task and in `sleeping` for its restart delay; the three phases before `finished` are its cleanup. -/
inductive RunnerPhase where
  | created
  | starting
  | running (loop : Nat)
  | sleeping (wake : Nat)
  | unregister
  | removeHandle
  | removeAgent
  | finished
  | cancelled
  deriving DecidableEq, Repr

/-- `aborted` marks a runner whose handle was aborted while it was being polled. -/
structure Runner where
  agent : Agent
  phase : RunnerPhase
  aborted : Bool
  delay : Nat
  restarts : Nat
  windowStart : Nat
  deriving DecidableEq

namespace Runner

def new (config : SupervisorConfig) (agent : Agent) : Runner :=
  { agent, phase := .created, aborted := false, delay := config.restartInitialDelay, restarts := 0, windowStart := 0 }

/-- `JoinHandle::abort` of the outer task. A waiting task is dropped where it stands, one that is being polled
goes on to its next wait. The inner task is a task of its own: dropping its handle detaches it. -/
def abort (runner : Runner) : Runner :=
  match runner.phase with
  | .created | .running _ | .sleeping _ => { runner with phase := .cancelled }
  | .starting | .unregister | .removeHandle | .removeAgent => { runner with aborted := true }
  | .finished | .cancelled => runner

def exiting (runner : Runner) : Bool :=
  match runner.phase with
  | .unregister | .removeHandle | .removeAgent => true
  | _ => false

def crashed (config : SupervisorConfig) (now : Nat) (runner : Runner) : Runner :=
  let fresh := config.restartWindow < now - runner.windowStart
  let restarts := (if fresh then 0 else runner.restarts) + 1
  { runner with
    windowStart := if fresh then now else runner.windowStart
    restarts
    phase := if config.restartMaxInWindow < restarts then .unregister else .sleeping (now + runner.delay) }

end Runner

/-! ## The supervisor's maps and calls -/

inductive SpawnPhase where
  | check
  | register
  | insertAgent
  | startRunner
  | insertHandle (runner : Nat)
  | returned (outcome : Except RuntimeError Unit)
  deriving DecidableEq

structure Spawn where
  agent : Agent
  phase : SpawnPhase
  deriving DecidableEq

inductive StopPhase where
  | removeHandle
  | unregister
  | removeAgent
  | returned
  deriving DecidableEq, Repr

/-- `instances` is the number of runners there were when the call began: those of them with its id are the
instances it is asked to stop. -/
structure Stop where
  id : AgentId
  instances : Nat
  phase : StopPhase
  deriving DecidableEq

/-- The hash maps `handles` and `agents` are functions; a handle is the number of its runner. -/
structure Supervisor where
  registry : CapabilityRegistry
  agents : AgentId → Option Agent
  handles : AgentId → Option Nat
  runners : List Runner
  spawns : List Spawn
  stops : List Stop

inductive SupervisorAction where
  | spawn (agent : Agent)
  | stop (id : AgentId)
  | advanceSpawn (k : Nat)
  | advanceStop (k : Nat)
  | advanceRunner (r : Nat)
  | cancelRunner (r : Nat)
  deriving DecidableEq

structure World (sv : Semver) where
  now : Nat
  supervisor : Supervisor
  traffic : Traffic sv

namespace Supervisor

def new (registry : CapabilityRegistry) : Supervisor :=
  { registry, agents := fun _ => none, handles := fun _ => none, runners := [], spawns := [], stops := [] }

def spawnStep (config : SupervisorConfig) (s : Supervisor) (k : Nat) (call : Spawn) : Option Supervisor :=
  let id := call.agent.id
  let goes (s : Supervisor) (phase : SpawnPhase) : Option Supervisor :=
    some { s with spawns := s.spawns.set k { call with phase } }
  match call.phase with
  | .check =>
      if (s.agents id).isSome then goes s (.returned (.error (.duplicateAgent id.name)))
      else goes s .register
  | .register => goes { s with registry := s.registry.register id call.agent.capabilities } .insertAgent
  | .insertAgent => goes { s with agents := Function.update s.agents id (some call.agent) } .startRunner
  | .startRunner =>
      goes { s with runners := s.runners ++ [.new config call.agent] } (.insertHandle s.runners.length)
  | .insertHandle r => goes { s with handles := Function.update s.handles id (some r) } (.returned (.ok ()))
  | .returned _ => none

def stopStep (s : Supervisor) (k : Nat) (call : Stop) : Option Supervisor :=
  let goes (s : Supervisor) (phase : StopPhase) : Option Supervisor :=
    some { s with stops := s.stops.set k { call with phase } }
  match call.phase with
  | .removeHandle =>
      let runners := match s.handles call.id with
        | some r => s.runners.modify r Runner.abort
        | none => s.runners
      goes { s with runners, handles := Function.update s.handles call.id none } .unregister
  | .unregister => goes { s with registry := s.registry.unregister call.id } .removeAgent
  | .removeAgent => goes { s with agents := Function.update s.agents call.id none } .returned
  | .returned => none

end Supervisor

namespace World

variable {sv : Semver}

def new (registry : CapabilityRegistry) : World sv :=
  { now := 0, supervisor := .new registry, traffic := .new }

def setRunner (w : World sv) (r : Nat) (runner : Runner) : World sv :=
  { w with supervisor := { w.supervisor with runners := w.supervisor.runners.set r runner } }

def runnerStep (config : SupervisorConfig) (w : World sv) (r : Nat) (runner : Runner) : Option (World sv) :=
  let id := runner.agent.id
  match runner.phase with
  | .created => some (w.setRunner r { runner with phase := .starting, windowStart := w.now })
  | .starting =>
      let phase := if runner.aborted then .cancelled else .running w.traffic.loops.length
      some { w.setRunner r { runner with phase } with
        traffic := { w.traffic with loops := w.traffic.loops ++ [.start r runner.agent] } }
  | .running l =>
      if (w.traffic.loops[l]?).map HandlerLoop.status = some .ended then
        some (w.setRunner r (runner.crashed config w.now))
      else none
  | .sleeping wake =>
      if wake ≤ w.now then
        some (w.setRunner r
          { runner with phase := .starting, delay := min (runner.delay * 2) config.restartMaxDelay })
      else none
  | .unregister =>
      let w := w.setRunner r { runner with phase := .removeHandle }
      some { w with supervisor := { w.supervisor with registry := w.supervisor.registry.unregister id } }
  | .removeHandle =>
      let w := w.setRunner r { runner with phase := .removeAgent }
      some { w with supervisor := { w.supervisor with handles := Function.update w.supervisor.handles id none } }
  | .removeAgent =>
      let w := w.setRunner r { runner with phase := .finished }
      some { w with supervisor := { w.supervisor with agents := Function.update w.supervisor.agents id none } }
  | .finished | .cancelled => none

def supervise (config : SupervisorConfig) (w : World sv) : SupervisorAction → Option (World sv)
  | .spawn agent => some { w with supervisor :=
      { w.supervisor with spawns := w.supervisor.spawns ++ [{ agent, phase := .check }] } }
  | .stop id => some { w with supervisor :=
      { w.supervisor with stops := w.supervisor.stops ++
          [{ id, instances := w.supervisor.runners.length, phase := .removeHandle }] } }
  | .advanceSpawn k =>
      match w.supervisor.spawns[k]? with
      | some call => (w.supervisor.spawnStep config k call).map fun supervisor => { w with supervisor }
      | none => none
  | .advanceStop k =>
      match w.supervisor.stops[k]? with
      | some call => (w.supervisor.stopStep k call).map fun supervisor => { w with supervisor }
      | none => none
  | .advanceRunner r =>
      match w.supervisor.runners[r]? with
      | some runner => w.runnerStep config r runner
      | none => none
  -- an aborted runner is dropped when its cleanup has to wait for a lock
  | .cancelRunner r =>
      match w.supervisor.runners[r]? with
      | some runner =>
          if runner.aborted && runner.exiting then some (w.setRunner r { runner with phase := .cancelled }) else none
      | none => none

end World

/-! ## The runtime -/

/-- `publish` is any envelope that anyone puts on the bus, and `elapse` the clock. -/
inductive Action (sv : Semver) where
  | supervise (action : SupervisorAction)
  | dispatch (sender : AgentId) (name : String) (versionReq : sv.VersionReq) (body : Json) (timeout : Nat)
  | call (i : Nat) (action : CallAction)
  | send (i : Nat) (correlationId : Uuid)
  | loop (l : Nat) (action : LoopAction)
  | reply (l : Nat) (sender : AgentId) (body : Json)
  | publish (envelope : AgentEnvelope sv)
  | elapse (nanos : Nat)
  deriving DecidableEq

variable {sv : Semver}

def World.step (config : SupervisorConfig) (w : World sv) : Action sv → Option (World sv)
  | .supervise action => w.supervise config action
  | .dispatch sender name versionReq body timeout => some { w with traffic :=
      { w.traffic with calls := w.traffic.calls ++ [.new sender name versionReq body timeout] } }
  | .call i action =>
      (w.traffic.advanceCall w.now w.supervisor.registry i action).map fun traffic => { w with traffic }
  | .send i correlationId => (w.traffic.send i correlationId).map fun traffic => { w with traffic }
  | .loop l action => (w.traffic.advanceLoop l action).map fun traffic => { w with traffic }
  | .reply l sender body => (w.traffic.reply l sender body).map fun traffic => { w with traffic }
  | .publish envelope => some { w with traffic := w.traffic.put (w.traffic.message .other none envelope) }
  | .elapse nanos => some { w with now := w.now + nanos }

end Daimon.Runtime
