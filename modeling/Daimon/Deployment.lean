import Daimon.Broker.Execute
import Daimon.Orchestrator.RunPlan
import Daimon.Runtime.Bus

/-!
# A plan, its agents and the broker

One `run_plan` call over the bus: `Dispatcher::dispatch` (`daimon-runtime/src/dispatcher.rs`), the agents'
handler loops (`run_agent_loop`, `daimon-runtime/src/supervisor.rs`) and the broker they share. The call, each
agent, each `broker.execute` and the clock move in any order.
-/

namespace Daimon.Deployment
open Daimon.Core Lib Orchestrator
open Broker (ExecRequest OpResult BrokerError)
open Daimon.Runtime (AgentEnvelope CapabilityRegistry envelopeAddressedTo enqueue)

variable (sv : Semver)

/-- A driver's `handle`: the request it hands to `broker.execute`, or the reply it sends without one,
and the reply it makes of the broker's result. -/
structure Handler where
  render : AgentEnvelope sv → Except Json ExecRequest
  respond : AgentEnvelope sv → Except BrokerError OpResult → Json

structure Worker where
  id : AgentId
  capabilities : List Capability
  backlog : List (AgentEnvelope sv)
  current : Option (AgentEnvelope sv × Nat)
  deriving DecidableEq

structure Waiting where
  correlationId : Uuid
  sender : AgentId
  deadline : Option Nat
  backlog : List (AgentEnvelope sv)
  deriving DecidableEq

/-- `sent` are the correlation ids of the call's own requests; `served` says which broker call handles
which request. -/
structure System where
  broker : Broker.World
  rows : PlanRows
  runner : Runner sv
  dispatch : Option (Waiting sv)
  workers : List (Worker sv)
  sent : List Uuid
  served : List (Nat × Uuid)
  deriving DecidableEq

def System.start (rows : PlanRows) : System sv :=
  { broker := .new, rows, runner := .new sv, dispatch := none, workers := [], sent := [], served := [] }

inductive Action where
  | plan (answer : Answer)
  | dispatch (registry : CapabilityRegistry) (correlationId : Uuid)
  | arm
  | receive
  | timeout
  | publish (env : AgentEnvelope sv)
  | spawn (id : AgentId) (capabilities : List Capability)
  | take (worker : Nat)
  | finish (worker : Nat)
  | restart (worker : Nat)
  | broker (action : Broker.Action)
  deriving DecidableEq

variable {sv}

def Waiting.accepts (wt : Waiting sv) (env : AgentEnvelope sv) : Bool :=
  env.correlationId == wt.correlationId && env.recipient == .direct wt.sender

def awaited : Phase sv → Option (Request sv)
  | .awaitReply _ _ request | .awaitCompensator _ _ request _ => some request
  | _ => none

def System.advance (d : System sv) (answer : Answer) : Option (System sv) :=
  (Orchestrator.advance d.rows d.runner answer).map fun m =>
    { d with rows := m.rows, runner := m.runner }

def System.dispatched (d : System sv) (outcome : Except DispatchError Json) : Option (System sv) :=
  { d with dispatch := none }.advance (.dispatched outcome)

def Worker.deliver (env : AgentEnvelope sv) (w : Worker sv) : Worker sv :=
  { w with backlog := enqueue w.backlog env }

@[simp] theorem Worker.deliver_current (env : AgentEnvelope sv) (w : Worker sv) :
    (w.deliver env).current = w.current := rfl

def Waiting.deliver (env : AgentEnvelope sv) (wt : Waiting sv) : Waiting sv :=
  { wt with backlog := enqueue wt.backlog env }

@[simp] theorem Waiting.deliver_correlationId (env : AgentEnvelope sv) (wt : Waiting sv) :
    (wt.deliver env).correlationId = wt.correlationId := rfl

/-- `bus.send`: the envelope goes to every agent and to the waiting dispatch. -/
def System.send (d : System sv) (env : AgentEnvelope sv) : System sv :=
  { d with workers := d.workers.map (Worker.deliver env), dispatch := d.dispatch.map (Waiting.deliver env) }

def step (b : Broker.Config) (handler : AgentId → Handler sv) (d : System sv) : Action sv → Option (System sv)
  | .plan answer => if awaited d.runner.phase = none then d.advance answer else none
  -- Resolve and fail closed before anything is sent; subscribe before sending.
  | .dispatch registry correlationId =>
      match awaited d.runner.phase, d.dispatch with
      | some request, none =>
          match registry.requireByCapability sv request.name request.versionReq with
          | .error _ => d.dispatched (.error (.capabilityNotFound
              (request.name ++ " @ " ++ sv.display request.versionReq)))
          | .ok _ =>
              let recipient := .byCapability request.name request.versionReq
              let env : AgentEnvelope sv := { correlationId, sender := request.sender, recipient, body := request.body }
              let waiting : Waiting sv := { correlationId, sender := request.sender, deadline := none, backlog := [] }
              some ({ d with dispatch := some waiting, sent := correlationId :: d.sent }.send env)
      | _, _ => none
  | .arm =>
      match d.dispatch with
      | some wt@{ deadline := none, .. } => some { d with
          dispatch := some { wt with deadline := some (d.broker.guard.now + 1000 * stepDispatchTimeoutSecs) } }
      | _ => none
  -- Whatever is not the reply is skipped, the request itself among it.
  | .receive =>
      match d.dispatch with
      | some wt@{ deadline := some _, backlog := env :: rest, .. } =>
          if wt.accepts env then d.dispatched (.ok env.body)
          else some { d with dispatch := some { wt with backlog := rest } }
      | _ => none
  | .timeout =>
      match d.dispatch with
      | some { deadline := some deadline, .. } =>
          if deadline ≤ d.broker.guard.now then d.dispatched (.error (.timeout stepDispatchTimeoutSecs)) else none
      | _ => none
  -- Other callers put requests of their own on the bus; correlation ids are drawn at random.
  | .publish env => if env.correlationId ∈ d.sent then none else some (d.send env)
  | .spawn id capabilities =>
      some { d with workers := d.workers ++ [{ id, capabilities, backlog := [], current := none }] }
  -- An idle agent receives its next envelope and handles it if it is addressed to it.
  | .take i =>
      match d.workers[i]? with
      | some w@{ backlog := env :: rest, current := none, .. } =>
          if envelopeAddressedTo env w.id w.capabilities then
            match (handler w.id).render env with
            | .error body =>
                some ({ d with workers := d.workers.set i { w with backlog := rest } }.send (env.replyTo w.id body))
            | .ok req =>
                (Broker.step b d.broker (.submit req)).map fun broker => { d with
                  broker
                  workers := d.workers.set i { w with
                    backlog := rest
                    current := some (env, d.broker.calls.length) }
                  served := if env.isRequest then (d.broker.calls.length, env.correlationId) :: d.served
                    else d.served }
          else some { d with workers := d.workers.set i { w with backlog := rest } }
      | _ => none
  | .finish i =>
      match d.workers[i]? with
      | some w@{ current := some (env, call), .. } =>
          match d.broker.calls[call]? with
          | some { phase := .done result, .. } =>
              some ({ d with workers := d.workers.set i { w with current := none } }.send
                (env.replyTo w.id ((handler w.id).respond env result)))
          | _ => none
      | _ => none
  -- An agent that panicked starts over with a new subscription.
  | .restart i =>
      match d.workers[i]? with
      | some w@{ current := some (_, call), .. } =>
          match d.broker.calls[call]? with
          | some { phase := .panicked, .. } =>
              some { d with workers := d.workers.set i { w with backlog := [], current := none } }
          | _ => none
      | _ => none
  | .broker action => (Broker.step b d.broker action).map fun broker => { d with broker }

def StartsTransport (b : Broker.Config) (handler : AgentId → Handler sv) (d : System sv) (action : Action sv)
    (call : Nat) : Prop :=
  ∃ d' target op credential, step b handler d action = some d' ∧
    d'.broker.log = d.broker.log ++ [.transportStarted call target op credential]

end Daimon.Deployment
