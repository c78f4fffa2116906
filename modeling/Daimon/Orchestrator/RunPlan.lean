import Daimon.Orchestrator.Dispatch
import Daimon.Lib.Run

/-!
# Plan execution

`OrchestratorService::run_plan` (`daimon-orchestrator/src/service.rs`) as a machine. A phase names the next
statement or dispatch; one step runs up to the point where the call next waits, so a database
statement, a registry lookup and the return of a dispatch are steps of their own. What the call
learns at a step is the step's answer.
-/

namespace Daimon.Orchestrator
open Daimon.Core Lib
open Daimon.Runtime (CapabilityRegistry)

variable (sv : Semver)

inductive Phase where
  | setExecuting
  | listSteps
  | scan
  | markRunning (idx : Nat) (step : Step)
  | dispatchStep (idx : Nat) (step : Step)
  | awaitReply (idx : Nat) (step : Step) (request : Request sv)
  | recordStep (idx : Nat) (step : Step) (outcome : Except Error Json)
  | compensate (todo : List Nat)
  | awaitCompensator (idx : Nat) (step : Step) (request : Request sv) (rest : List Nat)
  | recordCompensated (idx : Nat) (step : Step) (reply : Json) (rest : List Nat)
  | finish (status : PlanStatus)
  | returned (result : Except Error PlanStatus)
  | crashed
  deriving DecidableEq

/-- The local variables of one call. `failed` of the source is the phase: the compensation pass runs
exactly when it is set. -/
structure Runner where
  steps : List Step
  done : List Uuid
  succeededOrder : List Nat
  phase : Phase sv
  deriving DecidableEq

def Runner.new : Runner sv := { steps := [], done := [], succeededOrder := [], phase := .setExecuting }

inductive Answer where
  | go
  | failed (error : Error)
  | dispatched (outcome : Except DispatchError Json)
  | registry (registry : CapabilityRegistry)
  deriving DecidableEq

inductive Event where
  | planStatus (status : PlanStatus)
  | dispatched (idx : Nat)
  | stepStatus (idx : Nat) (status : StepStatus)
  | compensating (idx : Nat) (comp : CompensatingCapability)
  | compensatorSent (idx : Nat) (request : Request sv)
  deriving DecidableEq

structure Moved where
  rows : PlanRows
  runner : Runner sv
  events : List (Event sv)
  deriving DecidableEq

variable {sv}

def Step.isPending (step : Step) : Bool := step.status == .pending

def Step.isRunnable (done : List Uuid) (step : Step) : Bool :=
  step.isPending && step.dependsOn.all fun d => done.contains d

def nextRunnable (steps : List Step) (done : List Uuid) : Option (Step × Nat) :=
  steps.zipIdx.find? fun (step, _) => step.isRunnable done

def setStatus (steps : List Step) (idx : Nat) (status : StepStatus) : List Step :=
  steps.modify idx fun s => { s with status }

def leaveLoop (r : Runner sv) : Phase sv :=
  if r.steps.any fun s => s.status == .pending || s.status == .running
  then .compensate r.succeededOrder.reverse else .finish .succeeded

def advance (rows : PlanRows) (r : Runner sv) (answer : Answer) : Option (Moved sv) :=
  match r.phase, answer with
  | .setExecuting, .go =>
      some ⟨rows.setPlanStatus .executing, { r with phase := .listSteps }, [.planStatus .executing]⟩
  | .listSteps, .go =>
      some ⟨rows, { r with
        steps := rows.steps
        phase := if rows.steps.isEmpty then .finish .succeeded else .scan }, []⟩
  | .scan, .go =>
      some ⟨rows, { r with
        phase := match nextRunnable r.steps r.done with
          | some (step, idx) => .markRunning idx step
          | none => leaveLoop r }, []⟩
  | .markRunning idx step, .go =>
      some ⟨rows.setStepStatus step.id .running none true, { r with
        steps := setStatus r.steps idx .running
        phase := .dispatchStep idx step }, [.stepStatus idx .running]⟩
  | .dispatchStep idx step, .go =>
      some ⟨rows, { r with
        phase := match stepRequest sv step with
          | .ok request => .awaitReply idx step request
          | .error e => .recordStep idx step (.error e) }, [.dispatched idx]⟩
  | .awaitReply idx step _, .dispatched outcome =>
      some ⟨rows, { r with phase := .recordStep idx step (readStepReply step outcome) }, []⟩
  | .recordStep idx step (.ok result), .go =>
      some ⟨rows.setStepStatus step.id .succeeded (some result) false, { r with
        steps := r.steps.modify idx fun s => { s with status := .succeeded, result := some result }
        done := step.id :: r.done
        succeededOrder := r.succeededOrder ++ [idx]
        phase := .scan }, [.stepStatus idx .succeeded]⟩
  | .recordStep idx step (.error e), .go =>
      some ⟨rows.setStepStatus step.id .failed
          (some (Json.ofFields [("error", .string e.display)])) false, { r with
        steps := setStatus r.steps idx .failed
        phase := .compensate r.succeededOrder.reverse }, [.stepStatus idx .failed]⟩
  | .compensate [], .go => some ⟨rows, { r with phase := .finish .failed }, []⟩
  | .compensate (idx :: rest), .registry registry =>
      match r.steps[idx]? with
      | none => none
      | some step =>
          match compensatorFor sv registry step.capabilityName with
          | none => some ⟨rows, { r with phase := .compensate rest }, []⟩
          | some comp =>
              match compensatorRequest sv step comp with
              | .error _ =>
                  some ⟨rows, { r with phase := .compensate rest }, [.compensating idx comp]⟩
              | .ok request =>
                  some ⟨rows, { r with phase := .awaitCompensator idx step request rest },
                    [.compensating idx comp, .compensatorSent idx request]⟩
  | .awaitCompensator idx step _ rest, .dispatched outcome =>
      some ⟨rows, { r with
        phase := match readCompensatorReply outcome with
          | .ok reply => .recordCompensated idx step reply rest
          | .error _ => .compensate rest }, []⟩
  | .recordCompensated idx step reply rest, .go =>
      some ⟨rows.setStepStatus step.id .compensated (some reply) false, { r with
        steps := setStatus r.steps idx .compensated
        phase := .compensate rest }, [.stepStatus idx .compensated]⟩
  -- A failed compensation is logged and the pass goes on.
  | .recordCompensated _ _ _ rest, .failed _ => some ⟨rows, { r with phase := .compensate rest }, []⟩
  | .finish status, .go =>
      some ⟨rows.setPlanStatus status, { r with phase := .returned (.ok status) }, [.planStatus status]⟩
  | .setExecuting, .failed e | .listSteps, .failed e | .markRunning _ _, .failed e
  | .recordStep _ _ _, .failed e | .finish _, .failed e =>
      some ⟨rows, { r with phase := .returned (.error e) }, []⟩
  | _, _ => none

/-! ## One call

A call that is alone on its plan, driven by an environment that fixes the outcome of each dispatch,
the registry at each lookup and the failures of the database.
-/

variable (sv) in
structure Execution where
  rows : PlanRows
  runner : Runner sv
  log : List (Event sv)
  deriving DecidableEq

def Execution.start (rows : PlanRows) : Execution sv := { rows, runner := .new sv, log := [] }

def Execution.step (x : Execution sv) (answer : Answer) : Option (Execution sv) :=
  (advance x.rows x.runner answer).map fun m => { rows := m.rows, runner := m.runner, log := x.log ++ m.events }

variable (sv) in
/-- No step is dispatched twice and no statement is issued twice, so outcomes that are functions of the
step, or of the phase that issues a statement, say what every call can meet. -/
structure Environment where
  dispatch : Nat → Except DispatchError Json
  registry : Nat → CapabilityRegistry
  compensate : Nat → Except DispatchError Json
  database : Phase sv → Option Error

def Environment.write (env : Environment sv) (phase : Phase sv) : Answer :=
  match env.database phase with
  | some e => .failed e
  | none => .go

def Environment.answer (env : Environment sv) : Phase sv → Answer
  | .awaitReply idx _ _ => .dispatched (env.dispatch idx)
  | .compensate (idx :: _) => .registry (env.registry idx)
  | .awaitCompensator idx _ _ _ => .dispatched (env.compensate idx)
  | .scan | .dispatchStep _ _ | .compensate [] => .go
  | phase => env.write phase

def Environment.drive (env : Environment sv) : Nat → Execution sv → Execution sv
  | 0, x => x
  | fuel + 1, x =>
      match x.step (env.answer x.runner.phase) with
      | some y => env.drive fuel y
      | none => x

/-! ## Many calls

Any number of calls on one plan, in any order and overlapping in any way; a call can be lost at any
point, with its process or with the request that made it.
-/

variable (sv) in
structure Service where
  rows : PlanRows
  runners : List (Runner sv)
  log : List (Nat × Event sv)
  deriving DecidableEq

namespace Service

def start (rows : PlanRows) : Service sv := { rows, runners := [], log := [] }

inductive Action where
  | call
  | advance (call : Nat) (answer : Answer)
  | crash (call : Nat)
  deriving DecidableEq

def step (w : Service sv) : Action → Option (Service sv)
  | .call => some { w with runners := w.runners ++ [.new sv] }
  | .advance i answer =>
      match w.runners[i]? with
      | some r => (Orchestrator.advance w.rows r answer).map fun m =>
          { rows := m.rows, runners := w.runners.set i m.runner, log := w.log ++ m.events.map (i, ·) }
      | none => none
  | .crash i =>
      match w.runners[i]? with
      | some { phase := .returned _, .. } => none
      | some r => some { w with runners := w.runners.set i { r with phase := .crashed } }
      | none => none

end Service
end Daimon.Orchestrator
