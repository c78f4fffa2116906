import Daimon.Orchestrator.RunPlan

/-!
# What one step of a call can do

The transitions of `run_plan`, one for each way through a phase.
-/

namespace Daimon.Proof.Orchestrator
open Daimon.Core Lib Daimon.Orchestrator

variable {sv : Semver}

/-- The phases whose statement ends the call when it fails. -/
def Abortable : Phase sv → Prop
  | .setExecuting | .listSteps | .markRunning _ _ | .recordStep _ _ _ | .finish _ => True
  | _ => False

inductive Transition (rows : PlanRows) (r : Runner sv) : Answer → Moved sv → Prop where
  | execute (at_phase : r.phase = .setExecuting) : Transition rows r .go
      ⟨rows.setPlanStatus .executing, { r with phase := .listSteps }, [.planStatus .executing]⟩
  | listNone (at_phase : r.phase = .listSteps) (empty : rows.steps = []) : Transition rows r .go
      ⟨rows, { r with steps := rows.steps, phase := .finish .succeeded }, []⟩
  | list (at_phase : r.phase = .listSteps) : Transition rows r .go
      ⟨rows, { r with steps := rows.steps, phase := .scan }, []⟩
  | choose {step : Step} {idx : Nat} (at_phase : r.phase = .scan)
      (next : nextRunnable r.steps r.done = some (step, idx)) : Transition rows r .go
      ⟨rows, { r with phase := .markRunning idx step }, []⟩
  | leave (at_phase : r.phase = .scan) (next : nextRunnable r.steps r.done = none) : Transition rows r .go
      ⟨rows, { r with phase := leaveLoop r }, []⟩
  | mark {idx : Nat} {step : Step} (at_phase : r.phase = .markRunning idx step) : Transition rows r .go
      ⟨rows.setStepStatus step.id .running none true, { r with
        steps := setStatus r.steps idx .running
        phase := .dispatchStep idx step }, [.stepStatus idx .running]⟩
  | send {idx : Nat} {step : Step} {request : Request sv} (at_phase : r.phase = .dispatchStep idx step)
      (built : stepRequest sv step = .ok request) : Transition rows r .go
      ⟨rows, { r with phase := .awaitReply idx step request }, [.dispatched idx]⟩
  | refuse {idx : Nat} {step : Step} {e : Error} (at_phase : r.phase = .dispatchStep idx step)
      (built : stepRequest sv step = .error e) : Transition rows r .go
      ⟨rows, { r with phase := .recordStep idx step (.error e) }, [.dispatched idx]⟩
  | reply {idx : Nat} {step : Step} {request : Request sv} {outcome : Except DispatchError Json}
      (at_phase : r.phase = .awaitReply idx step request) : Transition rows r (.dispatched outcome)
      ⟨rows, { r with phase := .recordStep idx step (readStepReply step outcome) }, []⟩
  | succeed {idx : Nat} {step : Step} {result : Json} (at_phase : r.phase = .recordStep idx step (.ok result)) :
      Transition rows r .go
      ⟨rows.setStepStatus step.id .succeeded (some result) false, { r with
        steps := r.steps.modify idx fun s => { s with status := .succeeded, result := some result }
        done := step.id :: r.done
        succeededOrder := r.succeededOrder ++ [idx]
        phase := .scan }, [.stepStatus idx .succeeded]⟩
  | fail {idx : Nat} {step : Step} {e : Error} (at_phase : r.phase = .recordStep idx step (.error e)) :
      Transition rows r .go
      ⟨rows.setStepStatus step.id .failed (some (Json.ofFields [("error", .string e.display)])) false, { r with
        steps := setStatus r.steps idx .failed
        phase := .compensate r.succeededOrder.reverse }, [.stepStatus idx .failed]⟩
  | rolledBack (at_phase : r.phase = .compensate []) : Transition rows r .go
      ⟨rows, { r with phase := .finish .failed }, []⟩
  | skip {idx : Nat} {rest : List Nat} {registry : Daimon.Runtime.CapabilityRegistry} {step : Step}
      (at_phase : r.phase = .compensate (idx :: rest)) (found : r.steps[idx]? = some step)
      (resolved : compensatorFor sv registry step.capabilityName = none) : Transition rows r (.registry registry)
      ⟨rows, { r with phase := .compensate rest }, []⟩
  | unsendable {idx : Nat} {rest : List Nat} {registry : Daimon.Runtime.CapabilityRegistry} {step : Step}
      {comp : CompensatingCapability} {e : Error}
      (at_phase : r.phase = .compensate (idx :: rest)) (found : r.steps[idx]? = some step)
      (resolved : compensatorFor sv registry step.capabilityName = some comp)
      (built : compensatorRequest sv step comp = .error e) : Transition rows r (.registry registry)
      ⟨rows, { r with phase := .compensate rest }, [.compensating idx comp]⟩
  | compensate {idx : Nat} {rest : List Nat} {registry : Daimon.Runtime.CapabilityRegistry} {step : Step}
      {comp : CompensatingCapability} {request : Request sv}
      (at_phase : r.phase = .compensate (idx :: rest)) (found : r.steps[idx]? = some step)
      (resolved : compensatorFor sv registry step.capabilityName = some comp)
      (built : compensatorRequest sv step comp = .ok request) : Transition rows r (.registry registry)
      ⟨rows, { r with phase := .awaitCompensator idx step request rest },
        [.compensating idx comp, .compensatorSent idx request]⟩
  | compensatorReplied {idx : Nat} {step : Step} {request : Request sv} {rest : List Nat} {reply : Json}
      (at_phase : r.phase = .awaitCompensator idx step request rest) :
      Transition rows r (.dispatched (.ok reply))
      ⟨rows, { r with phase := .recordCompensated idx step reply rest }, []⟩
  | compensatorFailed {idx : Nat} {step : Step} {request : Request sv} {rest : List Nat} {e : DispatchError}
      (at_phase : r.phase = .awaitCompensator idx step request rest) :
      Transition rows r (.dispatched (.error e))
      ⟨rows, { r with phase := .compensate rest }, []⟩
  | compensated {idx : Nat} {step : Step} {reply : Json} {rest : List Nat}
      (at_phase : r.phase = .recordCompensated idx step reply rest) : Transition rows r .go
      ⟨rows.setStepStatus step.id .compensated (some reply) false, { r with
        steps := setStatus r.steps idx .compensated
        phase := .compensate rest }, [.stepStatus idx .compensated]⟩
  | uncompensated {idx : Nat} {step : Step} {reply : Json} {rest : List Nat} {e : Error}
      (at_phase : r.phase = .recordCompensated idx step reply rest) : Transition rows r (.failed e)
      ⟨rows, { r with phase := .compensate rest }, []⟩
  | finish {status : PlanStatus} (at_phase : r.phase = .finish status) : Transition rows r .go
      ⟨rows.setPlanStatus status, { r with phase := .returned (.ok status) }, [.planStatus status]⟩
  | abort {e : Error} (at_phase : Abortable r.phase) : Transition rows r (.failed e)
      ⟨rows, { r with phase := .returned (.error e) }, []⟩

theorem advance_transition {rows : PlanRows} {r : Runner sv} {answer : Answer} {m : Moved sv}
    (moved : advance rows r answer = some m) : Transition rows r answer m := by
  unfold advance at moved
  cases at_phase : r.phase <;> cases answer <;> simp only [at_phase, Option.some.injEq, reduceCtorEq] at moved
  case setExecuting.go => exact moved ▸ .execute at_phase
  case listSteps.go =>
    subst moved
    split_ifs with empty
    · exact .listNone at_phase (List.isEmpty_iff.mp empty)
    · exact .list at_phase
  case scan.go =>
    subst moved
    split
    case h_1 step idx next => exact .choose at_phase next
    case h_2 next => exact .leave at_phase next
  case markRunning.go => exact moved ▸ .mark at_phase
  case dispatchStep.go =>
    subst moved
    split
    case h_1 request built => exact .send at_phase built
    case h_2 e built => exact .refuse at_phase built
  case awaitReply.dispatched => exact moved ▸ .reply at_phase
  case recordStep.go idx step outcome =>
    cases outcome <;> simp only [Option.some.injEq] at moved <;> subst moved
    · exact .fail at_phase
    · exact .succeed at_phase
  case compensate.go todo =>
    cases todo <;> simp only [Option.some.injEq, reduceCtorEq] at moved
    exact moved ▸ .rolledBack at_phase
  case compensate.registry todo registry =>
    cases todo <;> simp only [reduceCtorEq] at moved
    split at moved
    · contradiction
    case h_2 step found =>
      split at moved
      case h_1 resolved => cases moved; exact .skip at_phase found resolved
      case h_2 comp resolved =>
        split at moved
        case h_1 e built => cases moved; exact .unsendable at_phase found resolved built
        case h_2 request built => cases moved; exact .compensate at_phase found resolved built
  case awaitCompensator.dispatched idx step request rest outcome =>
    subst moved
    cases outcome
    · exact .compensatorFailed at_phase
    · exact .compensatorReplied at_phase
  case recordCompensated.go => exact moved ▸ .compensated at_phase
  case recordCompensated.failed => exact moved ▸ .uncompensated at_phase
  case finish.go => exact moved ▸ .finish at_phase
  all_goals exact moved ▸ .abort (by rw [at_phase]; trivial)

end Daimon.Proof.Orchestrator
