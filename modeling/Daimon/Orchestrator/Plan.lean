import Daimon.Core.Capability

/-!
# Plans and their rows

The types of `daimon-orchestrator/src/plan.rs` and the statements that `run_plan` issues on
`public.plans` and `public.plan_steps`. Of the columns, the timestamps, the creator, the intent and the
metadata are left out: execution writes some of them and reads none.
-/

namespace Daimon.Orchestrator
open Daimon.Core Lib

inductive PlanStatus where
  | planning
  | awaitingApproval
  | executing
  | succeeded
  | failed
  | cancelled
  | rolledBack
  deriving DecidableEq, Repr

inductive StepStatus where
  | pending
  | running
  | succeeded
  | failed
  | skipped
  | compensated
  deriving DecidableEq, Repr

structure Step where
  id : Uuid
  planId : Uuid
  stepIndex : Int
  capabilityName : String
  capabilityVersion : String
  targetRef : Option String
  params : Json
  dependsOn : List Uuid
  status : StepStatus
  result : Option Json
  deriving DecidableEq

/-- The rows of one plan: its status and its steps by `step_index`. Step ids are the primary key. -/
structure PlanRows where
  status : PlanStatus
  steps : List Step
  distinct : (steps.map Step.id).Nodup
  deriving DecidableEq

namespace PlanRows

def setPlanStatus (rows : PlanRows) (status : PlanStatus) : PlanRows := { rows with status }

/-- `UPDATE public.plan_steps SET … WHERE id = …`, without a condition on the status. -/
def updateStep (rows : PlanRows) (id : Uuid) (update : Step → Step) (keepsId : ∀ s, (update s).id = s.id) :
    PlanRows where
  status := rows.status
  steps := rows.steps.map fun s => if s.id = id then update s else s
  distinct := by
    have sameIds : (rows.steps.map fun s => if s.id = id then update s else s).map Step.id =
        rows.steps.map Step.id := by
      rw [List.map_map]
      apply List.map_congr_left
      intro s _
      simp only [Function.comp_apply]
      split
      · exact keepsId s
      · rfl
    rw [sameIds]
    exact rows.distinct

def setStepStatus (rows : PlanRows) (id : Uuid) (status : StepStatus) (result : Option Json)
    (setStarted : Bool) : PlanRows :=
  if setStarted then rows.updateStep id (fun s => { s with status }) (fun _ => rfl)
  else rows.updateStep id (fun s => { s with status, result := some (result.getD .null) }) (fun _ => rfl)

end PlanRows
end Daimon.Orchestrator
