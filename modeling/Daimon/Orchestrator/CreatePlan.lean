import Daimon.Orchestrator.Dispatch

/-!
# Plan creation

`OrchestratorService::create_plan` (`daimon-orchestrator/src/service.rs`). The transaction inserts the plan and one
row a definition, and either all of it is there afterwards or nothing. The credential reference of a
step is stored and read by nothing here; the graph mirror is written after the commit and never read.
-/

namespace Daimon.Orchestrator
open Daimon.Core Lib

structure StepDef where
  capabilityName : String
  capabilityVersion : String
  targetRef : Option String
  params : Json
  dependsOnIndex : List Nat
  deriving DecidableEq

def asI32 (i : Nat) : Int := (i : Int).bmod 0x100000000

/-- The row of definition `i`, where `stepIds` are the ids given to all definitions in order. -/
def createdStep (planId : Uuid) (stepIds : List Uuid) (id : Uuid) (i : Nat) (d : StepDef) : Step :=
  { id, planId, stepIndex := asI32 i, capabilityName := d.capabilityName,
    capabilityVersion := d.capabilityVersion, targetRef := d.targetRef, params := d.params,
    dependsOn := d.dependsOnIndex.filterMap fun idx => stepIds[idx]?,
    status := .pending, result := none }

def createdSteps (newId : Nat → Uuid) (planId : Uuid) (defs : List StepDef) : List Step :=
  let stepIds := (List.range defs.length).map newId
  let created := defs.zipIdx.map fun (d, i) => createdStep planId stepIds (newId i) i d
  created.mergeSort fun s t => s.stepIndex ≤ t.stepIndex

/-- `newId i` is the `i`-th id drawn, `database` a failure of the pool or of a statement. -/
def createPlan (newId : Nat → Uuid) (planId : Uuid) (database : Option Error) (defs : List StepDef) :
    Except Error PlanRows :=
  match database with
  | some e => .error e
  | none =>
      if distinct : ((createdSteps newId planId defs).map Step.id).Nodup then
        .ok { status := .planning, steps := createdSteps newId planId defs, distinct }
      else .error (.pg "duplicate key value violates unique constraint")

end Daimon.Orchestrator
