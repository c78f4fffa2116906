import Daimon.Orchestrator.CreatePlan

/-!
# The graph mirror of a plan

What `OrchestratorService::create_plan` (`daimon-orchestrator/src/service.rs`) hands to the graph tier after the commit,
and the batch that `NornicGraphClient::persist_plan` (`daimon-graph/src/client.rs`) sends.
-/

namespace Daimon.Orchestrator
open Daimon.Core Lib

structure GraphPlanStep where
  id : Uuid
  capabilityName : String
  capabilityVersion : String
  targetRef : String
  dependsOn : List Uuid

/-- `createdAt` is the time as RFC 3339. -/
structure GraphPlan where
  id : Uuid
  intent : String
  createdAt : String
  steps : List GraphPlanStep

def mirroredStep (stepIds : List Uuid) (id : Uuid) (d : StepDef) (tref : String) : GraphPlanStep :=
  { id, capabilityName := d.capabilityName, capabilityVersion := d.capabilityVersion, targetRef := tref,
    dependsOn := d.dependsOnIndex.filterMap fun idx => stepIds[idx]? }

/-- Steps without a target are skipped, and their ids stay in the dependencies of the others. -/
def graphSteps (newId : Nat → Uuid) (defs : List StepDef) : List GraphPlanStep :=
  let stepIds := (List.range defs.length).map newId
  defs.zipIdx.filterMap fun (d, i) => d.targetRef.map (mirroredStep stepIds (newId i) d)

def graphPlan (newId : Nat → Uuid) (planId : Uuid) (intent createdAt : String) (defs : List StepDef) : GraphPlan :=
  { id := planId, intent, createdAt, steps := graphSteps newId defs }

/-! ## Statements -/

inductive Statement where
  | plan (pid : Uuid) (intent createdAt : String)
  | planStep (sid : Uuid) (cname cver tref : String)
  | stepOf (pid sid : Uuid)
  | capability (cname cver : String)
  | providesCapability (sid : Uuid) (cname cver : String)
  | target (tref : String)
  | dependsOnTarget (sid : Uuid) (tref : String)
  | dependsOn (fromSid toSid : Uuid)
  deriving DecidableEq

namespace Statement

def text : Statement → String
  | .plan _ _ _ => "MERGE (p:Plan \x7bid: $pid\x7d) ON CREATE SET p.intent = $intent, p.created_at = $created_at"
  | .planStep _ _ _ _ => "MERGE (s:PlanStep \x7bid: $sid\x7d) ON CREATE SET s.capability_name = $cname, " ++
      "s.capability_version = $cver, s.target_ref = $tref"
  | .stepOf _ _ => "MATCH (p:Plan \x7bid: $pid\x7d), (s:PlanStep \x7bid: $sid\x7d) MERGE (s)-[:STEP_OF]->(p)"
  | .capability _ _ => "MERGE (c:Capability \x7bname: $cname, version: $cver\x7d)"
  | .providesCapability _ _ _ => "MATCH (s:PlanStep \x7bid: $sid\x7d), " ++
      "(c:Capability \x7bname: $cname, version: $cver\x7d) MERGE (s)-[:PROVIDES_CAPABILITY]->(c)"
  | .target _ => "MERGE (t:Target \x7bref: $tref\x7d)"
  | .dependsOnTarget _ _ => "MATCH (s:PlanStep \x7bid: $sid\x7d), (t:Target \x7bref: $tref\x7d) " ++
      "MERGE (s)-[:DEPENDS_ON_TARGET]->(t)"
  | .dependsOn _ _ => "MATCH (a:PlanStep \x7bid: $from_sid\x7d), (b:PlanStep \x7bid: $to_sid\x7d) " ++
      "MERGE (a)-[:DEPENDS_ON]->(b)"

def parameters (statement : Statement) : Json :=
  let fields : List (String × String) := match statement with
    | .plan pid intent createdAt => [("pid", pid.hyphenated), ("intent", intent), ("created_at", createdAt)]
    | .planStep sid cname cver tref => [("sid", sid.hyphenated), ("cname", cname), ("cver", cver), ("tref", tref)]
    | .stepOf pid sid => [("pid", pid.hyphenated), ("sid", sid.hyphenated)]
    | .capability cname cver => [("cname", cname), ("cver", cver)]
    | .providesCapability sid cname cver => [("sid", sid.hyphenated), ("cname", cname), ("cver", cver)]
    | .target tref => [("tref", tref)]
    | .dependsOnTarget sid tref => [("sid", sid.hyphenated), ("tref", tref)]
    | .dependsOn fromSid toSid => [("from_sid", fromSid.hyphenated), ("to_sid", toSid.hyphenated)]
  Json.ofFields (fields.map fun (key, value) => (key, .string value))

end Statement

def stepStatements (plan : GraphPlan) (s : GraphPlanStep) : List Statement :=
  [.planStep s.id s.capabilityName s.capabilityVersion s.targetRef, .stepOf plan.id s.id,
   .capability s.capabilityName s.capabilityVersion, .providesCapability s.id s.capabilityName s.capabilityVersion,
   .target s.targetRef, .dependsOnTarget s.id s.targetRef]

def planBatch (plan : GraphPlan) : List Statement :=
  [.plan plan.id plan.intent plan.createdAt] ++ plan.steps.flatMap (stepStatements plan) ++
    plan.steps.flatMap fun s => s.dependsOn.map (.dependsOn s.id)

/-- The statements of the one transaction, as they are sent. -/
def persistPlan (plan : GraphPlan) : List (String × Json) :=
  (planBatch plan).map fun statement => (statement.text, statement.parameters)

/-! ## The step nodes of the graph -/

/-- `MERGE` of a step node adds it if no node has its id; a `MATCH` adds none. -/
def Statement.merge (nodes : List Uuid) : Statement → List Uuid
  | .planStep sid _ _ _ => if sid ∈ nodes then nodes else nodes ++ [sid]
  | _ => nodes

def stepNodes (nodes : List Uuid) (batch : List Statement) : List Uuid := batch.foldl Statement.merge nodes

end Daimon.Orchestrator
