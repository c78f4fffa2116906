import Daimon.Lib.PropertyGraph
import Daimon.Lib.Trails
import Mathlib.Data.List.Dedup
import Daimon.Orchestrator.GraphMirror

/-!
# The graph tier

The graph that `NornicGraphClient` (`daimon-graph/src/client.rs`) writes to: what its statements mean on the nodes and
relationships, under the uniqueness constraints of `daimon-graph/src/schema.rs`. Every call is one transaction.
-/

namespace Daimon.Orchestrator
open Daimon.Core Lib

/-- The label of a node with the properties it is merged by. -/
inductive GraphKey where
  | plan (id : Uuid)
  | planStep (id : Uuid)
  | capability (name version : String)
  | target (ref : String)
  deriving DecidableEq

inductive GraphRel where
  | stepOf
  | providesCapability
  | dependsOnTarget
  | dependsOn
  deriving DecidableEq

/-- The properties that a `SET` gives a node besides those it is merged by. -/
abbrev GraphProps := List (String × String)

abbrev MirrorGraph := PropertyGraph GraphKey GraphRel GraphProps

abbrev GraphOp := PropertyGraph.Op GraphKey GraphRel GraphProps

def Statement.op : Statement → GraphOp
  | .plan pid intent createdAt => .node (.plan pid) [("intent", intent), ("created_at", createdAt)]
  | .planStep sid cname cver tref =>
      .node (.planStep sid) [("capability_name", cname), ("capability_version", cver), ("target_ref", tref)]
  | .stepOf pid sid => .edge (.planStep sid) .stepOf (.plan pid)
  | .capability cname cver => .node (.capability cname cver) []
  | .providesCapability sid cname cver => .edge (.planStep sid) .providesCapability (.capability cname cver)
  | .target tref => .node (.target tref) []
  | .dependsOnTarget sid tref => .edge (.planStep sid) .dependsOnTarget (.target tref)
  | .dependsOn fromSid toSid => .edge (.planStep fromSid) .dependsOn (.planStep toSid)

namespace MirrorGraph

def persistPlan (g : MirrorGraph) (plan : GraphPlan) : MirrorGraph := g.exec ((planBatch plan).map Statement.op)

def upsertTarget (g : MirrorGraph) (ref labels : String) : MirrorGraph :=
  g.apply (.assign (.target ref) [("labels", labels)])

def declareDependency (g : MirrorGraph) (source target : String) : MirrorGraph :=
  g.apply (.edge (.target source) .dependsOnTarget (.target target))

end MirrorGraph

inductive GraphCall where
  | persistPlan (plan : GraphPlan)
  | upsertTarget (ref labels : String)
  | declareDependency (source target : String)

def GraphCall.ops : GraphCall → List GraphOp
  | .persistPlan plan => (planBatch plan).map Statement.op
  | .upsertTarget ref labels => [.assign (.target ref) [("labels", labels)]]
  | .declareDependency source target => [.edge (.target source) .dependsOnTarget (.target target)]

def MirrorGraph.call (g : MirrorGraph) : GraphCall → MirrorGraph
  | .persistPlan plan => g.persistPlan plan
  | .upsertTarget ref labels => g.upsertTarget ref labels
  | .declareDependency source target => g.declareDependency source target

/-! ## Blast radius -/

inductive NodeKind where
  | tenant
  | agent
  | capability
  | target
  | credential
  | plan
  | planStep
  | auditEvent
  | user
  deriving DecidableEq, Repr

def nodeKindFromLabel (s : String) : Option NodeKind :=
  match s with
  | "Tenant" => some .tenant
  | "Agent" => some .agent
  | "Capability" => some .capability
  | "Target" => some .target
  | "Credential" => some .credential
  | "Plan" => some .plan
  | "PlanStep" => some .planStep
  | "AuditEvent" => some .auditEvent
  | "User" => some .user
  | _ => none

structure BlastRadiusEntry where
  kind : NodeKind
  id : String
  label : String
  depth : Nat
  deriving DecidableEq, Repr

namespace GraphKey

def label : GraphKey → String
  | .plan _ => "Plan"
  | .planStep _ => "PlanStep"
  | .capability _ _ => "Capability"
  | .target _ => "Target"

def idProp : GraphKey → Option String
  | .plan id | .planStep id => some id.hyphenated
  | _ => none

def refProp : GraphKey → Option String
  | .target ref => some ref
  | _ => none

def nameProp : GraphKey → Option String
  | .capability name _ => some name
  | _ => none

end GraphKey

/-- The columns of a result that the minimum of the depths is grouped by. -/
structure BlastGroup where
  labels : List String
  nid : Option String
  nlabel : Option String
  deriving DecidableEq

def GraphKey.group (n : GraphKey) : BlastGroup where
  labels := [n.label]
  nid := n.idProp <|> n.refProp <|> n.nameProp
  nlabel := n.nameProp <|> n.refProp <|> n.idProp

/-- `min(length(path))` for each group of the rows. -/
def groupMin (rows : List (BlastGroup × Nat)) : List (BlastGroup × Nat) :=
  (rows.map Prod.fst).dedup.map fun group =>
    (group, (((rows.filter fun row => row.1 = group).map Prod.snd).min?).getD 0)

/-- `ORDER BY depth ASC, nlabel ASC`; no label is null. -/
def blastOrder (a b : BlastGroup × Nat) : Bool :=
  a.2 < b.2 || a.2 == b.2 && decide (a.1.nlabel.getD "" ≤ b.1.nlabel.getD "")

def blastEntry (row : BlastGroup × Nat) : BlastRadiusEntry where
  kind := (row.1.labels.head?.bind nodeKindFromLabel).getD .target
  id := row.1.nid.getD ""
  label := row.1.nlabel.getD ""
  depth := row.2

def clampDepth (maxDepth : Nat) : Nat := max 1 (min maxDepth 8)

namespace MirrorGraph

/-- The rows of the query before its `LIMIT`. A path uses no relationship twice. -/
def blastRows (g : MirrorGraph) (ref : String) (maxDepth : Nat) : List (BlastGroup × Nat) :=
  let ends := if .target ref ∈ g.keys then trailEnds g.edges (clampDepth maxDepth) (.target ref) else []
  (groupMin (ends.map fun (n, depth) => (n.group, depth))).mergeSort blastOrder

def blastLimit : Nat := 200

def blastRadius (g : MirrorGraph) (ref : String) (maxDepth : Nat) : List BlastRadiusEntry :=
  ((g.blastRows ref maxDepth).take blastLimit).map blastEntry

end MirrorGraph

end Daimon.Orchestrator
