import Daimon.Orchestrator.GraphStore
import Daimon.Proof.Orchestrator.GraphMirror

/-!
# The mirror of many plans

Plans reach the graph in any order, more than once and between other writes. Sending one again changes nothing, and what
the graph holds depends on the set of plans alone.
-/

namespace Daimon.Proof.Orchestrator
open Daimon.Core Lib Daimon.Orchestrator PropertyGraph

/-- An id names one plan and one step. -/
structure IdsDetermine (plans : List GraphPlan) : Prop where
  plan : ∀ p ∈ plans, ∀ q ∈ plans, p.id = q.id → p = q
  step : ∀ p ∈ plans, ∀ q ∈ plans, ∀ s ∈ p.steps, ∀ t ∈ q.steps, s.id = t.id → s = t

/-! ## The batch of one plan -/

def planOps (plan : GraphPlan) : List GraphOp := (planBatch plan).map Statement.op

def nodeOps (plan : GraphPlan) : List GraphOp :=
  ([Statement.plan plan.id plan.intent plan.createdAt] ++ plan.steps.flatMap (stepStatements plan)).map Statement.op

def dependencyOps (plan : GraphPlan) : List GraphOp :=
  (plan.steps.flatMap fun s => s.dependsOn.map (.dependsOn s.id)).map Statement.op

theorem planOps_eq (plan : GraphPlan) : planOps plan = nodeOps plan ++ dependencyOps plan :=
  List.map_append

variable {plan : GraphPlan} {g : MirrorGraph} {final known : GraphKey → Prop}

theorem planOps_merges (plan : GraphPlan) : onlyMerges (planOps plan) := by
  intro key value member
  obtain ⟨statement, -, assigns⟩ := List.mem_map.mp member
  cases statement <;> cases assigns

theorem stepStatements_settled (s : GraphPlanStep) (plan_known : known (.plan plan.id)) :
    Settled final known ((stepStatements plan s).map Statement.op) := by
  simp [stepStatements, Statement.op, Settled, created, plan_known]

theorem steps_settled (steps : List GraphPlanStep) (plan_known : known (.plan plan.id)) :
    Settled final known ((steps.flatMap (stepStatements plan)).map Statement.op) := by
  induction steps generalizing known with
  | nil => trivial
  | cons s steps ih =>
      rw [List.flatMap_cons, List.map_append]
      exact (stepStatements_settled s plan_known).append (ih (Or.inl plan_known))

theorem nodeOps_settled (plan : GraphPlan) : Settled final known (nodeOps plan) := by
  rw [nodeOps, List.map_append]
  apply Settled.append
  · simp [Statement.op, Settled]
  · exact steps_settled plan.steps (Or.inr ⟨_, List.mem_singleton_self _, rfl⟩)

theorem op_of_step {s : GraphPlanStep} (member : s ∈ plan.steps) (statement : Statement)
    (among : statement ∈ stepStatements plan s) : statement.op ∈ nodeOps plan :=
  List.mem_map_of_mem (List.mem_append_right _ (List.mem_flatMap.mpr ⟨s, member, among⟩))

theorem node_of_step {s : GraphPlanStep} (member : s ∈ plan.steps) :
    .node (.planStep s.id) [("capability_name", s.capabilityName), ("capability_version", s.capabilityVersion),
      ("target_ref", s.targetRef)] ∈ nodeOps plan :=
  op_of_step member (.planStep s.id s.capabilityName s.capabilityVersion s.targetRef) (by simp [stepStatements])

/-- A dependency that is there in the end was there before, or is a step of the same plan. -/
def Awaited (final known : GraphKey → Prop) (plan : GraphPlan) : Prop :=
  ∀ s ∈ plan.steps, ∀ dep ∈ s.dependsOn, final (.planStep dep) →
    known (.planStep dep) ∨ ∃ t ∈ plan.steps, t.id = dep

theorem planOps_settled (awaited : Awaited final known plan) : Settled final known (planOps plan) := by
  rw [planOps_eq]
  apply (nodeOps_settled plan).append
  apply settled_of_ends
  intro source rel target member _ target_final
  simp only [dependencyOps, List.map_flatMap, List.map_map, List.mem_flatMap, List.mem_map] at member
  obtain ⟨s, listed, dep, depends, same⟩ := member
  cases same
  refine ⟨Or.inr ⟨_, node_of_step listed, rfl⟩, ?_⟩
  rcases awaited s listed dep depends target_final with before | ⟨t, listed', rfl⟩
  · exact Or.inl before
  · exact Or.inr ⟨_, node_of_step listed', rfl⟩

/-! ## Runs -/

theorem call_eq (g : MirrorGraph) (call : GraphCall) : g.call call = g.exec call.ops := by
  cases call <;> rfl

theorem calls_eq (calls : List GraphCall) (g : MirrorGraph) :
    calls.foldl MirrorGraph.call g = g.exec (calls.flatMap GraphCall.ops) := by
  induction calls generalizing g with
  | nil => rfl
  | cons call calls ih => rw [List.foldl_cons, ih, call_eq, List.flatMap_cons, exec_append]

theorem plans_eq (plans : List GraphPlan) (g : MirrorGraph) :
    plans.foldl MirrorGraph.persistPlan g = g.exec (plans.flatMap planOps) := by
  induction plans generalizing g with
  | nil => rfl
  | cons plan plans ih =>
      rw [List.foldl_cons, ih, List.flatMap_cons, exec_append]
      rfl

/-! ## The nodes of a plan -/

/-- What a plan creates a node with. -/
inductive Creates (plan : GraphPlan) : GraphKey → GraphProps → Prop
  | plan : Creates plan (.plan plan.id) [("intent", plan.intent), ("created_at", plan.createdAt)]
  | planStep {s : GraphPlanStep} (listed : s ∈ plan.steps) : Creates plan (.planStep s.id)
      [("capability_name", s.capabilityName), ("capability_version", s.capabilityVersion), ("target_ref", s.targetRef)]
  | capability {s : GraphPlanStep} (listed : s ∈ plan.steps) :
      Creates plan (.capability s.capabilityName s.capabilityVersion) []
  | target {s : GraphPlanStep} (listed : s ∈ plan.steps) : Creates plan (.target s.targetRef) []

theorem creates_of_mem {key : GraphKey} {value : GraphProps} (member : .node key value ∈ planOps plan) :
    Creates plan key value := by
  obtain ⟨statement, among, same⟩ := List.mem_map.mp member
  simp only [planBatch, List.mem_append, List.mem_singleton, List.mem_flatMap, List.mem_map] at among
  rcases among with (rfl | ⟨s, listed, step⟩) | ⟨s, -, dep, -, rfl⟩
  · cases same
    exact .plan
  · simp only [stepStatements, List.mem_cons, List.not_mem_nil, or_false] at step
    rcases step with rfl | rfl | rfl | rfl | rfl | rfl <;> cases same
    · exact .planStep listed
    · exact .capability listed
    · exact .target listed
  · cases same

/-- What is created under a key carries the fields of the plan or step that the key names. -/
theorem Creates.eq {plans : List GraphPlan} (determine : IdsDetermine plans) {p q : GraphPlan} (listed : p ∈ plans)
    (listed' : q ∈ plans) {key key' : GraphKey} {value value' : GraphProps} (first : Creates p key value)
    (second : Creates q key' value') (same : key = key') : value = value' := by
  cases first with
  | plan =>
      cases second with
      | plan => rw [determine.plan p listed q listed' (GraphKey.plan.inj same)]
      | _ => cases same
  | @planStep s step =>
      cases second with
      | @planStep t step' => rw [determine.step p listed q listed' s step t step' (GraphKey.planStep.inj same)]
      | _ => cases same
  | capability step =>
      cases second with
      | capability => rfl
      | _ => cases same
  | target step =>
      cases second with
      | target => rfl
      | _ => cases same

theorem plans_coherent {plans : List GraphPlan} (determine : IdsDetermine plans) :
    Coherent (plans.flatMap planOps) := by
  intro key value value' member member'
  obtain ⟨p, listed, made⟩ := List.mem_flatMap.mp member
  obtain ⟨q, listed', made'⟩ := List.mem_flatMap.mp member'
  exact (creates_of_mem made).eq determine listed listed' (creates_of_mem made') rfl

theorem step_of_key {dep : Uuid} {op : GraphOp} (member : op ∈ planOps plan)
    (made : created op = some (.planStep dep)) : ∃ s ∈ plan.steps, s.id = dep := by
  cases op with
  | node key value =>
      obtain rfl := Option.some.inj made
      generalize same : GraphKey.planStep dep = key at member
      cases creates_of_mem member with
      | planStep listed => exact ⟨_, listed, (GraphKey.planStep.inj same).symm⟩
      | _ => cases same
  | assign key value => exact absurd member (planOps_merges plan key value)
  | edge source rel target => cases made

theorem planOps_settled_self (g : MirrorGraph) (plan : GraphPlan) :
    Settled (· ∈ (g.persistPlan plan).keys) (· ∈ g.keys) (planOps plan) := by
  apply planOps_settled
  intro s listed dep depends there
  rcases (keys_exec_iff).mp there with before | ⟨op, member, made⟩
  · exact Or.inl before
  · exact Or.inr (step_of_key member made)

theorem persisted_node {key : GraphKey} {value : GraphProps} (member : .node key value ∈ planOps plan) :
    key ∈ (g.persistPlan plan).keys := (keys_exec_iff).mpr (Or.inr ⟨_, member, rfl⟩)

theorem persisted_plan (g : MirrorGraph) (plan : GraphPlan) : .plan plan.id ∈ (g.persistPlan plan).keys :=
  (keys_exec_iff).mpr (Or.inr ⟨_, List.mem_cons_self, rfl⟩)

theorem persisted_edge {a b : GraphKey} {rel : GraphRel} (member : .edge a rel b ∈ planOps plan)
    (source : a ∈ (g.persistPlan plan).keys) (target : b ∈ (g.persistPlan plan).keys) :
    (a, rel, b) ∈ (g.persistPlan plan).edges :=
  (mem_edges_exec (planOps_settled_self g plan) fun _ there => there).mpr (Or.inr ⟨member, source, target⟩)

/-- The relationships of a step to its plan, its capability and its target are all made. -/
theorem persisted_step {s : GraphPlanStep} (g : MirrorGraph) (listed : s ∈ plan.steps) :
    (.planStep s.id, .stepOf, .plan plan.id) ∈ (g.persistPlan plan).edges ∧
    (.planStep s.id, .providesCapability, .capability s.capabilityName s.capabilityVersion) ∈
      (g.persistPlan plan).edges ∧
    (.planStep s.id, .dependsOnTarget, .target s.targetRef) ∈ (g.persistPlan plan).edges := by
  have opOf (statement : Statement) (among : statement ∈ stepStatements plan s) : statement.op ∈ planOps plan := by
    rw [planOps_eq]
    exact List.mem_append_left _ (op_of_step listed statement among)
  have step : .planStep s.id ∈ (g.persistPlan plan).keys := by
    apply persisted_node
    exact opOf (.planStep s.id s.capabilityName s.capabilityVersion s.targetRef) (by simp [stepStatements])
  have capability : .capability s.capabilityName s.capabilityVersion ∈ (g.persistPlan plan).keys := by
    apply persisted_node
    exact opOf (.capability s.capabilityName s.capabilityVersion) (by simp [stepStatements])
  have target : .target s.targetRef ∈ (g.persistPlan plan).keys := by
    apply persisted_node
    exact opOf (.target s.targetRef) (by simp [stepStatements])
  refine ⟨persisted_edge ?_ step (persisted_plan g plan), persisted_edge ?_ step capability, persisted_edge ?_ step target⟩
  · exact opOf (.stepOf plan.id s.id) (by simp [stepStatements])
  · exact opOf (.providesCapability s.id s.capabilityName s.capabilityVersion) (by simp [stepStatements])
  · exact opOf (.dependsOnTarget s.id s.targetRef) (by simp [stepStatements])

/-! ## One plan, sent again -/

theorem persist_plan_idempotent (g : MirrorGraph) (plan : GraphPlan) :
    (g.persistPlan plan).persistPlan plan = g.persistPlan plan ∧
    ∀ later : List GraphCall,
      (∀ s ∈ plan.steps, ∀ dep ∈ s.dependsOn, (∃ t ∈ plan.steps, t.id = dep) ∨ .planStep dep ∈ g.keys ∨
        .planStep dep ∉ (later.foldl MirrorGraph.call (g.persistPlan plan)).keys) →
      (later.foldl MirrorGraph.call (g.persistPlan plan)).persistPlan plan =
        later.foldl MirrorGraph.call (g.persistPlan plan) := by
  constructor
  · have again : ((g.exec (planOps plan)).exec []).exec (planOps plan) = (g.exec (planOps plan)).exec [] :=
      exec_again (planOps_merges plan) (planOps_settled_self g plan)
    exact again
  · intro later awaited
    rw [calls_eq] at awaited ⊢
    apply exec_again (planOps_merges plan)
    apply planOps_settled
    intro s listed dep depends there
    rcases awaited s listed dep depends with own | before | absent
    · exact Or.inr own
    · exact Or.inl before
    · exact absurd there absent

/-- The first step was left out of the mirror, and the second one waits for it. -/
def sampleMirror : GraphPlan :=
  { id := 9, intent := "patch", createdAt := "2026-01-01T00:00:00+00:00",
    steps := [⟨2, "network.routeros.show_routes", "1.0.0", "target://b", [1]⟩] }

def sampleCalls : List GraphCall :=
  [.upsertTarget "target://b" "edge", .declareDependency "target://b" "target://b"]

theorem sample_redelivery :
    let g := sampleCalls.foldl MirrorGraph.call (MirrorGraph.persistPlan .empty sampleMirror)
    g.keys = [.plan 9, .planStep 2, .capability "network.routeros.show_routes" "1.0.0", .target "target://b"] ∧
      g.persistPlan sampleMirror = g := by
  intro g
  have written : g.keys =
      [.plan 9, .planStep 2, .capability "network.routeros.show_routes" "1.0.0", .target "target://b"] := by decide
  refine ⟨written, (persist_plan_idempotent .empty sampleMirror).2 sampleCalls ?_⟩
  change ∀ s ∈ sampleMirror.steps, ∀ dep ∈ s.dependsOn, _ ∨ _ ∨ .planStep dep ∉ g.keys
  rw [written]
  simp [sampleMirror]

/-! ## The plans of many calls -/

/-- A call of `create_plan` that committed. -/
structure Creation where
  newId : Nat → Uuid
  planId : Uuid
  intent : String
  createdAt : String
  defs : List StepDef
  rows : PlanRows
  created : createPlan newId planId none defs = .ok rows

def Creation.mirror (c : Creation) : GraphPlan := graphPlan c.newId c.planId c.intent c.createdAt c.defs

def Creation.stepId (c : Creation) (id : Uuid) : Prop := ∃ i < c.defs.length, c.newId i = id

/-- The primary keys of the plans and of the steps: an id is drawn by one call. -/
structure IdsApart (calls : List Creation) : Prop where
  plan : ∀ c ∈ calls, ∀ d ∈ calls, c.planId = d.planId → c = d
  step : ∀ c ∈ calls, ∀ d ∈ calls, ∀ id, c.stepId id → d.stepId id → c = d

theorem stepId_of_mirror {c : Creation} {s : GraphPlanStep} (listed : s ∈ c.mirror.steps) : c.stepId s.id := by
  obtain ⟨i, d, tref, found, -, rfl⟩ := (mem_graphSteps).mp listed
  exact ⟨i, (List.getElem?_eq_some_iff.mp found).1, rfl⟩

theorem stepId_of_dependency {c : Creation} {s : GraphPlanStep} (listed : s ∈ c.mirror.steps) {dep : Uuid}
    (depends : dep ∈ s.dependsOn) : c.stepId dep := by
  obtain ⟨i, d, tref, -, -, rfl⟩ := (mem_graphSteps).mp listed
  obtain ⟨idx, -, bound, rfl⟩ := (mem_dependencies).mp depends
  exact ⟨idx, bound, rfl⟩

theorem idsDetermine {calls : List Creation} (apart : IdsApart calls) : IdsDetermine (calls.map Creation.mirror) where
  plan := by
    intro p listed q listed' same
    obtain ⟨c, among, rfl⟩ := List.mem_map.mp listed
    obtain ⟨d, among', rfl⟩ := List.mem_map.mp listed'
    rw [apart.plan c among d among' same]
  step := by
    intro p listed q listed' s step t step' same
    obtain ⟨c, among, rfl⟩ := List.mem_map.mp listed
    obtain ⟨d, among', rfl⟩ := List.mem_map.mp listed'
    obtain rfl := apart.step c among d among' s.id (stepId_of_mirror step) (same ▸ stepId_of_mirror step')
    obtain ⟨i, e, tref, at_i, target, rfl⟩ := (mem_graphSteps).mp step
    obtain ⟨j, e', tref', at_j, target', rfl⟩ := (mem_graphSteps).mp step'
    obtain rfl := newId_inj c.created (List.getElem?_eq_some_iff.mp at_i).1 (List.getElem?_eq_some_iff.mp at_j).1 same
    obtain rfl := Option.some.inj (at_i.symm.trans at_j)
    obtain rfl := Option.some.inj (target.symm.trans target')
    rfl

/-- A dependency that some plan's mirror creates is a mirrored step of the plan itself. -/
theorem plans_settled {g : MirrorGraph} {calls : List Creation} (apart : IdsApart calls)
    (fresh : ∀ c ∈ calls, ∀ id, c.stepId id → .planStep id ∉ g.keys) (some_calls : List Creation)
    (among : ∀ c ∈ some_calls, c ∈ calls) {known : GraphKey → Prop} :
    Settled (· ∈ (g.exec ((calls.map Creation.mirror).flatMap planOps)).keys) known
      ((some_calls.map Creation.mirror).flatMap planOps) := by
  induction some_calls generalizing known with
  | nil => trivial
  | cons c rest ih =>
      rw [List.map_cons, List.flatMap_cons]
      refine Settled.append ?_ (ih fun c member => among c (List.mem_cons_of_mem _ member))
      apply planOps_settled
      intro s listed dep depends there
      have own := stepId_of_dependency listed depends
      rcases (keys_exec_iff).mp there with before | ⟨op, member, made⟩
      · exact absurd before (fresh c (among c List.mem_cons_self) dep own)
      · obtain ⟨plan, isMirror, listed'⟩ := List.mem_flatMap.mp member
        obtain ⟨d, isCall, rfl⟩ := List.mem_map.mp isMirror
        obtain ⟨t, isStep, rfl⟩ := step_of_key listed' made
        obtain rfl := apart.step c (among c List.mem_cons_self) d isCall t.id own (stepId_of_mirror isStep)
        exact Or.inr ⟨t, isStep, rfl⟩

theorem mirror_converges (g : MirrorGraph) (calls others : List Creation) (same : ∀ c, c ∈ calls ↔ c ∈ others)
    (apart : IdsApart calls) (fresh : ∀ c ∈ calls, ∀ id, c.stepId id → .planStep id ∉ g.keys) :
    PropertyGraph.Same ((calls.map Creation.mirror).foldl MirrorGraph.persistPlan g)
      ((others.map Creation.mirror).foldl MirrorGraph.persistPlan g) := by
  rw [plans_eq, plans_eq]
  apply exec_same g
  · intro op
    simp only [List.mem_flatMap, List.mem_map, same]
  · intro key value member
    obtain ⟨plan, -, assigns⟩ := List.mem_flatMap.mp member
    exact planOps_merges plan key value assigns
  · exact plans_coherent (idsDetermine apart)
  · exact plans_settled apart fresh calls fun c member => member
  · exact plans_settled apart fresh others fun c member => (same c).mpr member

/-! ## Two sample plans -/

theorem createPlan_distinct (newId : Nat → Uuid) (planId : Uuid) (defs : List StepDef)
    (distinct : ((List.range defs.length).map newId).Nodup) : ∃ rows, createPlan newId planId none defs = .ok rows := by
  have ids : ((createdSteps newId planId defs).map Step.id).Perm ((List.range defs.length).map newId) := by
    refine ((List.mergeSort_perm _ _).map _).trans (.of_eq ?_)
    rw [List.map_map, List.range_eq_range', ← List.zipIdx_map_snd, List.map_map]
    rfl
  unfold createPlan
  rw [dif_pos (ids.nodup_iff.mpr distinct)]
  exact ⟨_, rfl⟩

def otherId (i : Nat) : Uuid := BitVec.ofNat 128 (100 + i)

theorem sample_mirror_converges : ∃ a b : Creation, a.defs = bridged ∧ b.defs = targeted ∧
    PropertyGraph.Same
      (([a, b].map Creation.mirror).foldl MirrorGraph.persistPlan .empty)
      (([b, a, b].map Creation.mirror).foldl MirrorGraph.persistPlan .empty) := by
  obtain ⟨rows, created⟩ := createPlan_distinct sampleId 9 bridged (by decide)
  obtain ⟨rows', created'⟩ := createPlan_distinct otherId 10 targeted (by decide)
  let a : Creation := ⟨sampleId, 9, "patch", "2026-01-01T00:00:00+00:00", bridged, rows, created⟩
  let b : Creation := ⟨otherId, 10, "audit", "2026-01-02T00:00:00+00:00", targeted, rows', created'⟩
  have unequal : ∀ i < 3, ∀ j < 2, sampleId i ≠ otherId j := by decide
  have apart_step (id : Uuid) (ofA : a.stepId id) (ofB : b.stepId id) : False := by
    obtain ⟨i, bound, rfl⟩ := ofA
    obtain ⟨j, bound', same⟩ := ofB
    exact unequal i bound j bound' same.symm
  refine ⟨a, b, rfl, rfl, mirror_converges .empty [a, b] [b, a, b] (by simp [or_comm]) ⟨?_, ?_⟩ (by simp [keys, empty])⟩
  · have distinct : (9 : Uuid) ≠ 10 := by decide
    intro c listed d listed' same
    simp only [List.mem_cons, List.not_mem_nil, or_false] at listed listed'
    rcases listed with rfl | rfl <;> rcases listed' with rfl | rfl
    · rfl
    · exact absurd same distinct
    · exact absurd same.symm distinct
    · rfl
  · intro c listed d listed' id first second
    simp only [List.mem_cons, List.not_mem_nil, or_false] at listed listed'
    rcases listed with rfl | rfl <;> rcases listed' with rfl | rfl
    · rfl
    · exact (apart_step id first second).elim
    · exact (apart_step id second first).elim
    · rfl

end Daimon.Proof.Orchestrator
