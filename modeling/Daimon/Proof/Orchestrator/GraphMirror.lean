import Daimon.Orchestrator.GraphMirror
import Daimon.Proof.Orchestrator.Barriers
import Mathlib.Logic.Relation

/-!
# The order of a plan in its mirror

The mirror leaves out the steps without a target and keeps the ids of their dependents. It has the order of the plan if
no step with a target waits for one without.
-/

namespace Daimon.Proof.Orchestrator
open Daimon.Core Lib Daimon.Orchestrator
open scoped List

/-! ## Orders -/

def Waits (rows : PlanRows) (a b : Uuid) : Prop := ∃ s ∈ rows.steps, s.id = a ∧ b ∈ s.dependsOn

def MirrorWaits (plan : GraphPlan) (a b : Uuid) : Prop := ∃ s ∈ plan.steps, s.id = a ∧ b ∈ s.dependsOn

/-- Both nodes that an edge statement matches are there when its turn comes. -/
def EdgesFound (nodes : List Uuid) (batch : List Statement) : Prop :=
  ∀ before a b after, batch = before ++ .dependsOn a b :: after →
    a ∈ stepNodes nodes before ∧ b ∈ stepNodes nodes before

structure Mirrors (nodes : List Uuid) (rows : PlanRows) (plan : GraphPlan) : Prop where
  included : ∀ s ∈ plan.steps, ∀ dep ∈ s.dependsOn, ∃ t ∈ plan.steps, t.id = dep
  reaches : ∀ s ∈ plan.steps, ∀ t ∈ plan.steps,
    Relation.TransGen (MirrorWaits plan) s.id t.id ↔ Relation.TransGen (Waits rows) s.id t.id
  edges : EdgesFound nodes (planBatch plan)

/-- A step with a target depends on steps with a target. -/
def TargetsClosed (defs : List StepDef) : Prop :=
  ∀ d ∈ defs, d.targetRef.isSome → ∀ idx ∈ d.dependsOnIndex, ∀ e, defs[idx]? = some e → e.targetRef.isSome

variable {newId : Nat → Uuid} {planId : Uuid} {database : Option Error} {defs : List StepDef} {rows : PlanRows}
  {intent createdAt : String}
  {nodes : List Uuid} {plan : GraphPlan} {a b : Uuid}

/-! ## Steps of the mirror -/

theorem mem_graphSteps {s : GraphPlanStep} : s ∈ graphSteps newId defs ↔ ∃ i d tref, defs[i]? = some d ∧
    d.targetRef = some tref ∧ s = mirroredStep ((List.range defs.length).map newId) (newId i) d tref := by
  rw [graphSteps, List.mem_filterMap]
  constructor
  · rintro ⟨⟨d, i⟩, member, mirrored⟩
    obtain ⟨tref, target, rfl⟩ := Option.map_eq_some_iff.mp mirrored
    exact ⟨i, d, tref, List.mk_mem_zipIdx_iff_getElem?.mp member, target, rfl⟩
  · rintro ⟨i, d, tref, found, target, rfl⟩
    exact ⟨(d, i), List.mk_mem_zipIdx_iff_getElem?.mpr found, by simp [target]⟩

theorem mem_mirrored {i : Nat} {d : StepDef} {tref : String} (found : defs[i]? = some d)
    (target : d.targetRef = some tref) :
    mirroredStep ((List.range defs.length).map newId) (newId i) d tref ∈ graphSteps newId defs :=
  (mem_graphSteps).mpr ⟨i, d, tref, found, target, rfl⟩

theorem mem_dependencies {id dep : Uuid} {d : StepDef} {tref : String} :
    dep ∈ (mirroredStep ((List.range defs.length).map newId) id d tref).dependsOn ↔
      ∃ idx ∈ d.dependsOnIndex, idx < defs.length ∧ dep = newId idx := by
  rw [mirroredStep, List.mem_filterMap]
  refine exists_congr fun idx => and_congr_right fun _ => ?_
  by_cases bound : idx < defs.length
  · simp [bound, eq_comm]
  · simp [bound]

theorem newId_inj (created : createPlan newId planId database defs = .ok rows) {i j : Nat} (first : i < defs.length)
    (second : j < defs.length) (same : newId i = newId j) : i = j := by
  have ids : (createdSteps newId planId defs).map Step.id ~ (List.range defs.length).map newId := by
    refine ((List.mergeSort_perm _ _).map _).trans (.of_eq ?_)
    rw [List.map_map, List.range_eq_range', ← List.zipIdx_map_snd, List.map_map]
    rfl
  have distinct : ((List.range defs.length).map newId).Nodup := by
    rw [← ids.nodup_iff, ← createPlan_ok created]
    exact rows.distinct
  exact List.inj_on_of_nodup_map distinct (List.mem_range.mpr first) (List.mem_range.mpr second) same

def Included (plan : GraphPlan) (a : Uuid) : Prop := ∃ s ∈ plan.steps, s.id = a

theorem included_iff (created : createPlan newId planId database defs = .ok rows) {i : Nat} {d : StepDef}
    (found : defs[i]? = some d) :
    Included (graphPlan newId planId intent createdAt defs) (newId i) ↔ d.targetRef.isSome := by
  constructor
  · rintro ⟨s, member, sameId⟩
    obtain ⟨j, e, tref, at_j, target, rfl⟩ := (mem_graphSteps).mp member
    obtain rfl := newId_inj created (List.getElem?_eq_some_iff.mp at_j).1 (List.getElem?_eq_some_iff.mp found).1 sameId
    obtain rfl := Option.some.inj (at_j.symm.trans found)
    simp [target]
  · intro some
    obtain ⟨tref, target⟩ := Option.isSome_iff_exists.mp some
    exact ⟨_, mem_mirrored found target, rfl⟩

/-! ## The order -/

theorem waits_of_mirror (created : createPlan newId planId database defs = .ok rows)
    (waits : MirrorWaits (graphPlan newId planId intent createdAt defs) a b) : Waits rows a b := by
  obtain ⟨s, member, rfl, listed⟩ := waits
  obtain ⟨i, d, tref, found, -, rfl⟩ := (mem_graphSteps).mp member
  refine ⟨createdStep planId ((List.range defs.length).map newId) (newId i) i d, ?_, rfl, listed⟩
  rw [createPlan_ok created]
  exact (mem_createdSteps newId planId defs).mpr ⟨i, d, found, rfl⟩

theorem mirror_of_waits (created : createPlan newId planId database defs = .ok rows)
    (included : Included (graphPlan newId planId intent createdAt defs) a) (waits : Waits rows a b) :
    MirrorWaits (graphPlan newId planId intent createdAt defs) a b := by
  obtain ⟨s, member, rfl⟩ := included
  obtain ⟨i, d, tref, found, -, rfl⟩ := (mem_graphSteps).mp member
  obtain ⟨step, listed, sameId, depends⟩ := waits
  obtain rfl := mem_rows_of_id created found listed sameId
  exact ⟨_, member, rfl, depends⟩

theorem included_of_waits (created : createPlan newId planId database defs = .ok rows) (closed : TargetsClosed defs)
    (waits : MirrorWaits (graphPlan newId planId intent createdAt defs) a b) :
    Included (graphPlan newId planId intent createdAt defs) b := by
  obtain ⟨s, member, rfl, listed⟩ := waits
  obtain ⟨i, d, tref, found, target, rfl⟩ := (mem_graphSteps).mp member
  obtain ⟨idx, among, bound, rfl⟩ := (mem_dependencies).mp listed
  have at_idx := List.getElem?_eq_getElem bound
  exact (included_iff created at_idx).mpr
    (closed d (List.mem_of_getElem? found) (by simp [target]) idx among _ at_idx)

/-- Along a path from an included step the mirror has every edge, and every step on it is included. -/
theorem mirror_path (created : createPlan newId planId database defs = .ok rows) (closed : TargetsClosed defs)
    (included : Included (graphPlan newId planId intent createdAt defs) a) (path : Relation.TransGen (Waits rows) a b) :
    Relation.TransGen (MirrorWaits (graphPlan newId planId intent createdAt defs)) a b ∧
      Included (graphPlan newId planId intent createdAt defs) b := by
  induction path with
  | single waits =>
      have edge := mirror_of_waits created included waits
      exact ⟨.single edge, included_of_waits created closed edge⟩
  | tail _ waits ih =>
      have edge := mirror_of_waits created ih.2 waits
      exact ⟨ih.1.tail edge, included_of_waits created closed edge⟩

/-! ## The statements -/

theorem mem_stepNodes {batch : List Statement} : a ∈ stepNodes nodes batch ↔
    a ∈ nodes ∨ ∃ cname cver tref, .planStep a cname cver tref ∈ batch := by
  induction batch generalizing nodes with
  | nil => simp [stepNodes]
  | cons statement batch ih =>
      have step : a ∈ statement.merge nodes ↔ a ∈ nodes ∨ ∃ cname cver tref, .planStep a cname cver tref = statement := by
        cases statement with
        | planStep sid cname cver tref =>
            by_cases present : sid ∈ nodes
            · simp only [Statement.merge, if_pos present, Statement.planStep.injEq]
              grind
            · simp only [Statement.merge, if_neg present, Statement.planStep.injEq]
              grind
        | _ => simp [Statement.merge]
      rw [stepNodes, List.foldl_cons, ← stepNodes, ih, step]
      simp only [List.mem_cons]
      grind

/-- The edge statements come after those of all the nodes. -/
theorem planBatch_split (nodes : List Uuid) {before after : List Statement}
    (split : planBatch plan = before ++ .dependsOn a b :: after) :
    MirrorWaits plan a b ∧ ∀ s ∈ plan.steps, s.id ∈ stepNodes nodes before := by
  obtain ⟨rest, early⟩ | ⟨rest, rfl, edges⟩ := append_eq_append_cons split
  · have edge : .dependsOn a b ∈ [.plan plan.id plan.intent plan.createdAt] ++ plan.steps.flatMap (stepStatements plan) :=
      early ▸ List.mem_append_right _ List.mem_cons_self
    simp [stepStatements] at edge
  constructor
  · have listed : .dependsOn a b ∈ plan.steps.flatMap fun s => s.dependsOn.map (Statement.dependsOn s.id) :=
      edges ▸ List.mem_append_right _ List.mem_cons_self
    obtain ⟨s, member, isEdge⟩ := List.mem_flatMap.mp listed
    obtain ⟨dep, depends, same⟩ := List.mem_map.mp isEdge
    obtain ⟨rfl, rfl⟩ := Statement.dependsOn.inj same
    exact ⟨s, member, rfl, depends⟩
  · intro s member
    refine (mem_stepNodes).mpr (.inr ⟨s.capabilityName, s.capabilityVersion, s.targetRef, ?_⟩)
    have merged : .planStep s.id s.capabilityName s.capabilityVersion s.targetRef ∈
        plan.steps.flatMap (stepStatements plan) :=
      List.mem_flatMap.mpr ⟨s, member, List.mem_cons_self⟩
    exact List.mem_append_left _ (List.mem_append_right _ merged)

theorem edgesFound (created : createPlan newId planId database defs = .ok rows) (closed : TargetsClosed defs) :
    EdgesFound nodes (planBatch (graphPlan newId planId intent createdAt defs)) := by
  intro before a b after split
  obtain ⟨waits, merged⟩ := planBatch_split nodes split
  obtain ⟨t, included, rfl⟩ := included_of_waits created closed waits
  obtain ⟨s, member, rfl, -⟩ := waits
  exact ⟨merged s member, merged t included⟩

/-- The mirror keeps the order of the plan exactly if no step with a target depends on one without. -/
theorem mirror_preserves_iff (newId : Nat → Uuid) (planId : Uuid) (database : Option Error) (defs : List StepDef)
    (rows : PlanRows) (intent createdAt : String) (nodes : List Uuid)
    (created : createPlan newId planId database defs = .ok rows) :
    Mirrors nodes rows (graphPlan newId planId intent createdAt defs) ↔ TargetsClosed defs := by
  constructor
  · rintro ⟨included, -, -⟩ d member target idx listed e at_idx
    obtain ⟨i, found⟩ := List.mem_iff_getElem?.mp member
    obtain ⟨tref, isTarget⟩ := Option.isSome_iff_exists.mp target
    have bound := (List.getElem?_eq_some_iff.mp at_idx).1
    have isIncluded : Included (graphPlan newId planId intent createdAt defs) (newId idx) :=
      included _ (mem_mirrored found isTarget) _ ((mem_dependencies).mpr ⟨idx, listed, bound, rfl⟩)
    exact (included_iff created at_idx).mp isIncluded
  · intro closed
    refine ⟨fun s member dep listed => ?_, fun s member t _ => ⟨?_, fun path => ?_⟩, edgesFound created closed⟩
    · exact included_of_waits created closed ⟨s, member, rfl, listed⟩
    · exact Relation.TransGen.mono (fun _ _ => waits_of_mirror created) _ _
    · exact (mirror_path created closed ⟨s, member, rfl⟩ path).1

/-! ## Sample plans -/

def mirrorDef (targetRef : Option String) (dependsOnIndex : List Nat) : StepDef :=
  { sampleDef dependsOnIndex with targetRef }

def targeted : List StepDef := [mirrorDef (some "target://a") [], mirrorDef (some "target://b") [0]]

/-- The last step waits for the first one through a step without a target. -/
def bridged : List StepDef :=
  [mirrorDef (some "target://a") [], mirrorDef none [0], mirrorDef (some "target://b") [1]]

theorem targeted_mirrored : ∃ rows, createPlan sampleId 9 none targeted = .ok rows ∧
    Mirrors [] rows (graphPlan sampleId 9 "patch" "2026-01-01T00:00:00+00:00" targeted) := by
  obtain ⟨rows, created⟩ := createPlan_short targeted (by decide) (by decide)
  have all : ∀ e ∈ targeted, e.targetRef.isSome := by decide
  refine ⟨rows, created, (mirror_preserves_iff sampleId 9 none targeted rows _ _ [] created).mpr ?_⟩
  exact fun _ _ _ _ _ e found => all e (List.mem_of_getElem? found)

def bridgedMirror : GraphPlan := graphPlan sampleId 9 "patch" "2026-01-01T00:00:00+00:00" bridged

def mergesStep (sid : Uuid) : Statement → Bool
  | .planStep merged _ _ _ => merged == sid
  | _ => false

theorem bridge_lost : ∃ rows, createPlan sampleId 9 none bridged = .ok rows ∧
    Relation.TransGen (Waits rows) (sampleId 2) (sampleId 0) ∧
    ¬ Relation.TransGen (MirrorWaits bridgedMirror) (sampleId 2) (sampleId 0) ∧
    ¬ EdgesFound [] (planBatch bridgedMirror) ∧ ¬ Mirrors [] rows bridgedMirror := by
  obtain ⟨rows, created⟩ := createPlan_short bridged (by decide) (by decide)
  have row (i : Nat) (d : StepDef) (found : bridged[i]? = some d) :
      createdStep 9 ((List.range bridged.length).map sampleId) (sampleId i) i d ∈ rows.steps := by
    rw [createPlan_ok created]
    exact (mem_createdSteps sampleId 9 bridged).mpr ⟨i, d, found, rfl⟩
  have reaches : Relation.TransGen (Waits rows) (sampleId 2) (sampleId 0) :=
    .tail (.single ⟨_, row 2 _ rfl, rfl, by decide⟩) ⟨_, row 1 _ rfl, rfl, by decide⟩
  have unawaited : ∀ s ∈ bridgedMirror.steps, sampleId 0 ∉ s.dependsOn := by decide
  have dangling : ¬ EdgesFound [] (planBatch bridgedMirror) := by
    intro found
    obtain ⟨before, after, split⟩ := List.append_of_mem
      (show .dependsOn (sampleId 2) (sampleId 1) ∈ planBatch bridgedMirror by decide)
    obtain none | ⟨_, _, _, merged⟩ := (mem_stepNodes).mp (found before _ _ after split).2
    · cases none
    · have unmerged : ∀ st ∈ planBatch bridgedMirror, mergesStep (sampleId 1) st = false := by decide
      exact absurd (unmerged _ (split ▸ List.mem_append_left _ merged)) (by simp [mergesStep])
  refine ⟨rows, created, reaches, fun path => ?_, dangling, fun mirrors => dangling mirrors.edges⟩
  obtain ⟨b, s, member, -, awaited⟩ : ∃ b, MirrorWaits bridgedMirror b (sampleId 0) := by
    cases path with
    | single edge => exact ⟨_, edge⟩
    | tail _ edge => exact ⟨_, edge⟩
  exact unawaited s member awaited

end Daimon.Proof.Orchestrator
