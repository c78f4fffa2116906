import Daimon.Orchestrator.CreatePlan
import Daimon.Proof.Orchestrator.Rerun
import Mathlib.Data.List.Nodup

/-!
# Barriers from definition to dispatch

A definition names the steps it waits for by index, a row by id, and the scheduler compares ids. What
one call dispatches follows its own log, whatever other calls on the plan do, so a barrier that
reaches the row is kept in every run.
-/

namespace Daimon.Proof.Orchestrator
open Daimon.Core Lib Daimon.Orchestrator

variable {sv : Semver}

/-! ## Calls that do not know of each other -/

theorem setStepStatus_definitions (rows : PlanRows) (id : Uuid) (status : StepStatus) (result : Option Json)
    (started : Bool) :
    (rows.setStepStatus id status result started).steps.map definition = rows.steps.map definition := by
  cases started <;>
    simp only [PlanRows.setStepStatus, PlanRows.updateStep, Bool.false_eq_true, if_false, if_true, List.map_map] <;>
    refine List.map_congr_left fun s _ => ?_ <;>
    simp only [Function.comp_apply] <;>
    split <;> rfl

theorem advance_definitions {rows : PlanRows} {r : Runner sv} {answer : Answer} {m : Moved sv}
    (moved : advance rows r answer = some m) :
    m.rows.steps.map definition = rows.steps.map definition := by
  cases advance_transition moved with
  | mark | succeed | fail | compensated => exact setStepStatus_definitions _ _ _ _ _
  | _ => rfl

/-- The rows keep their definitions, and every call's log is that of a call on those definitions. -/
structure KeepsDefinitions (plan : List Step) (w : Service sv) : Prop where
  rows : w.rows.steps.map definition = plan.map definition
  runners : ∀ i r, w.runners[i]? = some r → ∃ listed, RunnerInv listed r (logOf i w.log) ∧
    listed.map definition = plan.map definition
  unused : ∀ i, w.runners.length ≤ i → logOf i w.log = []

theorem KeepsDefinitions.start (rows : PlanRows) :
    KeepsDefinitions rows.steps (.start rows : Service sv) where
  rows := rfl
  runners := by simp [Service.start]
  unused := by simp [Service.start, logOf]

theorem KeepsDefinitions.advanced {plan : List Step} {w : Service sv} (inv : KeepsDefinitions plan w) {i : Nat}
    {r : Runner sv} {answer : Answer} {m : Moved sv} (found : w.runners[i]? = some r)
    (moved : advance w.rows r answer = some m) :
    KeepsDefinitions plan
      { rows := m.rows, runners := w.runners.set i m.runner, log := w.log ++ m.events.map (i, ·) } := by
  refine ⟨(advance_definitions moved).trans inv.rows, ?_, ?_⟩
  · intro j s at_j
    rcases set_cases at_j with ⟨rfl, rfl⟩ | ⟨other, at_j⟩
    · obtain ⟨listed, runnerInv, same⟩ := inv.runners j r found
      simp only [logOf_append_self]
      by_cases lists : r.phase = .listSteps
      · have fresh : RunnerInv w.rows.steps r (logOf j w.log) := runnerInv.relist (by rw [lists]; trivial)
        exact ⟨w.rows.steps, advance_inv fresh (fun _ => rfl) moved, inv.rows⟩
      · exact ⟨listed, advance_inv runnerInv (fun at_list => absurd at_list lists) moved, same⟩
    · obtain ⟨listed, runnerInv, same⟩ := inv.runners j s at_j
      exact ⟨listed, by simpa only [logOf_append_other other] using runnerInv, same⟩
  · intro j bound
    have beyond : w.runners.length ≤ j := by simpa using bound
    have other : j ≠ i := by
      rintro rfl
      exact absurd (List.getElem?_eq_some_iff.mp found).1 (by omega)
    simpa only [logOf_append_other other] using inv.unused j beyond

theorem step_keepsDefinitions (plan : List Step) (w : Service sv) (action : Service.Action) (w' : Service sv)
    (inv : KeepsDefinitions plan w) (moved : w.step action = some w') : KeepsDefinitions plan w' := by
  cases action with
  | call =>
      cases moved
      refine ⟨inv.rows, ?_, ?_⟩
      · intro j s at_j
        rcases snoc_cases at_j with old | ⟨rfl, rfl⟩
        · exact inv.runners j s old
        · refine ⟨plan, ?_, rfl⟩
          rw [inv.unused _ le_rfl]
          exact RunnerInv.new _
      · intro j bound
        exact inv.unused j (by simp at bound; omega)
  | advance i answer =>
      simp only [Service.step] at moved
      split at moved
      case h_1 r found =>
        obtain ⟨m, advanced, rfl⟩ := Option.map_eq_some_iff.mp moved
        exact inv.advanced found advanced
      case h_2 => cases moved
  | crash i =>
      simp only [Service.step] at moved
      split at moved
      · cases moved
      case h_2 r _ found =>
        cases moved
        refine ⟨inv.rows, ?_, fun j bound => inv.unused j (by simpa using bound)⟩
        intro j s at_j
        rcases set_cases at_j with ⟨rfl, rfl⟩ | ⟨-, was_j⟩
        · obtain ⟨listed, runnerInv, same⟩ := inv.runners j r found
          exact ⟨listed, ⟨runnerInv.logInv, trivial⟩, same⟩
        · exact inv.runners j s was_j
      · cases moved

theorem logOf_split {c : Nat} {e : Event sv} {log before after : List (Nat × Event sv)}
    (split : log = before ++ (c, e) :: after) : logOf c log = logOf c before ++ e :: logOf c after := by
  subst split
  simp [logOf]

theorem same_definition {listed plan : List Step} (same : listed.map definition = plan.map definition)
    {idx : Nat} {s : Step} (found : listed[idx]? = some s) :
    ∃ t, plan[idx]? = some t ∧ definition s = definition t := by
  have both : (plan.map definition)[idx]? = some (definition s) := by
    rw [← same, List.getElem?_map, found]
    rfl
  rw [List.getElem?_map] at both
  obtain ⟨t, at_idx, equal⟩ := Option.map_eq_some_iff.mp both
  exact ⟨t, at_idx, equal.symm⟩

theorem KeepsDefinitions.dispatched {plan : List Step} {w : Service sv} (inv : KeepsDefinitions plan w)
    {before after : List (Nat × Event sv)} {c idx : Nat} {step : Step}
    (split : w.log = before ++ (c, .dispatched idx) :: after) (found : plan[idx]? = some step) :
    ∀ d ∈ step.dependsOn, ∃ (k : Nat) (t : Step), plan[k]? = some t ∧ t.id = d ∧
      (c, .stepStatus k .succeeded) ∈ before := by
  intro d waits
  have own := logOf_split split
  have running : c < w.runners.length := by
    by_contra beyond
    rw [inv.unused c (Nat.le_of_not_lt beyond)] at own
    simp at own
  obtain ⟨listed, runnerInv, same⟩ := inv.runners c _ (List.getElem?_eq_getElem running)
  obtain ⟨s, at_idx, ready⟩ := runnerInv.logInv.dependencies _ _ _ own
  obtain ⟨t, at_plan, equal⟩ := same_definition same at_idx
  obtain rfl : t = step := Option.some.inj (at_plan.symm.trans found)
  rw [← (definition_eq equal).2.1] at waits
  obtain ⟨k, recorded, u, at_k, rfl⟩ := ready d waits
  obtain ⟨v, inPlan, equalIds⟩ := same_definition same at_k
  exact ⟨k, v, inPlan, (definition_eq equalIds).1.symm, (mem_logOf).mp ((mem_successes).mp recorded)⟩

/-! ## The created rows -/

variable {newId : Nat → Uuid} {planId : Uuid} {database : Option Error} {defs : List StepDef} {rows : PlanRows}

theorem createPlan_ok (created : createPlan newId planId database defs = .ok rows) :
    rows.steps = createdSteps newId planId defs := by
  unfold createPlan at created
  split at created
  · cases created
  · split at created
    · cases created
      rfl
    · cases created

theorem mem_createdSteps (newId : Nat → Uuid) (planId : Uuid) (defs : List StepDef) {step : Step} :
    step ∈ createdSteps newId planId defs ↔ ∃ i d, defs[i]? = some d ∧
      step = createdStep planId ((List.range defs.length).map newId) (newId i) i d := by
  unfold createdSteps
  rw [List.mem_mergeSort, List.mem_map]
  constructor
  · rintro ⟨⟨d, i⟩, member, rfl⟩
    exact ⟨i, d, List.mk_mem_zipIdx_iff_getElem?.mp member, rfl⟩
  · rintro ⟨i, d, found, rfl⟩
    exact ⟨(d, i), List.mk_mem_zipIdx_iff_getElem?.mpr found, rfl⟩

theorem asI32_eq {i : Nat} (short : i < 0x80000000) : asI32 i = i := by
  apply Int.bmod_eq_of_le <;> omega

theorem createdSteps_eq (newId : Nat → Uuid) (planId : Uuid) (defs : List StepDef)
    (short : defs.length ≤ 0x80000000) :
    createdSteps newId planId defs = defs.zipIdx.map fun (d, i) =>
      createdStep planId ((List.range defs.length).map newId) (newId i) i d := by
  apply List.mergeSort_of_pairwise
  rw [List.pairwise_map, List.pairwise_iff_getElem]
  intro i j at_i at_j before
  simp only [List.length_zipIdx] at at_i at_j
  have first : asI32 i = i := asI32_eq (by omega)
  have second : asI32 j = j := asI32_eq (by omega)
  simp only [List.getElem_zipIdx, createdStep, Nat.zero_add, first, second, decide_eq_true_eq]
  omega

theorem mem_dependsOn {d : StepDef} {id : Uuid} {i j : Nat} (listed : j ∈ d.dependsOnIndex)
    (bound : j < defs.length) :
    newId j ∈ (createdStep planId ((List.range defs.length).map newId) id i d).dependsOn := by
  refine List.mem_filterMap.mpr ⟨j, listed, ?_⟩
  simp [bound]

theorem mem_rows_of_id (created : createPlan newId planId database defs = .ok rows) {step : Step} {i : Nat}
    {d : StepDef} (found : defs[i]? = some d) (member : step ∈ rows.steps) (sameId : step.id = newId i) :
    step = createdStep planId ((List.range defs.length).map newId) (newId i) i d := by
  have listed : createdStep planId ((List.range defs.length).map newId) (newId i) i d ∈ rows.steps := by
    rw [createPlan_ok created]
    exact (mem_createdSteps newId planId defs).mpr ⟨i, d, found, rfl⟩
  exact List.inj_on_of_nodup_map rows.distinct member listed sameId

/-! ## Barriers -/

def Persisted (newId : Nat → Uuid) (defs : List StepDef) (rows : PlanRows) : Prop :=
  ∀ i d, defs[i]? = some d → ∀ j ∈ d.dependsOnIndex, j < defs.length ∧
    ∃ step ∈ rows.steps, step.id = newId i ∧ newId j ∈ step.dependsOn

variable (sv) in
/-- In every run of any calls on the plan, a call dispatches step `i` only after it has recorded the
success of every step `j` that `i`'s definition lists. -/
def Scheduled (newId : Nat → Uuid) (defs : List StepDef) (rows : PlanRows) : Prop :=
  ∀ (actions : List Service.Action) (w : Service sv), run Service.step (.start rows) actions = some w →
    ∀ before c idx after, w.log = before ++ (c, .dispatched idx) :: after →
      ∀ step i d, rows.steps[idx]? = some step → defs[i]? = some d → step.id = newId i →
        ∀ j ∈ d.dependsOnIndex, ∃ (k : Nat) (t : Step), rows.steps[k]? = some t ∧ t.id = newId j ∧
          (c, .stepStatus k .succeeded) ∈ before

theorem persisted_of_inRange (created : createPlan newId planId database defs = .ok rows)
    (inRange : ∀ d ∈ defs, ∀ j ∈ d.dependsOnIndex, j < defs.length) : Persisted newId defs rows := by
  intro i d found j listed
  have bound := inRange d (List.mem_of_getElem? found) j listed
  have member := (mem_createdSteps newId planId defs).mpr ⟨i, d, found, rfl⟩
  rw [← createPlan_ok created] at member
  exact ⟨bound, _, member, rfl, mem_dependsOn listed bound⟩

theorem scheduled_of_persisted (created : createPlan newId planId database defs = .ok rows)
    (persisted : Persisted newId defs rows) : Scheduled sv newId defs rows := by
  intro actions w reached before c idx after split step i d at_idx found sameId j listed
  have inv := invariant_of_run (step_keepsDefinitions rows.steps) (KeepsDefinitions.start rows) reached
  obtain ⟨-, row, member, rowId, waits⟩ := persisted i d found j listed
  have own := mem_rows_of_id created found (List.mem_of_getElem? at_idx) sameId
  have same := mem_rows_of_id created found member rowId
  rw [same, ← own] at waits
  exact inv.dispatched split at_idx (newId j) waits

/-- A created plan keeps its barriers, in its rows and in every run, exactly when every index names a
definition of the list. -/
theorem create_plan_barriers (newId : Nat → Uuid) (planId : Uuid) (database : Option Error)
    (defs : List StepDef) (rows : PlanRows)
    (created : createPlan newId planId database defs = .ok rows) :
    (Persisted newId defs rows ∧ Scheduled sv newId defs rows) ↔
      ∀ d ∈ defs, ∀ j ∈ d.dependsOnIndex, j < defs.length := by
  constructor
  · rintro ⟨persisted, -⟩ d member j listed
    obtain ⟨i, found⟩ := List.mem_iff_getElem?.mp member
    exact (persisted i d found j listed).1
  · intro inRange
    have persisted := persisted_of_inRange created inRange
    exact ⟨persisted, scheduled_of_persisted created persisted⟩

/-! ## A sample definition list -/

def sampleDef (dependsOnIndex : List Nat) : StepDef :=
  { capabilityName := "network.routeros.firewall_add_drop_rule", capabilityVersion := "1.0.0",
    targetRef := some "target://mikrotik-edge", params := .object [("comment", .string "block")],
    dependsOnIndex }

def sampleId (i : Nat) : Uuid := BitVec.ofNat 128 i

theorem createPlan_short (defs : List StepDef) (short : defs.length ≤ 0x80000000)
    (distinct : ((defs.zipIdx.map fun (d, i) =>
      createdStep 9 ((List.range defs.length).map sampleId) (sampleId i) i d).map Step.id).Nodup) :
    ∃ rows, createPlan sampleId 9 none defs = .ok rows := by
  unfold createPlan
  rw [dif_pos (by rw [createdSteps_eq sampleId 9 defs short]; exact distinct)]
  exact ⟨_, rfl⟩

theorem sample_barriers :
    ∃ rows, createPlan sampleId 9 none [sampleDef [], sampleDef [0]] = .ok rows ∧
      Persisted sampleId [sampleDef [], sampleDef [0]] rows ∧
      Scheduled Semver.caret sampleId [sampleDef [], sampleDef [0]] rows := by
  obtain ⟨rows, created⟩ := createPlan_short [sampleDef [], sampleDef [0]] (by decide) (by decide)
  refine ⟨rows, created, ?_⟩
  apply (create_plan_barriers sampleId 9 none [sampleDef [], sampleDef [0]] rows created).mpr
  decide

theorem dangling_index_dropped :
    ∃ rows, createPlan sampleId 9 none [sampleDef [5]] = .ok rows ∧
      (∃ step ∈ rows.steps, step.dependsOn = []) ∧ ¬ Persisted sampleId [sampleDef [5]] rows := by
  obtain ⟨rows, created⟩ := createPlan_short [sampleDef [5]] (by decide) (by decide)
  refine ⟨rows, created, ?_, ?_⟩
  · have member := (mem_createdSteps sampleId 9 [sampleDef [5]]).mpr ⟨0, _, rfl, rfl⟩
    rw [← createPlan_ok created] at member
    exact ⟨_, member, rfl⟩
  · intro persisted
    obtain ⟨bound, -⟩ := persisted 0 _ rfl 5 (by decide)
    simp at bound

end Daimon.Proof.Orchestrator
