import Daimon.Proof.Orchestrator.Order

/-!
# The compensation pass

Which compensators a failed plan attempts and in which order, and how their replies are read.
-/

namespace Daimon.Proof.Orchestrator
open Daimon.Core Lib Daimon.Orchestrator

variable {sv : Semver}

def compensators (log : List (Event sv)) : List (Nat × CompensatingCapability) :=
  log.filterMap fun
    | .compensating idx comp => some (idx, comp)
    | _ => none

def compensatorsSent (log : List (Event sv)) : List (Nat × Request sv) :=
  log.filterMap fun
    | .compensatorSent idx request => some (idx, request)
    | _ => none

def resolved (env : Environment sv) (listed : List Step) (idx : Nat) : Option (Nat × CompensatingCapability) :=
  listed[idx]?.bind fun step => (compensatorFor sv (env.registry idx) step.capabilityName).map (idx, ·)

def sendable (sv : Semver) (listed : List Step) : Nat × CompensatingCapability → Option (Nat × Request sv)
  | (idx, comp) => listed[idx]?.bind fun step => (compensatorRequest sv step comp).toOption.map (idx, ·)

@[simp] theorem compensators_append (log new : List (Event sv)) :
    compensators (log ++ new) = compensators log ++ compensators new := List.filterMap_append

@[simp] theorem compensatorsSent_append (log new : List (Event sv)) :
    compensatorsSent (log ++ new) = compensatorsSent log ++ compensatorsSent new := List.filterMap_append

theorem compensatorRequest_congr {s t : Step} (same : definition s = definition t)
    (comp : CompensatingCapability) : compensatorRequest sv s comp = compensatorRequest sv t comp := by
  -- The receipt of a step is the one executed field that a compensation is handed, and it is not read.
  have onDefinitions : compensatorRequest sv (definition s) comp = compensatorRequest sv (definition t) comp := by
    rw [same]
  exact onDefinitions

/-! ## The pass -/

/-- What the pass has attempted and what is still to do make up all that succeeded, last first. -/
def Walked (env : Environment sv) (listed : List Step) (log : List (Event sv)) (todo : List Nat) : Prop :=
  compensators log ++ todo.filterMap (resolved env listed) =
    (successes log).reverse.filterMap (resolved env listed)

def PassInv (env : Environment sv) (listed : List Step) (x : Execution sv) : Prop :=
  match x.runner.phase with
  | .compensate todo => Walked env listed x.log todo
  | .awaitCompensator _ _ _ rest | .recordCompensated _ _ _ rest => Walked env listed x.log rest
  | .finish .failed | .returned (.ok .failed) => Walked env listed x.log []
  | .returned (.error _) | .crashed => True
  | _ => compensators x.log = []

structure SagaInv (env : Environment sv) (listed : List Step) (x : Execution sv) : Prop where
  pass : PassInv env listed x
  sent : compensatorsSent x.log = (compensators x.log).filterMap (sendable sv listed)

theorem SagaInv.start (env : Environment sv) (rows : PlanRows) :
    SagaInv env rows.steps (.start rows : Execution sv) := ⟨rfl, rfl⟩

theorem Walked.start {env : Environment sv} {listed : List Step} {log : List (Event sv)} {order : List Nat}
    (untried : compensators log = []) (succeeded : order = successes log) :
    Walked env listed log order.reverse := by
  rw [Walked, untried, succeeded, List.nil_append]

theorem Walked.skip {env : Environment sv} {listed : List Step} {log : List (Event sv)} {idx : Nat}
    {rest : List Nat} (walked : Walked env listed log (idx :: rest)) (none : resolved env listed idx = none) :
    Walked env listed log rest := by
  simpa [Walked, none] using walked

theorem Walked.attempt {env : Environment sv} {listed : List Step} {log new : List (Event sv)} {idx : Nat}
    {comp : CompensatingCapability} {rest : List Nat} (walked : Walked env listed log (idx :: rest))
    (found : resolved env listed idx = some (idx, comp)) (attempted : compensators new = [(idx, comp)])
    (unrecorded : successes new = []) : Walked env listed (log ++ new) rest := by
  simpa [Walked, found, attempted, unrecorded] using walked

theorem SagaInv.step {env : Environment sv} {listed : List Step} {x y : Execution sv}
    (saga : SagaInv env listed x) (inv : ExecInv listed x)
    (moved : x.step (env.answer x.runner.phase) = some y) : SagaInv env listed y := by
  obtain ⟨m, advanced, rfl⟩ := Option.map_eq_some_iff.mp moved
  obtain ⟨pass, sent⟩ := saga
  have phaseInv := inv.runner.phaseInv
  generalize given : env.answer x.runner.phase = answer at advanced
  cases advance_transition advanced with
  | leave at_phase next =>
      simp only [PassInv, PhaseInv, at_phase] at pass phaseInv
      refine ⟨?_, by simpa using sent⟩
      simp only [leaveLoop, List.append_nil, PassInv]
      split_ifs
      · exact Walked.start pass phaseInv.order
      · exact pass
  | @fail idx step e at_phase =>
      simp only [PassInv, PhaseInv, at_phase] at pass phaseInv
      refine ⟨Walked.start ?_ ?_, by simpa [compensators, compensatorsSent] using sent⟩
      · simpa [compensators] using pass
      · simp [phaseInv.1.order, successes_stepStatus]
  | @skip idx rest registry step at_phase found resolves =>
      simp only [PassInv, PhaseInv, at_phase] at pass phaseInv
      rw [at_phase, Environment.answer] at given
      cases given
      refine ⟨?_, by simpa using sent⟩
      obtain ⟨-, t, inList, -⟩ := phaseInv.1.valid idx (phaseInv.2 idx (by simp))
      have same := (phaseInv.1.entries idx step t found inList).1
      simp only [List.append_nil, PassInv]
      apply pass.skip
      simp [resolved, inList, ← (definition_eq same).2.2, resolves]
  | @unsendable idx rest registry step comp e at_phase found resolves built =>
      simp only [PassInv, PhaseInv, at_phase] at pass phaseInv
      rw [at_phase, Environment.answer] at given
      cases given
      obtain ⟨-, t, inList, -⟩ := phaseInv.1.valid idx (phaseInv.2 idx (by simp))
      have same := (phaseInv.1.entries idx step t found inList).1
      refine ⟨pass.attempt ?_ rfl rfl, ?_⟩
      · simp [resolved, inList, ← (definition_eq same).2.2, resolves]
      · have unsent : sendable sv listed (idx, comp) = none := by
          simp [sendable, inList, ← compensatorRequest_congr same, built, Except.toOption]
        rw [compensatorsSent_append, compensators_append, List.filterMap_append, ← sent]
        simp [compensators, compensatorsSent, unsent]
  | @compensate idx rest registry step comp request at_phase found resolves built =>
      simp only [PassInv, PhaseInv, at_phase] at pass phaseInv
      rw [at_phase, Environment.answer] at given
      cases given
      obtain ⟨-, t, inList, -⟩ := phaseInv.1.valid idx (phaseInv.2 idx (by simp))
      have same := (phaseInv.1.entries idx step t found inList).1
      refine ⟨pass.attempt ?_ rfl rfl, ?_⟩
      · simp [resolved, inList, ← (definition_eq same).2.2, resolves]
      · have sends : sendable sv listed (idx, comp) = some (idx, request) := by
          simp [sendable, inList, ← compensatorRequest_congr same, built, Except.toOption]
        rw [compensatorsSent_append, compensators_append, List.filterMap_append, ← sent]
        simp [compensators, compensatorsSent, sends]
  | @finish status at_phase =>
      simp only [PassInv, PhaseInv, at_phase] at pass phaseInv
      refine ⟨?_, by simpa [compensators, compensatorsSent] using sent⟩
      cases status <;> simp only at pass phaseInv
      · simpa [PassInv, compensators] using pass
      · simpa [PassInv, Walked, compensators, successes] using pass
  | abort => exact ⟨trivial, by simpa using sent⟩
  | compensated at_phase =>
      simp only [PassInv, at_phase] at pass
      refine ⟨?_, by simpa [compensators, compensatorsSent] using sent⟩
      simpa [PassInv, Walked, compensators, successes] using pass
  | execute at_phase | listNone at_phase | list at_phase | choose at_phase | mark at_phase | send at_phase
  | refuse at_phase | reply at_phase | succeed at_phase | rolledBack at_phase | compensatorReplied at_phase
  | compensatorFailed at_phase | uncompensated at_phase =>
      simp only [PassInv, at_phase] at pass
      refine ⟨?_, by simpa [compensators, compensatorsSent] using sent⟩
      simpa [PassInv, compensators] using pass

theorem drive_saga {env : Environment sv} {listed : List Step} (fuel : Nat) (x : Execution sv)
    (inv : ExecInv listed x) (saga : SagaInv env listed x) : SagaInv env listed (env.drive fuel x) := by
  have both : ExecInv listed (env.drive fuel x) ∧ SagaInv env listed (env.drive fuel x) := by
    apply drive_induction (motive := fun x => ExecInv listed x ∧ SagaInv env listed x)
    · rintro x y ⟨inv, saga⟩ moved
      exact ⟨inv.step moved, saga.step inv moved⟩
    · exact ⟨inv, saga⟩
  exact both.2

theorem run_plan_compensates (rows : PlanRows) (env : Environment sv) (fuel : Nat) :
    ∃ x, env.drive fuel (.start rows) = x ∧
      (x.runner.phase = .returned (.ok .failed) →
        compensators x.log = (successes x.log).reverse.filterMap (resolved env rows.steps) ∧
        compensatorsSent x.log = (compensators x.log).filterMap (sendable sv rows.steps)) ∧
      (x.runner.phase = .returned (.ok .succeeded) → compensators x.log = [] ∧ compensatorsSent x.log = []) := by
  obtain ⟨pass, sent⟩ := drive_saga fuel _ (ExecInv.start rows) (SagaInv.start env rows)
  refine ⟨_, rfl, fun failed => ⟨?_, sent⟩, fun succeeded => ?_⟩
  · simpa only [PassInv, failed, Walked, List.filterMap_nil, List.append_nil] using pass
  · simp only [PassInv, succeeded] at pass
    exact ⟨pass, by rw [sent, pass, List.filterMap_nil]⟩

def sampleRegistry : Daimon.Runtime.CapabilityRegistry :=
  { entries := [⟨⟨"routeros"⟩, [
      { name := "network.routeros.firewall_add_drop_rule", version := .new 1 0 0, description := none,
        schema := none, irreversible := false,
        compensating := some ⟨"network.routeros.firewall_remove_rule", none⟩ },
      { name := "network.routeros.firewall_remove_rule", version := .new 1 0 0, description := none,
        schema := none, irreversible := true, compensating := none }]⟩]
    distinct := by decide }

def sampleRollback : Environment Semver.caret :=
  { sampleEnvironment with
    registry := fun _ => sampleRegistry
    compensate := fun idx => if idx = 0 then .error (.timeout 60) else .ok (.object [("success", .bool true)]) }

theorem sample_plan_compensates :
    ∃ x, sampleRollback.drive 33 (.start sampleRows) = x ∧ x.runner.phase = .returned (.ok .failed) ∧
      compensators x.log = (successes x.log).reverse.filterMap (resolved sampleRollback sampleRows.steps) ∧
      (compensators x.log).map Prod.fst = [0, 1] := by
  obtain ⟨x, ran, onFailure, -⟩ := run_plan_compensates sampleRows sampleRollback 33
  have failed : x.runner.phase = .returned (.ok .failed) := by rw [← ran]; decide
  refine ⟨x, ran, failed, (onFailure failed).1, ?_⟩
  rw [← ran]
  decide

/-! ## Reading the reply -/

/-- One step's compensation, from the lookup to the record: the step is recorded `Compensated` exactly
when the same reply would have made the step itself succeed. -/
def HonestCompensation (rows : PlanRows) (r : Runner sv) (registry : Daimon.Runtime.CapabilityRegistry)
    (idx : Nat) (step : Step) (reply : Json) : Prop :=
  ∀ x : Execution sv,
    run Execution.step ⟨rows, r, []⟩ [.registry registry, .dispatched (.ok reply), .go] = some x →
    (.stepStatus idx .compensated ∈ x.log ↔ ∃ result, readStepReply step (.ok reply) = .ok result)

theorem readStepReply_ok_iff (step : Step) (reply : Json) :
    (∃ result, readStepReply step (.ok reply) = .ok result) ↔ reportsFailure reply = false := by
  cases failure : reportsFailure reply <;> simp [readStepReply, failure]

theorem compensation_honest_iff (rows : PlanRows) (r : Runner sv) (registry : Daimon.Runtime.CapabilityRegistry)
    (idx : Nat) (rest : List Nat) (step : Step) (comp : CompensatingCapability) (request : Request sv) (reply : Json)
    (at_phase : r.phase = .compensate (idx :: rest)) (found : r.steps[idx]? = some step)
    (resolves : compensatorFor sv registry step.capabilityName = some comp)
    (built : compensatorRequest sv step comp = .ok request) :
    HonestCompensation rows r registry idx step reply ↔ reportsFailure reply = false := by
  have ran : run Execution.step (⟨rows, r, []⟩ : Execution sv)
      [.registry registry, .dispatched (.ok reply), .go] =
      some { rows := rows.setStepStatus step.id .compensated (some reply) false
             runner := { r with steps := setStatus r.steps idx .compensated, phase := .compensate rest }
             log := [.compensating idx comp, .compensatorSent idx request, .stepStatus idx .compensated] } := by
    simp [run, Execution.step, advance, at_phase, found, resolves, built, readCompensatorReply]
  rw [HonestCompensation, ran, ← readStepReply_ok_iff step reply]
  simp

def samplePass : Execution Semver.caret := sampleRollback.drive 17 (.start sampleRows)

theorem samplePass_honest :
    ∃ step comp request, samplePass.runner.phase = .compensate [0, 1] ∧ samplePass.runner.steps[0]? = some step ∧
      compensatorFor Semver.caret sampleRegistry step.capabilityName = some comp ∧
      compensatorRequest Semver.caret step comp = .ok request ∧
      (HonestCompensation samplePass.rows samplePass.runner sampleRegistry 0 step (.object [("success", .bool true)]) ↔
        reportsFailure (.object [("success", .bool true)]) = false) :=
  ⟨_, _, _, rfl, rfl, rfl, rfl,
    compensation_honest_iff samplePass.rows samplePass.runner sampleRegistry 0 [1] _ _ _ _ rfl rfl rfl rfl⟩

theorem failed_compensation_is_recorded :
    ∃ (env : Environment Semver.caret) (x : Execution Semver.caret) (reply : Json),
      env.drive 33 (.start sampleRows) = x ∧ x.runner.phase = .returned (.ok .failed) ∧
      env.compensate 0 = .ok reply ∧ reportsFailure reply = true ∧ .stepStatus 0 .compensated ∈ x.log ∧
      x.rows.steps[0]?.map Step.status = some .compensated := by
  refine ⟨{ sampleRollback with compensate := fun _ => .ok (.object [("success", .bool false)]) }, _, _,
    rfl, ?_, rfl, rfl, ?_, ?_⟩ <;> decide

end Daimon.Proof.Orchestrator
