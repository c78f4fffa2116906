import Daimon.Proof.Orchestrator.Loop

/-!
# Plan execution order

One call that is alone on a plan, from any rows and with any outcomes: it returns, and its log says
in which order the steps were dispatched.
-/

namespace Daimon.Proof.Orchestrator
open Daimon.Core Lib Daimon.Orchestrator

variable {sv : Semver}

/-! ## Invariants of an execution -/

structure ExecInv (listed : List Step) (x : Execution sv) : Prop where
  runner : RunnerInv listed x.runner x.log
  unlisted : x.runner.phase = .setExecuting ∨ x.runner.phase = .listSteps → x.rows.steps = listed

theorem ExecInv.start (rows : PlanRows) : ExecInv rows.steps (.start rows : Execution sv) :=
  ⟨RunnerInv.new rows.steps, fun _ => rfl⟩

theorem advance_unlisted {rows : PlanRows} {r : Runner sv} {answer : Answer} {m : Moved sv}
    (moved : advance rows r answer = some m)
    (before : m.runner.phase = .setExecuting ∨ m.runner.phase = .listSteps) :
    r.phase = .setExecuting ∧ m.rows.steps = rows.steps := by
  cases advance_transition moved with
  | execute at_phase => exact ⟨at_phase, rfl⟩
  | leave =>
      simp only [leaveLoop] at before
      split at before <;> simp at before
  | _ => simp at before

theorem ExecInv.step {listed : List Step} {x y : Execution sv} {answer : Answer} (inv : ExecInv listed x)
    (moved : x.step answer = some y) : ExecInv listed y := by
  obtain ⟨m, advanced, rfl⟩ := Option.map_eq_some_iff.mp moved
  refine ⟨advance_inv inv.runner (fun lists => inv.unlisted (Or.inr lists)) advanced, ?_⟩
  intro before
  obtain ⟨first, same⟩ := advance_unlisted advanced before
  exact same.trans (inv.unlisted (Or.inl first))

theorem drive_induction {env : Environment sv} {motive : Execution sv → Prop}
    (step : ∀ {x y}, motive x → x.step (env.answer x.runner.phase) = some y → motive y) (fuel : Nat)
    {x : Execution sv} (start : motive x) : motive (env.drive fuel x) := by
  induction fuel generalizing x with
  | zero => exact start
  | succ fuel ih =>
      simp only [Environment.drive]
      split
      case h_1 y moved => exact ih (step start moved)
      case h_2 => exact start

/-! ## Termination -/

/-- A bound on the steps a call has left. A pending step is worth the five steps of its dispatch and
the four of its compensation. -/
def remaining (x : Execution sv) : Nat :=
  let pending := x.runner.steps.countP Step.isPending
  let settled := x.runner.succeededOrder.length
  match x.runner.phase with
  | .setExecuting => 9 * x.rows.steps.length + 6
  | .listSteps => 9 * x.rows.steps.length + 5
  | .scan => 9 * pending + 4 * settled + 4
  | .markRunning _ _ => 9 * pending + 4 * settled + 3
  | .dispatchStep _ _ => 9 * pending + 4 * settled + 11
  | .awaitReply _ _ _ => 9 * pending + 4 * settled + 10
  | .recordStep _ _ _ => 9 * pending + 4 * settled + 9
  | .compensate todo => 4 * todo.length + 3
  | .awaitCompensator _ _ _ rest => 4 * rest.length + 6
  | .recordCompensated _ _ _ rest => 4 * rest.length + 5
  | .finish _ => 1
  | .returned _ | .crashed => 0

def Live : Phase sv → Prop
  | .returned (.error _) | .crashed => False
  | _ => True

theorem step_remaining {listed : List Step} {x y : Execution sv} {answer : Answer} (inv : ExecInv listed x)
    (moved : x.step answer = some y) (healthy : ∀ e, answer ≠ .failed e) :
    remaining y < remaining x ∧ Live y.runner.phase := by
  obtain ⟨⟨-, phaseInv⟩, -⟩ := inv
  obtain ⟨m, advanced, rfl⟩ := Option.map_eq_some_iff.mp moved
  cases advance_transition advanced with
  | execute at_phase => exact ⟨by simp [remaining, at_phase, PlanRows.setPlanStatus], trivial⟩
  | listNone at_phase empty => exact ⟨by simp [remaining, at_phase], trivial⟩
  | list at_phase =>
      simp only [PhaseInv, at_phase] at phaseInv
      have bound := List.countP_le_length (p := Step.isPending) (l := x.rows.steps)
      refine ⟨?_, trivial⟩
      simp only [remaining, at_phase, phaseInv.2.1, List.length_nil]
      omega
  | choose at_phase next => exact ⟨by simp [remaining, at_phase], trivial⟩
  | leave at_phase next =>
      simp only [remaining, at_phase, leaveLoop]
      split_ifs
      · exact ⟨by simp only [List.length_reverse]; omega, trivial⟩
      · exact ⟨by simp, trivial⟩
  | @mark idx step at_phase =>
      simp only [PhaseInv, at_phase] at phaseInv
      obtain ⟨-, -, s, found, pending⟩ := phaseInv
      have fewer : (setStatus x.runner.steps idx .running).countP Step.isPending <
          x.runner.steps.countP Step.isPending :=
        countP_modify_lt (fun _ => rfl) found (by simp [Step.isPending, pending])
      refine ⟨?_, trivial⟩
      simp only [remaining, at_phase]
      omega
  | send at_phase built => exact ⟨by simp [remaining, at_phase], trivial⟩
  | refuse at_phase built => exact ⟨by simp [remaining, at_phase], trivial⟩
  | reply at_phase => exact ⟨by simp [remaining, at_phase], trivial⟩
  | @succeed idx step result at_phase =>
      have bound := countP_modify_le (p := Step.isPending)
        (f := fun s : Step => { s with status := .succeeded, result := some result }) (fun _ => rfl)
        x.runner.steps idx
      refine ⟨?_, trivial⟩
      simp only [remaining, at_phase, List.length_append, List.length_singleton]
      omega
  | fail at_phase =>
      refine ⟨?_, trivial⟩
      simp only [remaining, at_phase, List.length_reverse]
      omega
  | rolledBack at_phase => exact ⟨by simp [remaining, at_phase], trivial⟩
  | skip at_phase found resolved => exact ⟨by simp [remaining, at_phase], trivial⟩
  | unsendable at_phase found resolved built => exact ⟨by simp [remaining, at_phase], trivial⟩
  | compensate at_phase found resolved built =>
      refine ⟨?_, trivial⟩
      simp only [remaining, at_phase, List.length_cons]
      omega
  | compensatorReplied at_phase => exact ⟨by simp [remaining, at_phase], trivial⟩
  | compensatorFailed at_phase => exact ⟨by simp [remaining, at_phase], trivial⟩
  | compensated at_phase => exact ⟨by simp [remaining, at_phase], trivial⟩
  | uncompensated at_phase => exact absurd rfl (healthy _)
  | finish at_phase => exact ⟨by simp [remaining, at_phase], trivial⟩
  | abort at_phase => exact absurd rfl (healthy _)

theorem answer_healthy {env : Environment sv} (healthy : ∀ phase, env.database phase = none) (phase : Phase sv)
    (e : Error) : env.answer phase ≠ .failed e := by
  unfold Environment.answer
  split <;> simp [Environment.write, healthy]

/-- The loop does not get stuck: the only partial step is the lookup of a step to compensate. -/
theorem step_enabled {listed : List Step} {x : Execution sv} {env : Environment sv}
    (healthy : ∀ phase, env.database phase = none) (inv : ExecInv listed x) (live : Live x.runner.phase)
    (busy : ∀ status, x.runner.phase ≠ .returned (.ok status)) :
    ∃ y, x.step (env.answer x.runner.phase) = some y := by
  obtain ⟨⟨-, phaseInv⟩, -⟩ := inv
  cases at_phase : x.runner.phase with
  | recordStep idx step outcome =>
      cases outcome <;> simp [Execution.step, Environment.answer, Environment.write, healthy, advance, at_phase]
  | compensate todo =>
      cases todo with
      | nil => simp [Execution.step, Environment.answer, advance, at_phase]
      | cons idx rest =>
          simp only [PhaseInv, at_phase] at phaseInv
          obtain ⟨closing, recorded⟩ := phaseInv
          obtain ⟨-, t, inList, -⟩ := closing.valid idx (recorded idx (by simp))
          have bound : idx < x.runner.steps.length := closing.length ▸ (List.getElem?_eq_some_iff.mp inList).1
          simp only [Execution.step, Environment.answer, advance, at_phase, List.getElem?_eq_getElem bound]
          split
          · exact ⟨_, rfl⟩
          · split <;> exact ⟨_, rfl⟩
  | returned result =>
      cases result with
      | ok status => exact absurd at_phase (busy status)
      | error e => simp [Live, at_phase] at live
  | crashed => simp [Live, at_phase] at live
  | _ => simp [Execution.step, Environment.answer, Environment.write, healthy, advance, at_phase]

theorem step_progress {listed : List Step} {x : Execution sv} {env : Environment sv}
    (healthy : ∀ phase, env.database phase = none) (inv : ExecInv listed x) (live : Live x.runner.phase)
    (busy : ∀ status, x.runner.phase ≠ .returned (.ok status)) :
    ∃ y, x.step (env.answer x.runner.phase) = some y ∧ remaining y < remaining x ∧ Live y.runner.phase := by
  obtain ⟨y, moved⟩ := step_enabled healthy inv live busy
  exact ⟨y, moved, step_remaining inv moved (answer_healthy healthy _)⟩

theorem drive_returns {listed : List Step} {env : Environment sv}
    (healthy : ∀ phase, env.database phase = none) (fuel : Nat) (x : Execution sv)
    (inv : ExecInv listed x) (live : Live x.runner.phase) (enough : remaining x ≤ fuel) :
    ∃ status, (env.drive fuel x).runner.phase = .returned (.ok status) := by
  induction fuel generalizing x with
  | zero =>
      by_contra busy
      obtain ⟨y, -, fewer, -⟩ := step_progress healthy inv live fun status ended => busy ⟨status, ended⟩
      omega
  | succ fuel ih =>
      by_cases ended : ∃ status, x.runner.phase = .returned (.ok status)
      · obtain ⟨status, at_end⟩ := ended
        refine ⟨status, ?_⟩
        simp [Environment.drive, Execution.step, advance, at_end, Environment.answer]
      · obtain ⟨y, moved, fewer, liveAfter⟩ :=
          step_progress healthy inv live fun status at_end => ended ⟨status, at_end⟩
        simp only [Environment.drive, moved]
        exact ih y (inv.step moved) liveAfter (by omega)

/-! ## What is recorded -/

def stepOutcome (env : Environment sv) (idx : Nat) (step : Step) : Except Error Json :=
  match stepRequest sv step with
  | .ok _ => readStepReply step (env.dispatch idx)
  | .error e => .error e

def StepSucceeds (env : Environment sv) (listed : List Step) (idx : Nat) : Prop :=
  ∃ step reply, listed[idx]? = some step ∧ stepOutcome env idx step = .ok reply

structure Truthful (env : Environment sv) (listed : List Step) (x : Execution sv) : Prop where
  succeeded : ∀ i, .stepStatus i .succeeded ∈ x.log → StepSucceeds env listed i
  failed : ∀ i, .stepStatus i .failed ∈ x.log → ¬ StepSucceeds env listed i
  awaiting : ∀ idx step request, x.runner.phase = .awaitReply idx step request →
    stepRequest sv step = .ok request
  recording : ∀ idx step outcome, x.runner.phase = .recordStep idx step outcome →
    outcome = stepOutcome env idx step

theorem Truthful.start (env : Environment sv) (rows : PlanRows) :
    Truthful env rows.steps (.start rows : Execution sv) := by
  refine ⟨?_, ?_, ?_, ?_⟩ <;> intros <;> simp_all [Execution.start, Runner.new]

theorem stepOutcome_congr {env : Environment sv} {idx : Nat} {s t : Step} (same : definition s = definition t) :
    stepOutcome env idx s = stepOutcome env idx t := by
  have onDefinitions : stepOutcome env idx (definition s) = stepOutcome env idx (definition t) := by rw [same]
  exact onDefinitions

theorem Truthful.step {env : Environment sv} {listed : List Step} {x y : Execution sv}
    (truth : Truthful env listed x) (inv : ExecInv listed x)
    (moved : x.step (env.answer x.runner.phase) = some y) : Truthful env listed y := by
  obtain ⟨m, advanced, rfl⟩ := Option.map_eq_some_iff.mp moved
  have phaseInv := inv.runner.phaseInv
  generalize given : env.answer x.runner.phase = answer at advanced
  have keep {m : Moved sv}
      (quiet : ∀ i status, .stepStatus i status ∈ m.events → status = .running ∨ status = .compensated)
      (notAwaiting : ∀ idx step request, m.runner.phase = .awaitReply idx step request →
        stepRequest sv step = .ok request)
      (notRecording : ∀ idx step outcome, m.runner.phase = .recordStep idx step outcome →
        outcome = stepOutcome env idx step) :
      Truthful env listed { rows := m.rows, runner := m.runner, log := x.log ++ m.events } := by
    refine ⟨?_, ?_, notAwaiting, notRecording⟩ <;> intro i member <;>
      rcases List.mem_append.mp member with old | new
    · exact truth.succeeded i old
    · simpa using quiet i _ new
    · exact truth.failed i old
    · simpa using quiet i _ new
  cases advance_transition advanced with
  | send at_phase built =>
      exact keep (by simp) (by rintro _ _ _ ⟨⟩; exact built) (by simp)
  | refuse at_phase built =>
      apply keep (by simp) (by simp)
      rintro _ _ _ ⟨⟩
      simp [stepOutcome, built]
  | reply at_phase =>
      apply keep (by simp) (by simp)
      rintro _ _ _ ⟨⟩
      rw [at_phase, Environment.answer] at given
      cases given
      simp [stepOutcome, truth.awaiting _ _ _ at_phase]
  | @succeed idx step result at_phase =>
      simp only [PhaseInv, at_phase] at phaseInv
      obtain ⟨-, ⟨t, at_idx, same, -⟩, -⟩ := phaseInv
      have outcome := truth.recording _ _ _ at_phase
      refine ⟨?_, ?_, by simp, by simp⟩ <;> intro i member <;>
        rcases List.mem_append.mp member with old | new
      · exact truth.succeeded i old
      · obtain rfl : i = idx := by simpa using new
        exact ⟨t, result, at_idx, (stepOutcome_congr same).symm.trans outcome.symm⟩
      · exact truth.failed i old
      · simp at new
  | @fail idx step e at_phase =>
      simp only [PhaseInv, at_phase] at phaseInv
      obtain ⟨-, ⟨t, at_idx, same, -⟩, -⟩ := phaseInv
      have outcome := truth.recording _ _ _ at_phase
      refine ⟨?_, ?_, by simp, by simp⟩ <;> intro i member <;>
        rcases List.mem_append.mp member with old | new
      · exact truth.succeeded i old
      · simp at new
      · exact truth.failed i old
      · obtain rfl : i = idx := by simpa using new
        rintro ⟨t', reply, found, succeeds⟩
        obtain rfl : t' = t := Option.some.inj (found.symm.trans at_idx)
        rw [← stepOutcome_congr same, ← outcome] at succeeds
        cases succeeds
  | leave =>
      refine keep (by simp) ?_ ?_ <;> simp only [leaveLoop] <;> split <;> simp
  | _ => exact keep (by simp) (by simp) (by simp)

theorem drive_inv {env : Environment sv} {listed : List Step} (fuel : Nat) (x : Execution sv)
    (inv : ExecInv listed x) (truth : Truthful env listed x) :
    ExecInv listed (env.drive fuel x) ∧ Truthful env listed (env.drive fuel x) := by
  apply drive_induction (motive := fun x => ExecInv listed x ∧ Truthful env listed x)
  · rintro x y ⟨inv, truth⟩ moved
    exact ⟨inv.step moved, truth.step inv moved⟩
  · exact ⟨inv, truth⟩

/-! ## The order of a plan -/

theorem run_plan_order (rows : PlanRows) (pending : ∀ step ∈ rows.steps, step.status = .pending)
    (env : Environment sv) (healthy : ∀ phase, env.database phase = none) (fuel : Nat)
    (enough : 9 * rows.steps.length + 6 ≤ fuel) :
    ∃ x status, env.drive fuel (.start rows) = x ∧ x.runner.phase = .returned (.ok status) ∧
      (dispatches x.log).Nodup ∧
      (∀ before idx after, x.log = before ++ .dispatched idx :: after →
        ∃ step, rows.steps[idx]? = some step ∧ ∀ d ∈ step.dependsOn,
          ∃ (j : Nat) (t : Step), rows.steps[j]? = some t ∧ t.id = d ∧ .stepStatus j .succeeded ∈ before) ∧
      (∀ before idx after, x.log = before ++ .dispatched idx :: after → ¬ StepSucceeds env rows.steps idx →
        ∀ i, .dispatched i ∉ after) ∧
      (status = .succeeded ↔ ∀ idx < rows.steps.length,
        .dispatched idx ∈ x.log ∧ StepSucceeds env rows.steps idx) := by
  obtain ⟨status, ended⟩ := drive_returns healthy fuel (.start rows) (ExecInv.start rows) trivial enough
  obtain ⟨inv, truth⟩ := drive_inv fuel _ (ExecInv.start rows) (Truthful.start env rows)
  obtain ⟨logInv, phaseInv⟩ := inv.runner
  refine ⟨_, status, rfl, ended, logInv.once, ?_, ?_, ?_⟩
  · intro before idx after split
    obtain ⟨step, found, ready⟩ := logInv.dependencies before idx after split
    refine ⟨step, found, fun d depends => ?_⟩
    obtain ⟨j, recorded, t, at_j, rfl⟩ := ready d depends
    exact ⟨j, t, at_j, rfl, (mem_successes).mp recorded⟩
  · intro before idx after split fails i later
    obtain ⟨between, rest, rfl⟩ := List.append_of_mem later
    have earlier : idx ∈ dispatches (before ++ .dispatched idx :: between) := (mem_dispatches).mpr (by simp)
    have recorded := logInv.settled (before ++ .dispatched idx :: between) i rest (by simp [split]) idx earlier
    refine fails (truth.succeeded idx ?_)
    rw [split]
    have logged := (mem_successes).mp recorded
    simp only [List.mem_append, List.mem_cons] at logged ⊢
    tauto
  · simp only [PhaseInv, ended] at phaseInv
    cases status <;> simp only at phaseInv
    · apply iff_of_true rfl
      intro idx bound
      have found := List.getElem?_eq_getElem bound
      obtain ⟨sent, recorded⟩ := (phaseInv idx _ found).2 (pending _ (List.getElem_mem bound))
      exact ⟨(mem_dispatches).mp sent, truth.succeeded idx ((mem_successes).mp recorded)⟩
    · apply iff_of_false (by simp)
      intro all
      obtain ⟨i, t, found, -, open_⟩ := phaseInv.unfinished
      obtain ⟨sent, succeeds⟩ := all i (List.getElem?_eq_some_iff.mp found).1
      rcases phaseInv.settled i ((mem_dispatches).mpr sent) with recorded | failure
      · exact open_ recorded
      · exact truth.failed i failure succeeds

/-! ## A sample plan

Two drop rules, the first listed waiting for the second, and a third step that nothing waits for.
-/

def sampleStep (id : Uuid) (dependsOn : List Uuid) : Step :=
  { id, planId := 9, stepIndex := id.toNat, capabilityName := "network.routeros.firewall_add_drop_rule",
    capabilityVersion := "1.0.0", targetRef := some "target://mikrotik-edge",
    params := .object [("comment", .string "block")], dependsOn, status := .pending, result := none }

def sampleRows : PlanRows :=
  { status := .planning, steps := [sampleStep 0 [1], sampleStep 1 [], sampleStep 2 []], distinct := by decide }

def sampleEnvironment : Environment Semver.caret where
  dispatch idx := .ok (.object [("success", .bool (idx ≠ 2))])
  registry _ := ⟨[], by decide⟩
  compensate _ := .error .busClosed
  database _ := none

theorem sample_plan_order :
    ∃ x status, sampleEnvironment.drive 33 (.start sampleRows) = x ∧ x.runner.phase = .returned (.ok status) ∧
      (dispatches x.log).Nodup := by
  obtain ⟨x, status, ran, ended, once, -⟩ :=
    run_plan_order sampleRows (by decide) sampleEnvironment (fun _ => rfl) 33 (by decide)
  exact ⟨x, status, ran, ended, once⟩

example : dispatches (sampleEnvironment.drive 33 (.start sampleRows)).log = [1, 0, 2] := by decide

end Daimon.Proof.Orchestrator
