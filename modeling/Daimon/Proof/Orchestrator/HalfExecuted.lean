import Daimon.Proof.Orchestrator.Saga

/-!
# A database failure in the middle of a plan

What is left behind when one statement of `run_plan` fails after the first dispatch.
-/

namespace Daimon.Proof.Orchestrator
open Daimon.Core Lib Daimon.Orchestrator

variable {sv : Semver}

def Statement : Phase sv → Prop
  | .setExecuting | .listSteps | .markRunning _ _ | .recordStep _ _ _ | .recordCompensated _ _ _ _
  | .finish _ => True
  | _ => False

/-- Nothing that the call did on a device is hidden: it is recorded or its compensation was attempted,
and no row says that the plan or one of its steps is still under way. -/
structure NotSilent (rows : PlanRows) (env : Environment sv) (x : Execution sv) : Prop where
  accounted : ∀ idx ∈ dispatches x.log, StepSucceeds env rows.steps idx →
    (∃ step, x.rows.steps[idx]? = some step ∧ step.status = .succeeded) ∨ ∃ comp, .compensating idx comp ∈ x.log
  noneRunning : ∀ step ∈ x.rows.steps, step.status ≠ .running
  ended : x.rows.status ≠ .executing

/-! ## The statement that fails -/

theorem failed_statement {env : Environment sv} {phase : Phase sv} {e : Error}
    (failed : env.answer phase = .failed e) : env.database phase = some e := by
  unfold Environment.answer at failed
  split at failed <;> try contradiction
  unfold Environment.write at failed
  split at failed
  case h_1 error given => rw [given, Answer.failed.inj failed]
  case h_2 => contradiction

theorem statement_fails {env : Environment sv} {phase : Phase sv} {e : Error} (issues : Statement phase)
    (fails : env.database phase = some e) : env.answer phase = .failed e := by
  cases phase <;> first | contradiction | simp [Environment.answer, Environment.write, fails]

theorem Statement.abortable {phase : Phase sv} (issues : Statement phase) :
    Abortable phase ∨ ∃ idx step reply rest, phase = .recordCompensated idx step reply rest := by
  cases phase with
  | recordCompensated idx step reply rest => exact Or.inr ⟨idx, step, reply, rest, rfl⟩
  | _ => exact Or.inl issues

theorem abort_step {x : Execution sv} {e : Error} (at_phase : Abortable x.runner.phase) :
    x.step (.failed e) =
      some { rows := x.rows, runner := { x.runner with phase := .returned (.error e) }, log := x.log } := by
  cases phase : x.runner.phase <;> rw [phase] at at_phase <;>
    first | contradiction | simp [Execution.step, advance, phase]

/-! ## The plan row -/

def UnderWay (x : Execution sv) : Prop :=
  match x.runner.phase with
  | .setExecuting | .returned _ | .crashed => True
  | _ => x.rows.status = .executing

theorem UnderWay.start (rows : PlanRows) : UnderWay (.start rows : Execution sv) := trivial

theorem setStepStatus_status (rows : PlanRows) (id : Uuid) (status : StepStatus) (result : Option Json)
    (setStarted : Bool) : (rows.setStepStatus id status result setStarted).status = rows.status := by
  cases setStarted <;> rfl

theorem UnderWay.step {x y : Execution sv} {answer : Answer} (underWay : UnderWay x)
    (moved : x.step answer = some y) : UnderWay y := by
  obtain ⟨m, advanced, rfl⟩ := Option.map_eq_some_iff.mp moved
  cases advance_transition advanced with
  | execute => rfl
  | leave at_phase next =>
      simp only [UnderWay, at_phase] at underWay
      simp only [UnderWay, leaveLoop]
      split_ifs <;> exact underWay
  | finish => trivial
  | abort => trivial
  | mark at_phase | succeed at_phase | fail at_phase | compensated at_phase =>
      simp only [UnderWay, at_phase] at underWay
      exact (setStepStatus_status _ _ _ _ _).trans underWay
  | listNone at_phase | list at_phase | choose at_phase | send at_phase | refuse at_phase | reply at_phase
  | rolledBack at_phase | skip at_phase | unsendable at_phase | compensate at_phase
  | compensatorReplied at_phase | compensatorFailed at_phase | uncompensated at_phase =>
      simpa only [UnderWay, at_phase] using underWay

/-- A dispatch comes after the statement that sets the plan executing. -/
theorem UnderWay.executing {listed : List Step} {x : Execution sv} (underWay : UnderWay x)
    (inv : ExecInv listed x) (at_phase : Abortable x.runner.phase) (dispatched : dispatches x.log ≠ []) :
    x.rows.status = .executing := by
  have phaseInv := inv.runner.phaseInv
  cases phase : x.runner.phase with
  | setExecuting =>
      simp only [PhaseInv, phase] at phaseInv
      obtain ⟨idx, sent⟩ := List.exists_mem_of_ne_nil _ dispatched
      obtain ⟨status, impossible⟩ := phaseInv.2.2 _ ((mem_dispatches).mp sent)
      cases impossible
  | listSteps | markRunning | recordStep | finish => simpa only [UnderWay, phase] using underWay
  | _ =>
      rw [phase] at at_phase
      contradiction

/-! ## Runs with one failure -/

theorem drive_succ {env : Environment sv} {fuel : Nat} {x y : Execution sv}
    (moved : (env.drive fuel x).step (env.answer (env.drive fuel x).runner.phase) = some y) :
    env.drive (fuel + 1) x = y := by
  induction fuel generalizing x with
  | zero =>
      rw [Environment.drive] at moved
      simp only [Environment.drive, moved]
  | succ fuel ih =>
      cases first : x.step (env.answer x.runner.phase) with
      | none =>
          simp only [Environment.drive, first] at moved
          contradiction
      | some z =>
          rw [Environment.drive, first]
          simp only [Environment.drive, first] at moved
          exact ih moved

/-- The pass goes on when a compensated step cannot be recorded. -/
theorem uncompensated_returns {env : Environment sv}
    (single : ∀ phase, Abortable phase → env.database phase = none) (fuel : Nat) (rows : PlanRows) (e : Error) :
    (env.drive fuel (.start rows)).runner.phase ≠ .returned (.error e) := by
  apply drive_induction (motive := fun x : Execution sv => x.runner.phase ≠ .returned (.error e))
  · intro x y _ moved
    obtain ⟨m, advanced, rfl⟩ := Option.map_eq_some_iff.mp moved
    generalize given : env.answer x.runner.phase = answer at advanced
    cases advance_transition advanced with
    | leave =>
        show leaveLoop x.runner ≠ _
        unfold leaveLoop
        split_ifs <;> simp
    | abort at_phase => cases (single _ at_phase).symm.trans (failed_statement given)
    | _ => simp
  · simp [Execution.start, Runner.new]

def sampleFailure (failing : Phase Semver.caret) : Environment Semver.caret :=
  { sampleRollback with database := fun phase => if phase = failing then some (.pg "connection closed") else none }

/-- The rule of the sample plan's second step is in place and the statement that records it fails. -/
def unrecorded : Phase Semver.caret := .recordStep 1 (sampleStep 1 []) (.ok (.object [("success", .bool true)]))

def uncompensated : Phase Semver.caret :=
  .recordCompensated 1 { sampleStep 1 [] with status := .succeeded, result := some (.object [("success", .bool true)]) }
    (.object [("success", .bool true)]) []

end Daimon.Proof.Orchestrator
