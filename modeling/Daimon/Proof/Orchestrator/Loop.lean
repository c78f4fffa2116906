import Daimon.Lib.Lists
import Daimon.Proof.Orchestrator.Transition

/-!
# The invariant of the plan loop

What one call's log says about the steps it listed. The invariant holds for every list of steps, in
any statuses, and for every answer the call may get; the rows play a part only where the call lists
them.
-/

namespace Daimon.Proof.Orchestrator
open Daimon.Core Lib Daimon.Orchestrator

variable {sv : Semver}

def dispatches (log : List (Event sv)) : List Nat :=
  log.filterMap fun
    | .dispatched idx => some idx
    | _ => none

def successes (log : List (Event sv)) : List Nat :=
  log.filterMap fun
    | .stepStatus idx .succeeded => some idx
    | _ => none

@[simp] theorem dispatches_append (log new : List (Event sv)) :
    dispatches (log ++ new) = dispatches log ++ dispatches new := List.filterMap_append

@[simp] theorem successes_append (log new : List (Event sv)) :
    successes (log ++ new) = successes log ++ successes new := List.filterMap_append

@[simp] theorem dispatches_nil : dispatches ([] : List (Event sv)) = [] := rfl

@[simp] theorem successes_nil : successes ([] : List (Event sv)) = [] := rfl

@[simp] theorem dispatches_dispatched (idx : Nat) : dispatches [(.dispatched idx : Event sv)] = [idx] := rfl

@[simp] theorem successes_dispatched (idx : Nat) : successes [(.dispatched idx : Event sv)] = [] := rfl

@[simp] theorem dispatches_stepStatus (idx : Nat) (status : StepStatus) :
    dispatches [(.stepStatus idx status : Event sv)] = [] := rfl

@[simp] theorem successes_succeeded (idx : Nat) :
    successes [(.stepStatus idx .succeeded : Event sv)] = [idx] := rfl

theorem successes_stepStatus {idx : Nat} {status : StepStatus} (other : status ≠ .succeeded) :
    successes [(.stepStatus idx status : Event sv)] = [] := by
  cases status <;> first | rfl | contradiction

theorem mem_dispatches {log : List (Event sv)} {idx : Nat} : idx ∈ dispatches log ↔ .dispatched idx ∈ log := by
  simp only [dispatches, List.mem_filterMap]
  constructor
  · rintro ⟨event, member, found⟩
    split at found
    · exact Option.some.inj found ▸ member
    · contradiction
  · intro member
    exact ⟨_, member, rfl⟩

theorem mem_successes {log : List (Event sv)} {idx : Nat} :
    idx ∈ successes log ↔ .stepStatus idx .succeeded ∈ log := by
  simp only [successes, List.mem_filterMap]
  constructor
  · rintro ⟨event, member, found⟩
    split at found
    · exact Option.some.inj found ▸ member
    · contradiction
  · intro member
    exact ⟨_, member, rfl⟩

/-! ## Choosing a step -/

theorem nextRunnable_some {steps : List Step} {done : List Uuid} {step : Step} {idx : Nat}
    (found : nextRunnable steps done = some (step, idx)) :
    steps[idx]? = some step ∧ step.status = .pending ∧ ∀ d ∈ step.dependsOn, d ∈ done := by
  have runnable := List.find?_some found
  have member := List.mem_of_find?_eq_some found
  simp only [Step.isRunnable, Step.isPending, Bool.and_eq_true, beq_iff_eq, List.all_eq_true,
    List.contains_iff_mem] at runnable
  exact ⟨List.mk_mem_zipIdx_iff_getElem?.mp member, runnable⟩

theorem nextRunnable_none {steps : List Step} {done : List Uuid} (none : nextRunnable steps done = none)
    {idx : Nat} {step : Step} (found : steps[idx]? = some step) (pending : step.status = .pending) :
    ∃ d ∈ step.dependsOn, d ∉ done := by
  have blocked := List.find?_eq_none.mp none _ (List.mk_mem_zipIdx_iff_getElem?.mpr found)
  simpa [Step.isRunnable, Step.isPending, pending] using blocked

/-! ## One call's view of its steps -/

def definition (step : Step) : Step := { step with status := .pending, result := none }

theorem definition_eq {s t : Step} (same : definition s = definition t) :
    s.id = t.id ∧ s.dependsOn = t.dependsOn ∧ s.capabilityName = t.capabilityName := by
  simp only [definition, Step.mk.injEq] at same
  exact ⟨same.1, same.2.2.2.2.2.2.2.1, same.2.2.2.1⟩

/-- How a step's status in the call's copy follows from its listed status and the log. The step that
is marked running and not yet recorded is `active`. -/
inductive Fits (log : List (Event sv)) (active : Option Nat) (i : Nat) : StepStatus → StepStatus → Prop
  | untouched {status : StepStatus} (idle : active ≠ some i) (fresh : i ∉ dispatches log)
      (open_ : i ∉ successes log) : Fits log active i status status
  | running (current : active = some i) (open_ : i ∉ successes log) : Fits log active i .pending .running
  | succeeded (idle : active ≠ some i) (sent : i ∈ dispatches log) (recorded : i ∈ successes log) :
      Fits log active i .pending .succeeded

def Satisfied (listed : List Step) (log : List (Event sv)) (d : Uuid) : Prop :=
  ∃ j ∈ successes log, ∃ t, listed[j]? = some t ∧ t.id = d

def Ran (listed : List Step) (log : List (Event sv)) (i : Nat) : Prop :=
  i ∈ dispatches log ∧ ∃ t, listed[i]? = some t ∧ t.status = .pending

theorem Ran.append {listed : List Step} {log : List (Event sv)} {i : Nat} (ran : Ran listed log i)
    (new : List (Event sv)) : Ran listed (log ++ new) i :=
  ⟨by simp [ran.1], ran.2⟩

def Left (log : List (Event sv)) (i : Nat) (before now : StepStatus) : Prop :=
  (now = .pending → before = .pending) ∧ (now = .succeeded → before = .succeeded ∨ i ∈ successes log)

theorem Fits.left {log : List (Event sv)} {active : Option Nat} {i : Nat} {before now : StepStatus}
    (fits : Fits log active i before now) : Left log i before now := by
  cases fits with
  | untouched => exact ⟨id, Or.inl⟩
  | running => exact ⟨by simp, by simp⟩
  | succeeded _ _ recorded => exact ⟨by simp, fun _ => Or.inr recorded⟩

structure LoopInv (listed : List Step) (r : Runner sv) (log : List (Event sv)) (active : Option Nat) :
    Prop where
  length : r.steps.length = listed.length
  entries : ∀ i s t, r.steps[i]? = some s → listed[i]? = some t →
    definition s = definition t ∧ Fits log active i t.status s.status
  order : r.succeededOrder = successes log
  valid : ∀ i ∈ successes log, Ran listed log i
  done : ∀ d, d ∈ r.done ↔ Satisfied listed log d

/-- The loop ended with something left to do, through a failed step or because nothing is runnable. -/
structure Closing (listed : List Step) (r : Runner sv) (log : List (Event sv)) : Prop where
  length : r.steps.length = listed.length
  entries : ∀ i s t, r.steps[i]? = some s → listed[i]? = some t →
    definition s = definition t ∧ Left log i t.status s.status
  valid : ∀ i ∈ successes log, Ran listed log i
  settled : ∀ i ∈ dispatches log, i ∈ successes log ∨ .stepStatus i .failed ∈ log
  unfinished : ∃ (i : Nat) (t : Step), listed[i]? = some t ∧
    (t.status = .pending ∨ t.status = .running) ∧ i ∉ successes log
  cause : (∃ i, .stepStatus i .failed ∈ log) ∨
    ∀ (i : Nat) s, r.steps[i]? = some s → s.status = .pending →
      ∃ d ∈ s.dependsOn, ¬ Satisfied listed log d

def Completed (listed : List Step) (log : List (Event sv)) : Prop :=
  ∀ i t, listed[i]? = some t → t.status ≠ .running ∧
    (t.status = .pending → i ∈ dispatches log ∧ i ∈ successes log)

def Chosen (listed : List Step) (r : Runner sv) (idx : Nat) (step : Step) : Prop :=
  ∃ t, listed[idx]? = some t ∧ definition step = definition t ∧ ∀ d ∈ step.dependsOn, d ∈ r.done

def PhaseInv (listed : List Step) (r : Runner sv) (log : List (Event sv)) : Prop :=
  match r.phase with
  | .setExecuting | .listSteps => r.done = [] ∧ r.succeededOrder = [] ∧
      ∀ e ∈ log, ∃ status, e = .planStatus status
  | .scan => LoopInv listed r log none
  | .markRunning idx step => LoopInv listed r log none ∧ Chosen listed r idx step ∧
      ∃ s, r.steps[idx]? = some s ∧ s.status = .pending
  | .dispatchStep idx step => LoopInv listed r log (some idx) ∧ Chosen listed r idx step ∧
      idx ∉ dispatches log
  | .awaitReply idx step _ | .recordStep idx step _ => LoopInv listed r log (some idx) ∧
      Chosen listed r idx step ∧ idx ∈ dispatches log
  | .compensate todo => Closing listed r log ∧ ∀ i ∈ todo, i ∈ successes log
  | .awaitCompensator idx step _ rest | .recordCompensated idx step _ rest =>
      Closing listed r log ∧ (∀ i ∈ rest, i ∈ successes log) ∧ idx ∈ successes log ∧
      ∃ t, listed[idx]? = some t ∧ definition step = definition t
  | .finish .succeeded | .returned (.ok .succeeded) => Completed listed log
  | .finish .failed | .returned (.ok .failed) => Closing listed r log
  | .finish _ | .returned (.ok _) => False
  | .returned (.error _) | .crashed => True

/-! ## The log -/

/-- No step is dispatched twice, none before its dependencies have succeeded, and none before all that
was dispatched earlier has succeeded. -/
structure LogInv (listed : List Step) (log : List (Event sv)) : Prop where
  once : (dispatches log).Nodup
  dependencies : ∀ before idx after, log = before ++ .dispatched idx :: after →
    ∃ step, listed[idx]? = some step ∧
      ∀ d ∈ step.dependsOn, Satisfied listed before d
  settled : ∀ before idx after, log = before ++ .dispatched idx :: after →
    ∀ i ∈ dispatches before, i ∈ successes before

theorem LogInv.inRange {listed : List Step} {log : List (Event sv)} (inv : LogInv listed log) {i : Nat}
    (sent : i ∈ dispatches log) : i < listed.length := by
  obtain ⟨before, after, split⟩ := List.append_of_mem ((mem_dispatches).mp sent)
  obtain ⟨step, found, -⟩ := inv.dependencies before i after split
  exact (List.getElem?_eq_some_iff.mp found).1

theorem LogInv.append {listed : List Step} {log new : List (Event sv)} (inv : LogInv listed log)
    (quiet : dispatches new = []) : LogInv listed (log ++ new) where
  once := by simpa [quiet] using inv.once
  dependencies := by
    intro before idx after split
    rcases append_eq_append_cons split with ⟨rest, old⟩ | ⟨middle, -, rfl⟩
    · exact inv.dependencies before idx rest old
    · have sent : idx ∈ dispatches (middle ++ Event.dispatched idx :: after) := (mem_dispatches).mpr (by simp)
      simp [quiet] at sent
  settled := by
    intro before idx after split
    rcases append_eq_append_cons split with ⟨rest, old⟩ | ⟨middle, -, rfl⟩
    · exact inv.settled before idx rest old
    · have sent : idx ∈ dispatches (middle ++ Event.dispatched idx :: after) := (mem_dispatches).mpr (by simp)
      simp [quiet] at sent

theorem LogInv.dispatch {listed : List Step} {log : List (Event sv)} (inv : LogInv listed log) {idx : Nat}
    (fresh : idx ∉ dispatches log) (settled : ∀ i ∈ dispatches log, i ∈ successes log) {step : Step}
    (found : listed[idx]? = some step)
    (ready : ∀ d ∈ step.dependsOn, Satisfied listed log d) :
    LogInv listed (log ++ [.dispatched idx]) where
  once := by
    have single : dispatches [(Event.dispatched idx : Event sv)] = [idx] := rfl
    rw [dispatches_append, single]
    exact List.nodup_append.mpr ⟨inv.once, by simp, by
      intro i member j last same
      exact fresh (List.mem_singleton.mp last ▸ same ▸ member)⟩
  dependencies := by
    intro before i after split
    rcases append_eq_append_cons split with ⟨rest, old⟩ | ⟨middle, rfl, new⟩
    · exact inv.dependencies before i rest old
    · cases middle with
      | nil =>
          obtain ⟨⟨rfl⟩, -⟩ := List.cons.inj new
          simpa using ⟨step, found, ready⟩
      | cons e es => simp at new
  settled := by
    intro before i after split
    rcases append_eq_append_cons split with ⟨rest, old⟩ | ⟨middle, rfl, new⟩
    · exact inv.settled before i rest old
    · cases middle with
      | nil => simpa using settled
      | cons e es => simp at new

/-! ## Steps of the loop -/

theorem LoopInv.list {rows : PlanRows} {r : Runner sv} {log : List (Event sv)} (done : r.done = [])
    (order : r.succeededOrder = []) (quiet : ∀ e ∈ log, ∃ status, e = .planStatus status) :
    LoopInv rows.steps { r with steps := rows.steps, phase := .scan } log none := by
  have noDispatch (i : Nat) : i ∉ dispatches log := by
    intro sent
    obtain ⟨status, impossible⟩ := quiet _ ((mem_dispatches).mp sent)
    cases impossible
  have noSuccess (i : Nat) : i ∉ successes log := by
    intro recorded
    obtain ⟨status, impossible⟩ := quiet _ ((mem_successes).mp recorded)
    cases impossible
  refine ⟨rfl, ?_, ?_, ?_, ?_⟩
  · intro i s t copied listed
    obtain rfl : s = t := Option.some.inj (copied.symm.trans listed)
    exact ⟨rfl, .untouched (by simp) (noDispatch i) (noSuccess i)⟩
  · exact order.trans (List.eq_nil_iff_forall_not_mem.mpr noSuccess).symm
  · intro i recorded
    exact absurd recorded (noSuccess i)
  · intro d
    simp only [done, List.not_mem_nil, false_iff]
    rintro ⟨j, recorded, -⟩
    exact noSuccess j recorded

theorem LoopInv.mark {listed : List Step} {r : Runner sv} {log : List (Event sv)}
    (inv : LoopInv listed r log none) {idx : Nat} {step : Step} (found : r.steps[idx]? = some step)
    (pending : step.status = .pending) (phase : Phase sv) :
    LoopInv listed { r with steps := setStatus r.steps idx .running, phase }
      (log ++ [.stepStatus idx .running]) (some idx) := by
  have sent : dispatches (log ++ [Event.stepStatus idx .running]) = dispatches log := by simp
  have recorded : successes (log ++ [Event.stepStatus idx .running]) = successes log := by
    simp [successes_stepStatus]
  refine ⟨by simpa [setStatus] using inv.length, ?_, ?_, ?_, ?_⟩
  · intro i s t copied inList
    rcases modify_cases copied with ⟨rfl, old, at_idx, rfl⟩ | ⟨other, at_i⟩
    · obtain rfl : old = step := Option.some.inj (at_idx.symm.trans found)
      obtain ⟨same, fits⟩ := inv.entries _ _ _ at_idx inList
      rw [pending] at fits
      refine ⟨same, ?_⟩
      cases hstatus : t.status <;> rw [hstatus] at fits <;> cases fits
      exact .running rfl (by rwa [recorded])
    · obtain ⟨same, fits⟩ := inv.entries _ _ _ at_i inList
      refine ⟨same, ?_⟩
      have idle : some idx ≠ some i := by simpa using Ne.symm other
      generalize t.status = before at fits
      generalize s.status = now at fits
      cases fits with
      | untouched _ fresh open_ => exact .untouched idle (by rwa [sent]) (by rwa [recorded])
      | running current => cases current
      | succeeded _ wasSent wasRecorded => exact .succeeded idle (by rwa [sent]) (by rwa [recorded])
  · rw [recorded]
    exact inv.order
  · rw [recorded]
    exact fun i done => (inv.valid i done).append _
  · simpa only [Satisfied, recorded] using inv.done

theorem LoopInv.dispatch {listed : List Step} {r : Runner sv} {log : List (Event sv)} {idx : Nat}
    (inv : LoopInv listed r log (some idx)) (phase : Phase sv) :
    LoopInv listed { r with phase } (log ++ [.dispatched idx]) (some idx) := by
  have recorded : successes (log ++ [Event.dispatched idx]) = successes log := by simp
  refine ⟨inv.length, ?_, by rw [recorded]; exact inv.order,
    by rw [recorded]; exact fun i done => (inv.valid i done).append _,
    by simpa only [Satisfied, recorded] using inv.done⟩
  intro i s t copied inList
  obtain ⟨same, fits⟩ := inv.entries _ _ _ copied inList
  refine ⟨same, ?_⟩
  generalize t.status = before at fits
  generalize s.status = now at fits
  cases fits with
  | untouched idle fresh open_ =>
      have other : i ≠ idx := fun same => idle (same ▸ rfl)
      exact .untouched idle (by simp [fresh, other]) (by rwa [recorded])
  | running current open_ => exact .running current (by rwa [recorded])
  | succeeded idle wasSent wasRecorded => exact .succeeded idle (by simp [wasSent]) (by rwa [recorded])

theorem LoopInv.active_pending {listed : List Step} {r : Runner sv} {log : List (Event sv)} {idx : Nat}
    (inv : LoopInv listed r log (some idx)) {t : Step} (at_idx : listed[idx]? = some t) :
    t.status = .pending ∧ idx ∉ successes log := by
  have bound : idx < r.steps.length := inv.length ▸ (List.getElem?_eq_some_iff.mp at_idx).1
  obtain ⟨-, fits⟩ := inv.entries idx _ t (List.getElem?_eq_getElem bound) at_idx
  generalize t.status = before at fits
  generalize r.steps[idx].status = now at fits
  cases fits with
  | untouched idle => exact absurd rfl idle
  | running _ open_ => exact ⟨rfl, open_⟩
  | succeeded idle => exact absurd rfl idle

theorem LoopInv.succeed {listed : List Step} {r : Runner sv} {log : List (Event sv)} {idx : Nat} {step : Step}
    (inv : LoopInv listed r log (some idx)) (chosen : Chosen listed r idx step)
    (sent : idx ∈ dispatches log) (result : Json) :
    LoopInv listed { r with
        steps := r.steps.modify idx fun s => { s with status := .succeeded, result := some result }
        done := step.id :: r.done
        succeededOrder := r.succeededOrder ++ [idx]
        phase := .scan }
      (log ++ [.stepStatus idx .succeeded]) none := by
  obtain ⟨t, at_idx, same, -⟩ := chosen
  have sameId : step.id = t.id := (definition_eq same).1
  refine ⟨by simpa using inv.length, ?_, by simp [inv.order], ?_, ?_⟩
  · intro i s t' copied inList
    rcases modify_cases copied with ⟨rfl, old, found, rfl⟩ | ⟨other, at_i⟩
    · obtain ⟨sameDef, fits⟩ := inv.entries _ _ _ found inList
      refine ⟨sameDef, ?_⟩
      generalize t'.status = before at fits
      generalize old.status = now at fits
      cases fits with
      | untouched idle => exact absurd rfl idle
      | running => exact .succeeded (by simp) (by simp [sent]) (by simp)
      | succeeded idle => exact absurd rfl idle
    · obtain ⟨sameDef, fits⟩ := inv.entries _ _ _ at_i inList
      refine ⟨sameDef, ?_⟩
      generalize t'.status = before at fits
      generalize s.status = now at fits
      cases fits with
      | untouched _ fresh open_ => exact .untouched (by simp) (by simp [fresh]) (by simp [open_, other])
      | running current => exact absurd (Option.some.inj current).symm other
      | succeeded _ wasSent wasRecorded => exact .succeeded (by simp) (by simp [wasSent]) (by simp [wasRecorded])
  · intro i recorded
    simp only [successes_append, successes_succeeded, List.mem_append, List.mem_singleton] at recorded
    rcases recorded with old | rfl
    · exact (inv.valid i old).append _
    · exact ⟨by simp [sent], t, at_idx, (inv.active_pending at_idx).1⟩
  · intro d
    simp only [List.mem_cons, Satisfied, successes_append, successes_succeeded, List.mem_append,
      List.not_mem_nil, or_false]
    rw [inv.done d]
    constructor
    · rintro (rfl | ⟨j, recorded, found⟩)
      · exact ⟨idx, Or.inr rfl, t, at_idx, sameId.symm⟩
      · exact ⟨j, Or.inl recorded, found⟩
    · rintro ⟨j, recorded | rfl, t', found, rfl⟩
      · exact Or.inr ⟨j, recorded, t', found, rfl⟩
      · obtain rfl : t' = t := Option.some.inj (found.symm.trans at_idx)
        exact Or.inl sameId.symm

theorem LoopInv.recorded_of_sent {listed : List Step} {r : Runner sv} {log : List (Event sv)}
    {active : Option Nat} (inv : LoopInv listed r log active) (logInv : LogInv listed log) {i : Nat}
    (sent : i ∈ dispatches log) : i ∈ successes log ∨ active = some i := by
  have listedBound := logInv.inRange sent
  have bound : i < r.steps.length := inv.length ▸ listedBound
  obtain ⟨-, fits⟩ := inv.entries i _ _ (List.getElem?_eq_getElem bound) (List.getElem?_eq_getElem listedBound)
  generalize listed[i].status = before at fits
  generalize r.steps[i].status = now at fits
  cases fits with
  | untouched _ fresh => exact absurd sent fresh
  | running current => exact Or.inr current
  | succeeded _ _ recorded => exact Or.inl recorded

theorem LoopInv.fail {listed : List Step} {r : Runner sv} {log : List (Event sv)} {idx : Nat} {step : Step}
    (inv : LoopInv listed r log (some idx)) (logInv : LogInv listed log)
    (chosen : Chosen listed r idx step) (phase : Phase sv) :
    Closing listed { r with steps := setStatus r.steps idx .failed, phase }
      (log ++ [.stepStatus idx .failed]) := by
  obtain ⟨t, at_idx, -⟩ := chosen
  have recorded : successes (log ++ [Event.stepStatus idx .failed]) = successes log := by
    simp [successes_stepStatus]
  refine ⟨by simpa [setStatus] using inv.length, ?_,
    by rw [recorded]; exact fun i done => (inv.valid i done).append _, ?_, ?_, Or.inl ⟨idx, by simp⟩⟩
  · intro i s t' copied inList
    rcases modify_cases copied with ⟨rfl, old, found, rfl⟩ | ⟨-, at_i⟩
    · exact ⟨(inv.entries _ _ _ found inList).1, by simp [Left]⟩
    · obtain ⟨same, fits⟩ := inv.entries _ _ _ at_i inList
      exact ⟨same, by simpa only [Left, recorded] using fits.left⟩
  · intro i sent
    rw [recorded]
    rcases inv.recorded_of_sent logInv (by simpa using sent) with done | current
    · exact Or.inl done
    · exact Or.inr (by simp [Option.some.inj current])
  · -- The failed step itself is one that did not succeed.
    obtain ⟨pending, open_⟩ := inv.active_pending at_idx
    exact ⟨idx, t, at_idx, Or.inl pending, by rwa [recorded]⟩

theorem LoopInv.leave {listed : List Step} {r : Runner sv} {log : List (Event sv)}
    (inv : LoopInv listed r log none) (logInv : LogInv listed log)
    (none : nextRunnable r.steps r.done = none) :
    (leaveLoop r = .compensate r.succeededOrder.reverse ∧ ∀ phase, Closing listed { r with phase } log) ∨
    (leaveLoop r = .finish .succeeded ∧ Completed listed log) := by
  unfold leaveLoop
  split
  case isTrue left =>
    refine Or.inl ⟨rfl, fun phase => ⟨inv.length, ?_, inv.valid, ?_, ?_, ?_⟩⟩
    · intro i s t copied inList
      obtain ⟨same, fits⟩ := inv.entries i s t copied inList
      exact ⟨same, fits.left⟩
    · intro i sent
      rcases inv.recorded_of_sent logInv sent with done | current
      · exact Or.inl done
      · cases current
    · obtain ⟨s, member, status⟩ := List.any_eq_true.mp left
      obtain ⟨i, bound, rfl⟩ := List.getElem_of_mem member
      have listedBound : i < listed.length := inv.length ▸ bound
      have found := List.getElem?_eq_getElem listedBound
      obtain ⟨-, fits⟩ := inv.entries i _ _ (List.getElem?_eq_getElem bound) found
      simp only [Bool.or_eq_true, beq_iff_eq] at status
      refine ⟨i, listed[i], found, ?_⟩
      generalize listed[i].status = before at fits ⊢
      generalize r.steps[i].status = now at fits status
      cases fits with
      | untouched _ _ open_ => exact ⟨status, open_⟩
      | running current => cases current
      | succeeded => simp at status
    · apply Or.inr
      intro i s found pending
      obtain ⟨d, depends, missing⟩ := nextRunnable_none none found pending
      exact ⟨d, depends, fun satisfied => missing ((inv.done d).mpr satisfied)⟩
  case isFalse left =>
    refine Or.inr ⟨rfl, fun i t inList => ?_⟩
    have bound : i < r.steps.length := inv.length ▸ (List.getElem?_eq_some_iff.mp inList).1
    obtain ⟨-, fits⟩ := inv.entries i _ _ (List.getElem?_eq_getElem bound) inList
    have settled : r.steps[i].status ≠ .pending ∧ r.steps[i].status ≠ .running := by
      constructor <;> intro status <;>
        exact left (List.any_eq_true.mpr ⟨r.steps[i], List.getElem_mem bound, by simp [status]⟩)
    generalize t.status = before at fits ⊢
    generalize r.steps[i].status = now at fits settled
    cases fits with
    | untouched => exact ⟨settled.2, fun pending => absurd pending settled.1⟩
    | running => exact absurd rfl settled.2
    | succeeded _ sent recorded => exact ⟨by simp, fun _ => ⟨sent, recorded⟩⟩

theorem Closing.compensated {listed : List Step} {r : Runner sv} {log : List (Event sv)}
    (inv : Closing listed r log) (idx : Nat) (phase : Phase sv) :
    Closing listed { r with steps := setStatus r.steps idx .compensated, phase }
      (log ++ [.stepStatus idx .compensated]) := by
  have recorded : successes (log ++ [Event.stepStatus idx .compensated]) = successes log := by
    simp [successes_stepStatus]
  refine ⟨by simpa [setStatus] using inv.length, ?_,
    by rw [recorded]; exact fun i done => (inv.valid i done).append _, ?_,
    by rw [recorded]; exact inv.unfinished, ?_⟩
  · intro i s t copied inList
    rcases modify_cases copied with ⟨rfl, old, found, rfl⟩ | ⟨-, at_i⟩
    · exact ⟨(inv.entries i old t found inList).1, by simp [Left]⟩
    · simpa only [Left, recorded] using inv.entries i s t at_i inList
  · simpa [recorded] using inv.settled
  · rcases inv.cause with ⟨i, failure⟩ | stuck
    · exact Or.inl ⟨i, List.mem_append_left _ failure⟩
    · apply Or.inr
      intro i s copied pending
      rcases modify_cases copied with ⟨rfl, old, -, rfl⟩ | ⟨-, at_i⟩
      · cases pending
      · simpa only [Satisfied, recorded] using stuck i s at_i pending

theorem Closing.append {listed : List Step} {r : Runner sv} {log new : List (Event sv)}
    (inv : Closing listed r log) (unsent : dispatches new = []) (quiet : successes new = [])
    (phase : Phase sv) :
    Closing listed { r with phase } (log ++ new) := by
  have recorded : successes (log ++ new) = successes log := by simp [quiet]
  refine ⟨inv.length, by simpa only [Left, recorded] using inv.entries,
    by rw [recorded]; exact fun i done => (inv.valid i done).append _, ?_,
    by rw [recorded]; exact inv.unfinished, ?_⟩
  · intro i sent
    rw [recorded]
    rcases inv.settled i (by simpa [unsent] using sent) with done | failure
    · exact Or.inl done
    · exact Or.inr (List.mem_append_left _ failure)
  · rcases inv.cause with ⟨i, failure⟩ | stuck
    · exact Or.inl ⟨i, List.mem_append_left _ failure⟩
    · apply Or.inr
      intro i s copied pending
      simpa only [Satisfied, recorded] using stuck i s copied pending

/-! ## Every step of a call -/

structure RunnerInv (listed : List Step) (r : Runner sv) (log : List (Event sv)) : Prop where
  logInv : LogInv listed log
  phaseInv : PhaseInv listed r log

theorem RunnerInv.new (listed : List Step) : RunnerInv listed (.new sv) [] where
  logInv := ⟨by simp, by simp, by simp⟩
  phaseInv := ⟨rfl, rfl, by simp⟩

theorem LoopInv.withPhase {listed : List Step} {r : Runner sv} {log : List (Event sv)} {active : Option Nat}
    (inv : LoopInv listed r log active) (phase : Phase sv) : LoopInv listed { r with phase } log active :=
  ⟨inv.length, inv.entries, inv.order, inv.valid, inv.done⟩

theorem advance_inv {listed : List Step} {rows : PlanRows} {r : Runner sv} {log : List (Event sv)}
    {answer : Answer} {m : Moved sv} (inv : RunnerInv listed r log)
    (lists : r.phase = .listSteps → rows.steps = listed) (moved : advance rows r answer = some m) :
    RunnerInv listed m.runner (log ++ m.events) := by
  obtain ⟨logInv, phaseInv⟩ := inv
  cases advance_transition moved with
  | execute at_phase =>
      simp only [PhaseInv, at_phase] at phaseInv
      obtain ⟨noneDone, noOrder, quiet⟩ := phaseInv
      refine ⟨logInv.append rfl, noneDone, noOrder, ?_⟩
      intro e member
      rcases List.mem_append.mp member with old | new
      · exact quiet e old
      · exact ⟨_, List.mem_singleton.mp new⟩
  | listNone at_phase empty =>
      refine ⟨logInv.append rfl, ?_⟩
      intro i t found
      simp [← lists at_phase, empty] at found
  | list at_phase =>
      simp only [PhaseInv, at_phase] at phaseInv
      obtain ⟨noneDone, noOrder, quiet⟩ := phaseInv
      have listedRows := lists at_phase
      subst listedRows
      rw [List.append_nil]
      exact ⟨logInv, LoopInv.list noneDone noOrder quiet⟩
  | choose at_phase next =>
      simp only [PhaseInv, at_phase] at phaseInv
      obtain ⟨found, pending, ready⟩ := nextRunnable_some next
      have bound := phaseInv.length ▸ (List.getElem?_eq_some_iff.mp found).1
      have inList := List.getElem?_eq_getElem bound
      rw [List.append_nil]
      exact ⟨logInv, phaseInv.withPhase _, ⟨_, inList, (phaseInv.entries _ _ _ found inList).1, ready⟩,
        _, found, pending⟩
  | leave at_phase next =>
      simp only [PhaseInv, at_phase] at phaseInv
      rw [List.append_nil]
      refine ⟨logInv, ?_⟩
      rcases phaseInv.leave logInv next with ⟨leaves, closing⟩ | ⟨leaves, completed⟩
      · simp only [PhaseInv, leaves]
        exact ⟨closing _, fun i member => phaseInv.order ▸ List.mem_reverse.mp member⟩
      · simpa only [PhaseInv, leaves] using completed
  | mark at_phase =>
      simp only [PhaseInv, at_phase] at phaseInv
      obtain ⟨loop, chosen, s, found, pending⟩ := phaseInv
      refine ⟨logInv.append rfl, loop.mark found pending _, chosen, ?_⟩
      obtain ⟨t, at_idx, -⟩ := id chosen
      obtain ⟨-, fits⟩ := loop.entries _ _ _ found at_idx
      rw [pending] at fits
      generalize t.status = before at fits
      cases fits with
      | untouched _ fresh => simpa using fresh
  | send at_phase built | refuse at_phase built =>
      simp only [PhaseInv, at_phase] at phaseInv
      obtain ⟨loop, ⟨t, at_idx, same, ready⟩, fresh⟩ := phaseInv
      refine ⟨logInv.dispatch fresh ?_ at_idx ?_, loop.dispatch _, ⟨t, at_idx, same, ready⟩, by simp⟩
      · intro i sent
        rcases loop.recorded_of_sent logInv sent with done | current
        · exact done
        · exact absurd (Option.some.inj current ▸ sent) fresh
      · intro d depends
        exact (loop.done d).mp (ready d ((definition_eq same).2.1 ▸ depends))
  | reply at_phase =>
      simp only [PhaseInv, at_phase] at phaseInv
      obtain ⟨loop, chosen, sent⟩ := phaseInv
      rw [List.append_nil]
      exact ⟨logInv, loop.withPhase _, chosen, sent⟩
  | succeed at_phase =>
      simp only [PhaseInv, at_phase] at phaseInv
      obtain ⟨loop, chosen, sent⟩ := phaseInv
      exact ⟨logInv.append rfl, loop.succeed chosen sent _⟩
  | fail at_phase =>
      simp only [PhaseInv, at_phase] at phaseInv
      obtain ⟨loop, chosen, sent⟩ := phaseInv
      refine ⟨logInv.append rfl, loop.fail logInv chosen _, ?_⟩
      intro i member
      have recorded : i ∈ successes log := loop.order ▸ List.mem_reverse.mp member
      simp [recorded]
  | rolledBack at_phase =>
      simp only [PhaseInv, at_phase] at phaseInv
      exact ⟨logInv.append rfl, phaseInv.1.append rfl rfl _⟩
  | skip at_phase | unsendable at_phase =>
      simp only [PhaseInv, at_phase] at phaseInv
      obtain ⟨closing, recorded⟩ := phaseInv
      refine ⟨logInv.append rfl, closing.append rfl rfl _, ?_⟩
      intro i member
      simpa [successes] using recorded i (List.mem_cons_of_mem _ member)
  | @compensate idx _ _ step _ _ at_phase found =>
      simp only [PhaseInv, at_phase] at phaseInv
      obtain ⟨closing, recorded⟩ := phaseInv
      obtain ⟨-, t, inList, -⟩ := closing.valid idx (recorded idx (by simp))
      have same := (closing.entries _ _ _ found inList).1
      refine ⟨logInv.append rfl, closing.append rfl rfl _, ?_, ?_, t, inList, same⟩
      · intro i member
        simpa [successes] using recorded i (List.mem_cons_of_mem _ member)
      · simpa [successes] using recorded idx (by simp)
  | compensatorReplied at_phase =>
      simp only [PhaseInv, at_phase] at phaseInv
      obtain ⟨closing, recorded⟩ := phaseInv
      exact ⟨logInv.append rfl, closing.append rfl rfl _, by simpa using recorded⟩
  | compensatorFailed at_phase | uncompensated at_phase =>
      simp only [PhaseInv, at_phase] at phaseInv
      obtain ⟨closing, recorded, -⟩ := phaseInv
      exact ⟨logInv.append rfl, closing.append rfl rfl _, by simpa using recorded⟩
  | compensated at_phase =>
      simp only [PhaseInv, at_phase] at phaseInv
      obtain ⟨closing, recorded, -⟩ := phaseInv
      exact ⟨logInv.append rfl, closing.compensated _ _, by simpa [successes_stepStatus] using recorded⟩
  | @finish status at_phase =>
      simp only [PhaseInv, at_phase] at phaseInv
      refine ⟨logInv.append rfl, ?_⟩
      cases status <;> simp only at phaseInv
      · intro i t found
        simpa [dispatches, successes] using phaseInv i t found
      · exact phaseInv.append rfl rfl _
  | abort => exact ⟨logInv.append rfl, trivial⟩

end Daimon.Proof.Orchestrator
