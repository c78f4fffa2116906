import Daimon.Proof.Orchestrator.Order

/-!
# Several calls on one plan

When a call lists the steps only while no other call is in its loop, and no pending step waits for one
that an earlier call completed, no step runs twice and no call ends for want of a dependency that has
succeeded.
-/

namespace Daimon.Proof.Orchestrator
open Daimon.Core Lib Daimon.Orchestrator

variable {sv : Semver}

/-! ## The condition -/

def inLoop : Phase sv → Bool
  | .scan | .markRunning _ _ | .dispatchStep _ _ | .awaitReply _ _ _ | .recordStep _ _ _ => true
  | _ => false

def lists (w : Service sv) : Service.Action → Bool
  | .advance i _ => w.runners[i]?.any fun r => r.phase = .listSteps
  | _ => false

/-- A pending step that waits for a succeeded one also waits for something that no run can complete. -/
@[reducible] def Resumable (steps : List Step) : Prop :=
  ∀ p ∈ steps, p.status = .pending →
    (∀ t ∈ steps, t.id ∈ p.dependsOn → t.status ≠ .succeeded) ∨
    ∃ d ∈ p.dependsOn, ∀ t ∈ steps, t.id = d → t.status ≠ .pending ∧ t.status ≠ .succeeded

/-- A call that lists the steps is the only one in its loop and finds a plan it can resume. -/
@[reducible] def StartsAlone (w : Service sv) (action : Service.Action) : Prop :=
  lists w action = true → (∀ s ∈ w.runners, inLoop s.phase = false) ∧ Resumable w.rows.steps

/-! ## Rows -/

theorem setStepStatus_row {rows : PlanRows} {id : Uuid} {status : StepStatus} {result : Option Json}
    {started : Bool} {j : Nat} {t : Step} (found : (rows.setStepStatus id status result started).steps[j]? = some t) :
    ∃ old, rows.steps[j]? = some old ∧ t.id = old.id ∧
      ((old.id = id ∧ t.status = status) ∨ (old.id ≠ id ∧ t = old)) := by
  cases started <;>
    simp only [PlanRows.setStepStatus, PlanRows.updateStep, Bool.false_eq_true, if_false, if_true,
      List.getElem?_map] at found <;>
    obtain ⟨old, at_j, rfl⟩ := Option.map_eq_some_iff.mp found <;>
    refine ⟨old, at_j, ?_⟩ <;>
    split <;> simp_all

theorem setStepStatus_ids (rows : PlanRows) (id : Uuid) (status : StepStatus) (result : Option Json)
    (started : Bool) :
    (rows.setStepStatus id status result started).steps.map Step.id = rows.steps.map Step.id := by
  cases started <;>
    simp only [PlanRows.setStepStatus, PlanRows.updateStep, Bool.false_eq_true, if_false, if_true, List.map_map] <;>
    refine List.map_congr_left fun s _ => ?_ <;>
    simp only [Function.comp_apply] <;>
    split <;> rfl

theorem advance_ids {rows : PlanRows} {r : Runner sv} {answer : Answer} {m : Moved sv}
    (moved : advance rows r answer = some m) : m.rows.steps.map Step.id = rows.steps.map Step.id := by
  cases advance_transition moved with
  | mark | succeed | fail | compensated => exact setStepStatus_ids _ _ _ _ _
  | _ => rfl

theorem place_of_id {rows : PlanRows} {listed : List Step} (ids : listed.map Step.id = rows.steps.map Step.id)
    {idx j : Nat} {t old : Step} (inList : listed[idx]? = some t) (at_j : rows.steps[j]? = some old) :
    old.id = t.id ↔ j = idx := by
  have byList : (rows.steps.map Step.id)[idx]? = some t.id := by rw [← ids, List.getElem?_map, inList]; rfl
  have byRow : (rows.steps.map Step.id)[j]? = some old.id := by rw [List.getElem?_map, at_j]; rfl
  constructor
  · intro same
    have bound : j < (rows.steps.map Step.id).length := (List.getElem?_eq_some_iff.mp byRow).1
    exact (List.getElem?_inj bound rows.distinct).mp (by rw [byRow, byList, same])
  · rintro rfl
    exact Option.some.inj (byRow.symm.trans byList)

def writes : Phase sv → Option (Nat × Step)
  | .markRunning idx step | .recordStep idx step _ | .recordCompensated idx step _ _ => some (idx, step)
  | _ => none

theorem advance_rows {listed : List Step} {rows : PlanRows} {r : Runner sv} {log : List (Event sv)}
    {answer : Answer} {m : Moved sv} (inv : RunnerInv listed r log)
    (ids : listed.map Step.id = rows.steps.map Step.id) (moved : advance rows r answer = some m) :
    m.rows.steps = rows.steps ∨ ∃ idx step, writes r.phase = some (idx, step) ∧
      ∀ j t, m.rows.steps[j]? = some t → ∃ old, rows.steps[j]? = some old ∧
        ((j = idx ∧ t.status ≠ .pending) ∨ (j ≠ idx ∧ t = old)) := by
  have phaseInv := inv.phaseInv
  have written {idx : Nat} {step u : Step} {status : StepStatus} {result : Option Json} {started : Bool}
      (inList : listed[idx]? = some u) (same : definition step = definition u) (settles : status ≠ .pending) :
      ∀ j t, (rows.setStepStatus step.id status result started).steps[j]? = some t →
        ∃ old, rows.steps[j]? = some old ∧ ((j = idx ∧ t.status ≠ .pending) ∨ (j ≠ idx ∧ t = old)) := by
    intro j t found
    obtain ⟨old, at_j, -, hit⟩ := setStepStatus_row found
    refine ⟨old, at_j, ?_⟩
    rw [(definition_eq same).1, ne_eq, place_of_id ids inList at_j] at hit
    rcases hit with ⟨here, now⟩ | ⟨elsewhere, kept⟩
    · exact Or.inl ⟨here, now ▸ settles⟩
    · exact Or.inr ⟨elsewhere, kept⟩
  cases advance_transition moved with
  | mark at_phase =>
      simp only [PhaseInv, at_phase] at phaseInv
      obtain ⟨-, ⟨u, inList, same, -⟩, -⟩ := phaseInv
      exact Or.inr ⟨_, _, by rw [at_phase]; rfl, written inList same (by simp)⟩
  | succeed at_phase | fail at_phase =>
      simp only [PhaseInv, at_phase] at phaseInv
      obtain ⟨-, ⟨u, inList, same, -⟩, -⟩ := phaseInv
      exact Or.inr ⟨_, _, by rw [at_phase]; rfl, written inList same (by simp)⟩
  | compensated at_phase =>
      simp only [PhaseInv, at_phase] at phaseInv
      obtain ⟨-, -, -, u, inList, same⟩ := phaseInv
      exact Or.inr ⟨_, _, by rw [at_phase]; rfl, written inList same (by simp)⟩
  | _ => exact Or.inl rfl

/-! ## The invariant -/

def logOf (i : Nat) (log : List (Nat × Event sv)) : List (Event sv) :=
  (log.filter fun e => e.1 = i).map Prod.snd

theorem logOf_append_self (i : Nat) (log : List (Nat × Event sv)) (events : List (Event sv)) :
    logOf i (log ++ events.map (i, ·)) = logOf i log ++ events := by
  simp [logOf, List.filter_map, Function.comp_def]

theorem logOf_append_other {i j : Nat} (other : j ≠ i) (log : List (Nat × Event sv)) (events : List (Event sv)) :
    logOf j (log ++ events.map (i, ·)) = logOf j log := by
  simp [logOf, List.filter_map, Function.comp_def, Ne.symm other]

theorem dispatches_logOf {i idx : Nat} {log : List (Nat × Event sv)} (sent : idx ∈ dispatches (logOf i log)) :
    idx ∈ dispatches (log.map Prod.snd) := by
  rw [mem_dispatches] at sent ⊢
  obtain ⟨e, member, same⟩ := List.mem_map.mp sent
  exact List.mem_map.mpr ⟨e, (List.mem_filter.mp member).1, same⟩

theorem map_snd_append (i : Nat) (log : List (Nat × Event sv)) (events : List (Event sv)) :
    (log ++ events.map (i, ·)).map Prod.snd = log.map Prod.snd ++ events := by
  simp [Function.comp_def]

def Unlisted : Phase sv → Prop
  | .setExecuting | .listSteps => True
  | _ => False

def HasListed : Phase sv → Prop
  | .setExecuting | .listSteps | .returned (.error _) | .crashed => False
  | _ => True

theorem RunnerInv.relist {listed other : List Step} {r : Runner sv} {log : List (Event sv)}
    (inv : RunnerInv listed r log) (unlisted : Unlisted r.phase) : RunnerInv other r log := by
  obtain ⟨-, phaseInv⟩ := inv
  have start : r.done = [] ∧ r.succeededOrder = [] ∧ ∀ e ∈ log, ∃ status, e = .planStatus status := by
    cases at_phase : r.phase <;> simp only [at_phase, Unlisted] at unlisted <;>
      simpa only [PhaseInv, at_phase] using phaseInv
  have noDispatch (before : List (Event sv)) (idx : Nat) (after : List (Event sv)) :
      log ≠ before ++ .dispatched idx :: after := by
    rintro rfl
    obtain ⟨status, impossible⟩ := start.2.2 (.dispatched idx) (by simp)
    cases impossible
  have empty : dispatches log = [] := by
    apply List.eq_nil_iff_forall_not_mem.mpr
    intro idx sent
    obtain ⟨before, after, split⟩ := List.append_of_mem ((mem_dispatches).mp sent)
    exact noDispatch before idx after split
  refine ⟨⟨by simp [empty], ?_, ?_⟩, ?_⟩
  · intro before idx after split
    exact absurd split (noDispatch before idx after)
  · intro before idx after split
    exact absurd split (noDispatch before idx after)
  · cases at_phase : r.phase <;> simp only [at_phase, Unlisted] at unlisted <;>
      simpa only [PhaseInv, at_phase] using start

structure ServiceInv (w : Service sv) : Prop where
  runners : ∀ i r, w.runners[i]? = some r → ∃ listed, RunnerInv listed r (logOf i w.log) ∧
    listed.map Step.id = w.rows.steps.map Step.id ∧ (HasListed r.phase → Resumable listed)
  unused : ∀ i, w.runners.length ≤ i → logOf i w.log = []
  sent : ∀ idx ∈ dispatches (w.log.map Prod.snd), ∀ t, w.rows.steps[idx]? = some t → t.status ≠ .pending
  copies : ∀ (i : Nat) r, w.runners[i]? = some r → inLoop r.phase = true → ∀ (idx : Nat) s t,
    r.steps[idx]? = some s → w.rows.steps[idx]? = some t → s.status = .pending → t.status = .pending
  marked : ∀ (i : Nat) r idx step, w.runners[i]? = some r → r.phase = .dispatchStep idx step →
    idx ∉ dispatches (w.log.map Prod.snd) ∧ ∀ t, w.rows.steps[idx]? = some t → t.status ≠ .pending
  alone : ∀ (i j : Nat) r s, w.runners[i]? = some r → w.runners[j]? = some s →
    inLoop r.phase = true → inLoop s.phase = true → i = j
  once : (dispatches (w.log.map Prod.snd)).Nodup
  ordered : ∀ before i idx after, w.log = before ++ (i, .stepStatus idx .succeeded) :: after →
    idx ∈ dispatches (before.map Prod.snd)

theorem ServiceInv.start (rows : PlanRows) : ServiceInv (.start rows : Service sv) where
  runners := by simp [Service.start]
  unused := by simp [Service.start, logOf]
  sent := by simp [Service.start]
  copies := by simp [Service.start]
  marked := by simp [Service.start]
  alone := by simp [Service.start]
  once := by simp [Service.start]
  ordered := by simp [Service.start]

/-! ## Preservation -/

theorem advance_inLoop {rows : PlanRows} {r : Runner sv} {answer : Answer} {m : Moved sv}
    (moved : advance rows r answer = some m) (after : inLoop m.runner.phase = true) :
    inLoop r.phase = true ∨ r.phase = .listSteps := by
  cases advance_transition moved with
  | list at_phase => exact Or.inr at_phase
  | choose at_phase | mark at_phase | send at_phase | refuse at_phase | reply at_phase | succeed at_phase =>
      exact Or.inl (by rw [at_phase]; rfl)
  | leave =>
      simp only [leaveLoop] at after
      split at after <;> simp [inLoop] at after
  | _ => simp [inLoop] at after

theorem advance_hasListed {rows : PlanRows} {r : Runner sv} {answer : Answer} {m : Moved sv}
    (moved : advance rows r answer = some m) (after : HasListed m.runner.phase) :
    HasListed r.phase ∨ r.phase = .listSteps := by
  cases advance_transition moved with
  | listNone at_phase | list at_phase => exact Or.inr at_phase
  | execute | abort => exact after.elim
  | choose at_phase | leave at_phase | mark at_phase | send at_phase | refuse at_phase | reply at_phase
  | succeed at_phase | fail at_phase | rolledBack at_phase | skip at_phase | unsendable at_phase
  | compensate at_phase | compensatorReplied at_phase | compensatorFailed at_phase | compensated at_phase
  | uncompensated at_phase | finish at_phase => exact Or.inl (by rw [at_phase]; trivial)

theorem advance_dispatches {rows : PlanRows} {r : Runner sv} {answer : Answer} {m : Moved sv}
    (moved : advance rows r answer = some m) :
    dispatches m.events = [] ∨ ∃ idx step, r.phase = .dispatchStep idx step ∧ dispatches m.events = [idx] ∧
      m.rows.steps = rows.steps := by
  cases advance_transition moved with
  | send at_phase | refuse at_phase => exact Or.inr ⟨_, _, at_phase, rfl, rfl⟩
  | _ => exact Or.inl rfl

theorem advance_copy {rows : PlanRows} {r : Runner sv} {answer : Answer} {m : Moved sv}
    (moved : advance rows r answer = some m) (after : inLoop m.runner.phase = true)
    (before : inLoop r.phase = true) {idx : Nat} {s : Step} (found : m.runner.steps[idx]? = some s)
    (pending : s.status = .pending) :
    r.steps[idx]? = some s ∧ ((∃ step, writes r.phase = some (idx, step)) → m.rows.steps = rows.steps) := by
  cases advance_transition moved with
  | mark at_phase | succeed at_phase =>
      rcases modify_cases found with ⟨rfl, old, -, rfl⟩ | ⟨other, kept⟩
      · cases pending
      · refine ⟨kept, ?_⟩
        rintro ⟨step, same⟩
        rw [at_phase] at same
        cases same
        exact absurd rfl other
  | list at_phase => simp [at_phase, inLoop] at before
  | choose | send | refuse | reply => exact ⟨found, fun _ => rfl⟩
  | leave =>
      simp only [leaveLoop] at after
      split at after <;> simp [inLoop] at after
  | _ => simp [inLoop] at after

theorem advance_marks {rows : PlanRows} {r : Runner sv} {answer : Answer} {m : Moved sv} {idx : Nat} {step : Step}
    (moved : advance rows r answer = some m) (after : m.runner.phase = .dispatchStep idx step) :
    r.phase = .markRunning idx step ∧ m.rows = rows.setStepStatus step.id .running none true ∧
      dispatches m.events = [] := by
  cases advance_transition moved with
  | mark at_phase =>
      cases after
      exact ⟨at_phase, rfl, rfl⟩
  | leave =>
      simp only [leaveLoop] at after
      split at after <;> simp at after
  | _ => simp at after

theorem advance_succeeds {rows : PlanRows} {r : Runner sv} {answer : Answer} {m : Moved sv} {idx : Nat}
    (moved : advance rows r answer = some m) {before after : List (Event sv)}
    (split : m.events = before ++ .stepStatus idx .succeeded :: after) :
    before = [] ∧ ∃ step result, r.phase = .recordStep idx step (.ok result) := by
  cases advance_transition moved with
  | succeed at_phase =>
      cases before with
      | nil =>
          cases split
          exact ⟨rfl, _, _, at_phase⟩
      | cons e es => simp at split
  | _ =>
      have member : Event.stepStatus idx .succeeded ∈ before ++ Event.stepStatus idx .succeeded :: after := by simp
      rw [← split] at member
      simp at member

theorem ServiceInv.written_sent {w : Service sv} (inv : ServiceInv w) {i : Nat} {r : Runner sv}
    (found : w.runners[i]? = some r) (outside : inLoop r.phase = false) {idx : Nat} {step : Step}
    (writing : writes r.phase = some (idx, step)) : idx ∈ dispatches (w.log.map Prod.snd) := by
  obtain ⟨listed, runnerInv, -, -⟩ := inv.runners i r found
  have phaseInv := runnerInv.phaseInv
  cases at_phase : r.phase <;>
    simp only [at_phase, writes, inLoop, reduceCtorEq, Option.some.injEq, Prod.mk.injEq] at writing outside
  case recordCompensated place _ reply rest =>
    simp only [PhaseInv, at_phase] at phaseInv
    obtain ⟨closing, -, recorded, -⟩ := phaseInv
    rw [← writing.1]
    exact dispatches_logOf (closing.valid place recorded).1

section Advanced
variable {w : Service sv} {i : Nat} {r : Runner sv} {answer : Answer} {m : Moved sv} (inv : ServiceInv w)
  (found : w.runners[i]? = some r) (moved : advance w.rows r answer = some m)
include inv found moved

theorem ServiceInv.rowsMoved {j : Nat} {t : Step} (at_j : m.rows.steps[j]? = some t) :
    ∃ old, w.rows.steps[j]? = some old ∧
      (t = old ∨ (t.status ≠ .pending ∧ ∃ step, writes r.phase = some (j, step))) := by
  obtain ⟨listed, runnerInv, ids, -⟩ := inv.runners i r found
  rcases advance_rows runnerInv ids moved with same | ⟨idx, step, writing, rows⟩
  · exact ⟨t, same ▸ at_j, Or.inl rfl⟩
  · obtain ⟨old, before, ⟨rfl, settled⟩ | ⟨-, kept⟩⟩ := rows j t at_j
    · exact ⟨old, before, Or.inr ⟨settled, step, writing⟩⟩
    · exact ⟨old, before, Or.inl kept⟩

-- No row goes back to pending.
theorem ServiceInv.staysSettled {idx : Nat} (settled : ∀ t, w.rows.steps[idx]? = some t → t.status ≠ .pending)
    (t : Step) (at_idx : m.rows.steps[idx]? = some t) : t.status ≠ .pending := by
  obtain ⟨old, before, rfl | ⟨settles, -⟩⟩ := inv.rowsMoved found moved at_idx
  · exact settled _ before
  · exact settles

theorem ServiceInv.advanced_runners (resumes : r.phase = .listSteps → Resumable w.rows.steps) (j : Nat)
    (s : Runner sv) (at_j : (w.runners.set i m.runner)[j]? = some s) :
    ∃ listed, RunnerInv listed s (logOf j (w.log ++ m.events.map (i, ·))) ∧
      listed.map Step.id = m.rows.steps.map Step.id ∧ (HasListed s.phase → Resumable listed) := by
  obtain ⟨listed, runnerInv, ids, resumable⟩ := inv.runners i r found
  rcases set_cases at_j with ⟨rfl, rfl⟩ | ⟨other, at_j⟩
  · simp only [logOf_append_self]
    by_cases lists : r.phase = .listSteps
    · have fresh : RunnerInv w.rows.steps r (logOf j w.log) := runnerInv.relist (by rw [lists]; trivial)
      exact ⟨w.rows.steps, advance_inv fresh (fun _ => rfl) moved, (advance_ids moved).symm,
        fun _ => resumes lists⟩
    · refine ⟨listed, advance_inv runnerInv (fun at_list => absurd at_list lists) moved,
        ids.trans (advance_ids moved).symm, fun after => ?_⟩
      exact resumable ((advance_hasListed moved after).resolve_right lists)
  · obtain ⟨listed', runnerInv', ids', resumable'⟩ := inv.runners j s at_j
    exact ⟨listed', by simpa only [logOf_append_other other] using runnerInv',
      ids'.trans (advance_ids moved).symm, resumable'⟩

theorem ServiceInv.advanced_sent (idx : Nat)
    (sent : idx ∈ dispatches ((w.log ++ m.events.map (i, ·)).map Prod.snd))
    (t : Step) (at_idx : m.rows.steps[idx]? = some t) : t.status ≠ .pending := by
  simp only [map_snd_append, dispatches_append, List.mem_append] at sent
  rcases sent with old | new
  · exact inv.staysSettled found moved (inv.sent idx old) t at_idx
  · rcases advance_dispatches moved with none | ⟨idx', step, at_phase, events, -⟩
    · simp [none] at new
    · obtain rfl : idx = idx' := by simpa [events] using new
      exact inv.staysSettled found moved (inv.marked i r idx step found at_phase).2 t at_idx

theorem ServiceInv.advanced_copies (j : Nat) (s : Runner sv) (at_j : (w.runners.set i m.runner)[j]? = some s)
    (looping : inLoop s.phase = true) (idx : Nat) (copy t : Step) (inCopy : s.steps[idx]? = some copy)
    (at_idx : m.rows.steps[idx]? = some t) (pending : copy.status = .pending) : t.status = .pending := by
  obtain ⟨old, before, kept | ⟨-, step, writing⟩⟩ := inv.rowsMoved found moved at_idx
  · subst kept
    rcases set_cases at_j with ⟨rfl, rfl⟩ | ⟨-, at_j⟩
    · rcases advance_inLoop moved looping with wasLooping | lists
      · exact inv.copies j r found wasLooping idx copy t (advance_copy moved looping wasLooping inCopy pending).1
          before pending
      · cases advance_transition moved with
        | list =>
            obtain rfl : copy = t := Option.some.inj (inCopy.symm.trans before)
            exact pending
        | _ => simp_all [inLoop]
    · exact inv.copies j s at_j looping idx copy t inCopy before pending
  · -- The row has just been written: by this call's own step, or by a compensation elsewhere.
    have writerLoops : inLoop r.phase = false → old.status ≠ .pending := fun outside =>
      inv.sent idx (inv.written_sent found outside writing) old before
    rcases set_cases at_j with ⟨rfl, rfl⟩ | ⟨other, at_j⟩
    · rcases advance_inLoop moved looping with wasLooping | lists
      · obtain ⟨wasCopy, unwritten⟩ := advance_copy moved looping wasLooping inCopy pending
        rw [unwritten ⟨step, writing⟩] at at_idx
        exact inv.copies j r found wasLooping idx copy t wasCopy at_idx pending
      · simp [lists, writes] at writing
    · cases loops : inLoop r.phase with
      | true => exact absurd (inv.alone j i s r at_j found looping loops) other
      | false => exact absurd (inv.copies j s at_j looping idx copy old inCopy before pending) (writerLoops loops)

-- A call that has just marked a step is the first to send it.
theorem ServiceInv.marking {idx : Nat} {step : Step} (at_phase : m.runner.phase = .dispatchStep idx step) :
    idx ∉ dispatches (w.log.map Prod.snd) ∧ dispatches m.events = [] ∧
      ∀ t, m.rows.steps[idx]? = some t → t.status ≠ .pending := by
  obtain ⟨listed, runnerInv, ids, -⟩ := inv.runners i r found
  obtain ⟨marking, rows, quiet⟩ := advance_marks moved at_phase
  have phaseInv := runnerInv.phaseInv
  simp only [PhaseInv, marking] at phaseInv
  obtain ⟨-, ⟨u, inList, same, -⟩, copy, inCopy, pending⟩ := phaseInv
  have looping : inLoop r.phase = true := by rw [marking]; rfl
  refine ⟨?_, quiet, ?_⟩
  · intro sent
    have bound : idx < w.rows.steps.length := by
      have lengths := congrArg List.length ids
      simp only [List.length_map] at lengths
      exact lengths ▸ (List.getElem?_eq_some_iff.mp inList).1
    have at_idx := List.getElem?_eq_getElem bound
    exact inv.sent idx sent _ at_idx (inv.copies i r found looping idx copy _ inCopy at_idx pending)
  · intro t at_idx
    rw [rows] at at_idx
    obtain ⟨old, before, -, hit⟩ := setStepStatus_row at_idx
    have here : old.id = step.id := by
      rw [(definition_eq same).1]
      exact (place_of_id ids inList before).mpr rfl
    simp only [here, ne_eq, not_true_eq_false, false_and, or_false, true_and] at hit
    simp [hit]

theorem ServiceInv.advanced_marked (j : Nat) (s : Runner sv) (idx : Nat) (step : Step)
    (at_j : (w.runners.set i m.runner)[j]? = some s) (at_phase : s.phase = .dispatchStep idx step) :
    idx ∉ dispatches ((w.log ++ m.events.map (i, ·)).map Prod.snd) ∧
      ∀ t, m.rows.steps[idx]? = some t → t.status ≠ .pending := by
  simp only [map_snd_append, dispatches_append, List.mem_append, not_or]
  rcases set_cases at_j with ⟨rfl, rfl⟩ | ⟨other, at_j⟩
  · obtain ⟨unsent, quiet, settled⟩ := inv.marking found moved at_phase
    exact ⟨⟨unsent, by simp [quiet]⟩, settled⟩
  · obtain ⟨unsent, settled⟩ := inv.marked j s idx step at_j at_phase
    refine ⟨⟨unsent, ?_⟩, inv.staysSettled found moved settled⟩
    rcases advance_dispatches moved with none | ⟨idx', step', sending, -, -⟩
    · simp [none]
    · have loops : inLoop s.phase = true := by rw [at_phase]; rfl
      have loops' : inLoop r.phase = true := by rw [sending]; rfl
      exact absurd (inv.alone j i s r at_j found loops loops') other

theorem ServiceInv.advanced_alone (quiet : r.phase = .listSteps → ∀ s ∈ w.runners, inLoop s.phase = false)
    (j k : Nat) (s t : Runner sv) (at_j : (w.runners.set i m.runner)[j]? = some s)
    (at_k : (w.runners.set i m.runner)[k]? = some t) (loops : inLoop s.phase = true)
    (loops' : inLoop t.phase = true) : j = k := by
  have unique {j : Nat} {s : Runner sv} (other : j ≠ i) (at_j : w.runners[j]? = some s)
      (looping : inLoop s.phase = true) : inLoop m.runner.phase = false := by
    by_contra loops
    rcases advance_inLoop moved (by simpa using loops) with wasLooping | lists
    · exact other (inv.alone j i s r at_j found looping wasLooping)
    · simp [quiet lists s (List.mem_of_getElem? at_j)] at looping
  rcases set_cases at_j with ⟨rfl, rfl⟩ | ⟨other, was_j⟩ <;>
    rcases set_cases at_k with ⟨rfl, rfl⟩ | ⟨other', was_k⟩
  · rfl
  · simp [unique other' was_k loops'] at loops
  · simp [unique other was_j loops] at loops'
  · exact inv.alone j k s t was_j was_k loops loops'

theorem ServiceInv.advanced_once : (dispatches ((w.log ++ m.events.map (i, ·)).map Prod.snd)).Nodup := by
  simp only [map_snd_append, dispatches_append]
  rcases advance_dispatches moved with none | ⟨idx, step, at_phase, events, -⟩
  · simpa [none] using inv.once
  · rw [events]
    have fresh := (inv.marked i r idx step found at_phase).1
    exact List.nodup_append.mpr ⟨inv.once, by simp, by
      intro a member b last same
      exact fresh (List.mem_singleton.mp last ▸ same ▸ member)⟩

theorem ServiceInv.advanced_ordered (before : List (Nat × Event sv)) (j idx : Nat) (after : List (Nat × Event sv))
    (split : w.log ++ m.events.map (i, ·) = before ++ (j, .stepStatus idx .succeeded) :: after) :
    idx ∈ dispatches (before.map Prod.snd) := by
  rcases append_eq_append_cons split with ⟨rest, old⟩ | ⟨middle, rfl, new⟩
  · exact inv.ordered before j idx rest old
  · have events := congrArg (List.map Prod.snd) new
    simp only [List.map_map, Function.comp_def, List.map_id_fun', id_eq, List.map_append, List.map_cons] at events
    obtain ⟨-, step, result, at_phase⟩ := advance_succeeds moved events
    obtain ⟨listed, runnerInv, -, -⟩ := inv.runners i r found
    have phaseInv := runnerInv.phaseInv
    simp only [PhaseInv, at_phase] at phaseInv
    have sent := dispatches_logOf phaseInv.2.2
    simp [sent]

end Advanced

theorem ServiceInv.advanced {w : Service sv} (inv : ServiceInv w) {i : Nat} {r : Runner sv} {answer : Answer}
    {m : Moved sv} (found : w.runners[i]? = some r)
    (condition : r.phase = .listSteps → (∀ s ∈ w.runners, inLoop s.phase = false) ∧ Resumable w.rows.steps)
    (moved : advance w.rows r answer = some m) :
    ServiceInv { rows := m.rows, runners := w.runners.set i m.runner, log := w.log ++ m.events.map (i, ·) } where
  runners := inv.advanced_runners found moved fun lists => (condition lists).2
  unused j bound := by
    have bound' : w.runners.length ≤ j := by simpa using bound
    have other : j ≠ i := fun same => by
      have := (List.getElem?_eq_some_iff.mp found).1
      omega
    simpa only [logOf_append_other other] using inv.unused j bound'
  sent := inv.advanced_sent found moved
  copies := inv.advanced_copies found moved
  marked := inv.advanced_marked found moved
  alone := inv.advanced_alone found moved fun lists => (condition lists).1
  once := inv.advanced_once found moved
  ordered := inv.advanced_ordered found moved

theorem ServiceInv.called {w : Service sv} (inv : ServiceInv w) :
    ServiceInv { w with runners := w.runners ++ [.new sv] } := by
  refine ⟨?_, ?_, inv.sent, ?_, ?_, ?_, inv.once, inv.ordered⟩
  · intro j s at_j
    rcases snoc_cases at_j with old | ⟨rfl, rfl⟩
    · exact inv.runners j s old
    · refine ⟨w.rows.steps, ?_, rfl, fun listed => listed.elim⟩
      rw [inv.unused _ le_rfl]
      exact RunnerInv.new _
  · intro j bound
    exact inv.unused j (by simp at bound; omega)
  · intro j s at_j looping
    rcases snoc_cases at_j with old | ⟨-, rfl⟩
    · exact inv.copies j s old looping
    · simp [Runner.new, inLoop] at looping
  · intro j s idx step at_j at_phase
    rcases snoc_cases at_j with old | ⟨-, rfl⟩
    · exact inv.marked j s idx step old at_phase
    · simp [Runner.new] at at_phase
  · intro j k s t at_j at_k loops loops'
    rcases snoc_cases at_j with old | ⟨-, rfl⟩
    · rcases snoc_cases at_k with old' | ⟨-, rfl⟩
      · exact inv.alone j k s t old old' loops loops'
      · simp [Runner.new, inLoop] at loops'
    · simp [Runner.new, inLoop] at loops

theorem ServiceInv.crashed {w : Service sv} (inv : ServiceInv w) {i : Nat} {r : Runner sv}
    (found : w.runners[i]? = some r) :
    ServiceInv { w with runners := w.runners.set i { r with phase := .crashed } } := by
  refine ⟨?_, ?_, inv.sent, ?_, ?_, ?_, inv.once, inv.ordered⟩
  · intro j s at_j
    rcases set_cases at_j with ⟨rfl, rfl⟩ | ⟨-, was_j⟩
    · obtain ⟨listed, runnerInv, ids, -⟩ := inv.runners j r found
      exact ⟨listed, ⟨runnerInv.logInv, trivial⟩, ids, fun listed => listed.elim⟩
    · exact inv.runners j s was_j
  · intro j bound
    exact inv.unused j (by simpa using bound)
  · intro j s at_j looping
    rcases set_cases at_j with ⟨rfl, rfl⟩ | ⟨-, was_j⟩
    · simp [inLoop] at looping
    · exact inv.copies j s was_j looping
  · intro j s idx step at_j at_phase
    rcases set_cases at_j with ⟨rfl, rfl⟩ | ⟨-, was_j⟩
    · simp at at_phase
    · exact inv.marked j s idx step was_j at_phase
  · intro j k s t at_j at_k loops loops'
    rcases set_cases at_j with ⟨rfl, rfl⟩ | ⟨-, was_j⟩
    · simp [inLoop] at loops
    · rcases set_cases at_k with ⟨rfl, rfl⟩ | ⟨-, was_k⟩
      · simp [inLoop] at loops'
      · exact inv.alone j k s t was_j was_k loops loops'

theorem step_serviceInv (w : Service sv) (action : Service.Action) (w' : Service sv) (alone : StartsAlone w action)
    (inv : ServiceInv w) (moved : w.step action = some w') : ServiceInv w' := by
  cases action with
  | call =>
      cases moved
      exact inv.called
  | advance i answer =>
      simp only [Service.step] at moved
      split at moved
      case h_1 r found =>
        obtain ⟨m, advanced, rfl⟩ := Option.map_eq_some_iff.mp moved
        refine inv.advanced found (fun at_list => alone ?_) advanced
        simp [lists, found, at_list]
      case h_2 => cases moved
  | crash i =>
      simp only [Service.step] at moved
      split at moved
      · cases moved
      case h_2 r _ found =>
        cases moved
        exact inv.crashed found
      · cases moved

/-! ## Reruns and concurrent calls -/

def Dispatching (phase : Phase sv) (idx : Nat) : Prop :=
  ∃ step request, phase = .awaitReply idx step request

/-- A call that ends failed, none of its own dispatches having failed, leaves pending only steps that
wait for something that has not succeeded. -/
def EndsForCause (i : Nat) (r : Runner sv) (log : List (Nat × Event sv)) : Prop :=
  r.phase = .returned (.ok .failed) → (∀ idx, (i, .stepStatus idx .failed) ∉ log) →
    ∀ (idx : Nat) s, r.steps[idx]? = some s → s.status = .pending →
      ∃ d ∈ s.dependsOn, ∀ (j : Nat) t, r.steps[j]? = some t → t.id = d →
        t.status ≠ .succeeded ∧ (i, .stepStatus j .succeeded) ∉ log

theorem mem_logOf {i : Nat} {e : Event sv} {log : List (Nat × Event sv)} : e ∈ logOf i log ↔ (i, e) ∈ log := by
  simp [logOf]

theorem ServiceInv.endsForCause {w : Service sv} (inv : ServiceInv w) {i : Nat} {r : Runner sv}
    (found : w.runners[i]? = some r) : EndsForCause i r w.log := by
  intro failed noFailure idx s copied pending
  obtain ⟨listed, runnerInv, ids, resumable⟩ := inv.runners i r found
  have closing : Closing listed r (logOf i w.log) := by
    simpa only [PhaseInv, failed] using runnerInv.phaseInv
  have bound : idx < listed.length := closing.length ▸ (List.getElem?_eq_some_iff.mp copied).1
  have inList := List.getElem?_eq_getElem bound
  obtain ⟨same, left⟩ := closing.entries idx s _ copied inList
  -- A step of the copy that counts as succeeded was listed so, or is one of this call's own.
  have origin {j : Nat} {t : Step} (at_j : r.steps[j]? = some t)
      (counts : t.status = .succeeded ∨ (i, .stepStatus j .succeeded) ∈ w.log) :
      ∃ u ∈ listed, u.id = t.id ∧ (u.status = .succeeded ∨
        (u.status = .pending ∧ Satisfied listed (logOf i w.log) t.id)) := by
    have bound' : j < listed.length := closing.length ▸ (List.getElem?_eq_some_iff.mp at_j).1
    have inList' := List.getElem?_eq_getElem bound'
    obtain ⟨same', left'⟩ := closing.entries j t _ at_j inList'
    refine ⟨listed[j], List.getElem_mem bound', (definition_eq same').1.symm, ?_⟩
    have own (recorded : j ∈ successes (logOf i w.log)) :
        listed[j].status = .pending ∧ Satisfied listed (logOf i w.log) t.id := by
      obtain ⟨-, u, at_j', wasPending⟩ := closing.valid j recorded
      obtain rfl : listed[j] = u := Option.some.inj (inList'.symm.trans at_j')
      exact ⟨wasPending, j, recorded, _, inList', (definition_eq same').1.symm⟩
    rcases counts with succeeded | recorded
    · rcases left'.2 succeeded with listedSo | recorded
      · exact Or.inl listedSo
      · exact Or.inr (own recorded)
    · exact Or.inr (own ((mem_successes).mpr ((mem_logOf).mpr recorded)))
  have dependsOn : listed[idx].dependsOn = s.dependsOn := (definition_eq same).2.1.symm
  have ended : HasListed r.phase := by
    rw [failed]
    trivial
  rcases resumable ended _ (List.getElem_mem bound) (left.1 pending) with none | ⟨d, depends, dead⟩
  · -- Nothing it waits for was there before, so what is missing is missing altogether.
    obtain ⟨k, failure⟩ | stuck := closing.cause
    · exact absurd ((mem_logOf).mp failure) (noFailure k)
    obtain ⟨d, depends, missing⟩ := stuck idx s copied pending
    refine ⟨d, depends, fun j t at_j here => not_or.mp fun counts => ?_⟩
    obtain ⟨u, inListed, sameId, before | ⟨-, satisfied⟩⟩ := origin at_j counts
    · exact none u inListed (by rw [dependsOn, sameId, here]; exact depends) before
    · exact missing (here ▸ satisfied)
  · refine ⟨d, dependsOn ▸ depends, fun j t at_j here => not_or.mp fun counts => ?_⟩
    obtain ⟨u, inListed, sameId, status⟩ := origin at_j counts
    obtain ⟨notPending, notSucceeded⟩ := dead u inListed (sameId.trans here)
    rcases status with before | ⟨wasPending, -⟩
    · exact notSucceeded before
    · exact notPending wasPending

theorem reruns_are_safe (rows : PlanRows) (actions : List Service.Action) (w : Service sv)
    (reached : run Service.step (.start rows) actions = some w)
    (alone : AllSteps Service.step StartsAlone (.start rows : Service sv) actions) :
    (∀ before i idx after, w.log = before ++ (i, .stepStatus idx .succeeded) :: after →
      ∀ j, (j, .dispatched idx) ∉ after) ∧
    (dispatches (w.log.map Prod.snd)).Nodup ∧
    (∀ (i j : Nat) r s idx, w.runners[i]? = some r → w.runners[j]? = some s →
      Dispatching r.phase idx → Dispatching s.phase idx → i = j) ∧
    (∀ (i : Nat) r, w.runners[i]? = some r → EndsForCause i r w.log) := by
  have inv : ServiceInv w := invariant_of_allSteps step_serviceInv alone (ServiceInv.start rows) reached
  refine ⟨?_, inv.once, ?_, fun i r found => inv.endsForCause found⟩
  · intro before i idx after split j later
    have earlier := inv.ordered before i idx after split
    have again : idx ∈ dispatches (after.map Prod.snd) :=
      (mem_dispatches).mpr (List.mem_map.mpr ⟨_, later, rfl⟩)
    have once := inv.once
    rw [split, List.map_append, dispatches_append] at once
    refine (List.nodup_append.mp once).2.2 idx earlier idx ?_ rfl
    simpa [dispatches] using again
  · rintro i j r s idx at_i at_j ⟨step, request, waits⟩ ⟨step', request', waits'⟩
    exact inv.alone i j r s at_i at_j (by rw [waits]; rfl) (by rw [waits']; rfl)

/-! ## Sample calls

A plan of two steps, the second waiting for the first.
-/

def chainRows : PlanRows :=
  { status := .planning, steps := [sampleStep 0 [], sampleStep 1 [0]], distinct := by decide }

def enter (i : Nat) : List Service.Action := [.call, .advance i .go, .advance i .go]

def dispatchNext (i : Nat) : List Service.Action := [.advance i .go, .advance i .go, .advance i .go]

def succeedNext (i : Nat) : List Service.Action :=
  [.advance i (.dispatched (.ok (.object [("success", .bool true)]))), .advance i .go]

def sequentialCalls : List Service.Action :=
  enter 0 ++ dispatchNext 0 ++ succeedNext 0 ++ dispatchNext 0 ++ succeedNext 0 ++ [.advance 0 .go, .advance 0 .go] ++
    enter 1 ++ [.advance 1 .go, .advance 1 .go]

theorem sequentialCalls_are_safe :
    ∃ w, run Service.step (.start chainRows : Service Semver.caret) sequentialCalls = some w ∧
      AllSteps Service.step StartsAlone (.start chainRows : Service Semver.caret) sequentialCalls ∧
      (dispatches (w.log.map Prod.snd)).Nodup :=
  ⟨_, rfl, by decide,
    (reruns_are_safe chainRows sequentialCalls (_ : Service Semver.caret) rfl (by decide)).2.1⟩

def crashedCall : List Service.Action :=
  enter 0 ++ dispatchNext 0 ++ succeedNext 0 ++ [.crash 0] ++ enter 1 ++ dispatchNext 1

theorem crashedCall_ends :
    ∃ w r, run Service.step (.start chainRows : Service Semver.caret) crashedCall = some w ∧
      w.runners[1]? = some r ∧ r.phase = .returned (.ok .failed) ∧
      w.log.filter (fun e => e.1 = 1) = [(1, .planStatus .executing), (1, .planStatus .failed)] ∧
      r.steps[1]? = some (sampleStep 1 [0]) ∧ ∃ t, r.steps[0]? = some t ∧ t.id = 0 ∧ t.status = .succeeded :=
  ⟨_, _, rfl, rfl, rfl, rfl, rfl, _, rfl, rfl, rfl⟩

/-- Two calls that listed the same pending step both dispatch it, at once or one after the other has
recorded it; a call after a crash finds its only open step waiting for one that has succeeded, and fails. -/
theorem overlapping_calls_repeat_and_rerun_fails :
    (∃ (actions : List Service.Action) (w : Service Semver.caret) (before after : List (Nat × Event Semver.caret)),
      run Service.step (.start chainRows) actions = some w ∧
      w.log = before ++ (0, .stepStatus 0 .succeeded) :: after ∧ (1, .dispatched 0) ∈ after) ∧
    (∃ (actions : List Service.Action) (w : Service Semver.caret) (r s : Runner Semver.caret),
      run Service.step (.start chainRows) actions = some w ∧ w.runners[0]? = some r ∧ w.runners[1]? = some s ∧
      Dispatching r.phase 0 ∧ Dispatching s.phase 0) ∧
    ∃ (actions : List Service.Action) (w : Service Semver.caret) (r : Runner Semver.caret),
      run Service.step (.start chainRows) actions = some w ∧ w.runners[1]? = some r ∧
      ¬ EndsForCause 1 r w.log := by
  refine ⟨⟨enter 0 ++ enter 1 ++ dispatchNext 0 ++ succeedNext 0 ++ dispatchNext 1, _,
      [(0, .planStatus .executing), (1, .planStatus .executing), (0, .stepStatus 0 .running), (0, .dispatched 0)],
      [(1, .stepStatus 0 .running), (1, .dispatched 0)], rfl, rfl, by simp⟩,
    ⟨enter 0 ++ enter 1 ++ dispatchNext 0 ++ dispatchNext 1, _, _, _, rfl, rfl, rfl, ⟨_, _, rfl⟩, ⟨_, _, rfl⟩⟩, ?_⟩
  obtain ⟨w, r, reached, found, failed, own, waiting, t, first, sameId, succeeded⟩ := crashedCall_ends
  refine ⟨crashedCall, w, r, reached, found, fun cause => ?_⟩
  have noFailure : ∀ idx, (1, .stepStatus idx .failed) ∉ w.log := by
    intro idx member
    have mine : (1, Event.stepStatus idx .failed) ∈ w.log.filter (fun e => e.1 = 1) :=
      List.mem_filter.mpr ⟨member, rfl⟩
    rw [own] at mine
    simp at mine
  obtain ⟨d, depends, missing⟩ := cause failed noFailure 1 _ waiting rfl
  obtain rfl : d = 0 := by simpa [sampleStep] using depends
  exact (missing 0 t first sameId).1 succeeded

end Daimon.Proof.Orchestrator
