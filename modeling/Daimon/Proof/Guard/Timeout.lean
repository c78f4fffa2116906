import Daimon.Proof.Guard.Decision
import Daimon.App.Settings

/-!
# The approval timeout

`wait_for_decision` adds the configured timeout to the clock. Where the sum is an `Instant`, the call waits until the
row is decided or the time has passed, and then closes the row; where it is not, the task panics and the row stays
pending.
-/

namespace Daimon.Proof.Guard
open Daimon.Core Daimon.Guard Lib

def deadline (s : State) : Nat := s.now + 1000 * s.approvalTimeoutSecs

/-- A step that does not start a wait past the platform's last instant. -/
def Fits (g : Config) (w : GuardWorld) : GuardAction → Prop
  | .advance i _ => ∀ call ∈ w.calls[i]?, ∀ id, call.progress = .next (.startWait id) →
      deadline w.state ≤ g.instantMax
  | _ => True

def NoPanic (w : GuardWorld) : Prop := ∀ call ∈ w.calls, call.progress ≠ .panicked

theorem advance_panics {g : Config} {s : State} {a : PreFlight} {phase : Phase} {answer : Answer} {r : StepResult}
    (moved : advance g s a phase answer = some r) :
    r.outcome = .panicked ↔ (∃ id, phase = .startWait id) ∧ g.instantMax < deadline s := by
  cases advance_cases moved with
  | startWait representable => simpa [deadline] using representable
  | overflow past => simpa [deadline] using past
  | engaged | read | write | allow | deny | park | enqueue | duplicate | enqueueFailed | publish | decided | undecided
  | pollFailed | due | sleep | expire | expireFailed | wake => simp

theorem step_noPanic {g : Config} {w : GuardWorld} {action : GuardAction} {w' : GuardWorld}
    (stepped : w.step g action = some w') : NoPanic w' ↔ NoPanic w ∧ Fits g w action := by
  rcases step_cases stepped with ⟨i, answer, call, phase, r, rfl, found, current, moved, rfl⟩ | ⟨outside, calls, -⟩
  · have calm : call.progress ≠ .panicked := by
      rw [current]
      exact nofun
    have fits : Fits g w (.advance i answer) ↔ r.outcome ≠ .panicked := by
      rw [Ne, advance_panics moved, not_and, Nat.not_lt]
      simp only [Fits, found, Option.mem_some_iff, forall_eq', current, Outcome.next.injEq, forall_exists_index]
    rw [fits]
    constructor
    · intro none
      refine ⟨?_, none _ (List.mem_of_getElem? (List.getElem?_set_self (List.getElem?_eq_some_iff.mp found).1))⟩
      intro other member
      obtain ⟨j, other_at⟩ := List.mem_iff_getElem?.mp member
      by_cases same : j = i
      · subst same
        rw [Option.some.inj (other_at.symm.trans found)]
        exact calm
      · exact none other (List.mem_of_getElem? ((List.getElem?_set_ne (Ne.symm same)).trans other_at))
    · rintro ⟨none, here⟩ other member
      rcases List.mem_or_eq_of_mem_set member with old | rfl
      · exact none other old
      · exact here
  · have fits : Fits g w action := by
      cases action with
      | advance i answer => exact absurd rfl (outside i answer)
      | _ => trivial
    rw [and_iff_left fits]
    rcases calls with same | ⟨args, more⟩
    · rw [NoPanic, same, NoPanic]
    · simp [NoPanic, more, or_imp, forall_and]

/-- Nobody panics exactly in the runs that start no wait past the last instant. -/
theorem noPanic_iff {g : Config} {actions : List GuardAction} {w : GuardWorld}
    (reached : run (GuardWorld.step g) .new actions = some w) :
    NoPanic w ↔ AllSteps (GuardWorld.step g) (Fits g) .new actions := by
  have calm : NoPanic .new := by simp [NoPanic, GuardWorld.new]
  rw [holds_iff_allSteps (fun _ _ _ => step_noPanic) reached, and_iff_right calm]

/-! ## Calls and their rows -/

/-- No two calls have one row, and the row of a call that goes on has not expired. -/
structure Placed (w : GuardWorld) : Prop where
  distinct : DistinctRows w.state.approvals
  waits : ∀ call ∈ w.calls, ∀ phase, call.progress = .next phase → phaseRow phase = call.row
  held : ∀ call ∈ w.calls, ∀ id, call.row = some id → ∃ row, w.state.approvals.get id = some row ∧
    ((∃ phase, call.progress = .next phase) → row.status ≠ .expired)
  alone : ∀ (i : Nat) (call : GuardCall) (id : Uuid), w.calls[i]? = some call → call.row = some id →
    Alone (fun other => other.row = some id) w.calls i call

theorem placed_new : Placed .new where
  distinct := List.nodup_nil
  waits := by simp [GuardWorld.new]
  held := by simp [GuardWorld.new]
  alone := by simp [GuardWorld.new]

theorem get_expire_other {table : ApprovalTable} {id own : Uuid} {now : Nat} {row : ApprovalRecord}
    (other : id ≠ own) (found : table.get id = some row) : (table.expireIfPending own now).get id = some row := by
  have different : row.id ≠ own := (get_eq_some_id found).2 ▸ other
  have read := get_updatePending table own id
    (fun row => { row with status := .expired, decidedAt := some now }) fun _ => rfl
  rw [found, Option.map_some, if_neg fun both => different both.1] at read
  exact read

theorem advance_frame {g : Config} {s : State} {a : PreFlight} {phase : Phase} {answer : Answer} {r : StepResult}
    (moved : advance g s a phase answer = some r) {id : Uuid} (other : phaseRow phase ≠ some id)
    {row : ApprovalRecord} (found : s.approvals.get id = some row) : r.state.approvals.get id = some row := by
  cases advance_cases moved with
  | enqueue inserted => exact get_enqueue inserted found
  | expire =>
      apply get_expire_other _ found
      intro same
      exact other (congrArg some same.symm)
  | _ => exact found

theorem advance_now {g : Config} {s : State} {a : PreFlight} {phase : Phase} {answer : Answer} {r : StepResult}
    (moved : advance g s a phase answer = some r) : r.state.now = s.now := by
  cases advance_cases moved <;> rfl

/-- A call keeps its row, or it has none and the table takes one for it. -/
theorem advance_row {g : Config} {s : State} {call : GuardCall} {phase : Phase} {answer : Answer} {r : StepResult}
    (moved : advance g s call.args phase answer = some r) (waits : phaseRow phase = call.row) :
    (call.after r).row = call.row ∨ call.row = none ∧ ∃ id, (call.after r).row = some id ∧
      s.approvals.enqueue id s.now call.args.subject = some r.state.approvals := by
  cases advance_cases moved with
  | @enqueue id table inserted => exact Or.inr ⟨waits.symm, id, rfl, inserted⟩
  | publish sent =>
      rcases sent with rfl | ⟨-, rfl⟩ <;> exact Or.inl rfl
  | undecided seen =>
      rcases seen with ⟨-, rfl⟩ | ⟨row, -, -, rfl⟩ <;> exact Or.inl rfl
  | _ => exact Or.inl rfl

theorem advance_waits {g : Config} {s : State} {call : GuardCall} {phase next : Phase} {answer : Answer}
    {r : StepResult} (moved : advance g s call.args phase answer = some r) (waits : phaseRow phase = call.row)
    (goes : r.outcome = .next next) : phaseRow next = (call.after r).row := by
  cases advance_cases moved with
  | write | park | startWait | due | sleep | wake =>
      cases goes
      exact waits
  | enqueue =>
      cases goes
      rfl
  | publish sent =>
      cases goes
      rcases sent with rfl | ⟨-, rfl⟩ <;> exact waits
  | undecided seen =>
      cases goes
      rcases seen with ⟨-, rfl⟩ | ⟨row, -, -, rfl⟩ <;> exact waits
  | _ => cases goes

theorem advance_held {g : Config} {s : State} {call : GuardCall} {phase : Phase} {answer : Answer} {r : StepResult}
    (moved : advance g s call.args phase answer = some r) (waits : phaseRow phase = call.row)
    (held : ∀ id, call.row = some id → ∃ row, s.approvals.get id = some row ∧ row.status ≠ .expired)
    {id : Uuid} (own : (call.after r).row = some id) :
    ∃ row, r.state.approvals.get id = some row ∧ ((∃ next, r.outcome = .next next) → row.status ≠ .expired) := by
  rcases advance_row moved waits with same | ⟨-, id', given, inserted⟩
  · obtain ⟨row, found, live⟩ := held id (same.symm.trans own)
    cases advance_cases moved with
    | @expire id' =>
        obtain ⟨row', after, -⟩ := settles_expire s.approvals id' s.now id row found
        exact ⟨row', after, nofun⟩
    | enqueue inserted => exact ⟨row, get_enqueue inserted found, fun _ => live⟩
    | _ => exact ⟨row, found, fun _ => live⟩
  · obtain rfl := Option.some.inj (given.symm.trans own)
    exact ⟨_, get_enqueue_self inserted, fun _ => nofun⟩

theorem placed_advance {g : Config} {w : GuardWorld} {i : Nat} {call : GuardCall} {phase : Phase} {answer : Answer}
    {r : StepResult} (placed : Placed w) (found : w.calls[i]? = some call) (current : call.progress = .next phase)
    (moved : advance g w.state call.args phase answer = some r) :
    Placed { state := r.state, calls := w.calls.set i (call.after r) } := by
  have member := List.mem_of_getElem? found
  have waits := placed.waits call member phase current
  have held : ∀ id, call.row = some id → ∃ row, w.state.approvals.get id = some row ∧ row.status ≠ .expired := by
    intro id own
    obtain ⟨row, there, live⟩ := placed.held call member id own
    exact ⟨row, there, live ⟨phase, current⟩⟩
  -- Another call's row is neither the row of this call nor the one that it gets.
  have apart : ∀ (j : Nat) (other : GuardCall) (id : Uuid), w.calls[j]? = some other → j ≠ i → other.row = some id →
      call.row ≠ some id ∧ (call.after r).row ≠ some id := by
    intro j other id at_j different own
    have old : call.row ≠ some id := fun same => different ((placed.alone i call id found same).only j other at_j own)
    refine ⟨old, ?_⟩
    rcases advance_row moved waits with same | ⟨-, id', given, inserted⟩
    · rwa [same]
    · intro taken
      obtain rfl := Option.some.inj (given.symm.trans taken)
      obtain ⟨row, there, -⟩ := placed.held other (List.mem_of_getElem? at_j) id' own
      exact (enqueue_eq_some inserted).1 row (get_eq_some_id there).1 (get_eq_some_id there).2
  refine ⟨(advance_settles placed.distinct moved).2, ?_, ?_, ?_⟩
  · intro other there next goes
    rcases List.mem_or_eq_of_mem_set there with old | rfl
    · exact placed.waits other old next goes
    · exact advance_waits moved waits goes
  · intro other there id own
    obtain ⟨j, at_j⟩ := List.mem_iff_getElem?.mp there
    rcases set_cases at_j with ⟨-, rfl⟩ | ⟨different, old⟩
    · exact advance_held moved waits held own
    · obtain ⟨row, before, live⟩ := placed.held other (List.mem_of_getElem? old) id own
      refine ⟨row, advance_frame moved ?_ before, live⟩
      rw [waits]
      exact (apart j other id old different own).1
  · intro j other id at_j own
    rcases set_cases at_j with ⟨rfl, rfl⟩ | ⟨different, old⟩
    · by_cases same : call.row = some id
      · exact (placed.alone j call id found same).set own
      · apply Nobody.alone_set _ found own
        intro k third at_k taken
        by_cases here : k = j
        · subst here
          rw [Option.some.inj (at_k.symm.trans found)] at taken
          exact same taken
        · exact (apart k third id at_k here taken).2 own
    · obtain ⟨before, after⟩ := apart j other id old different own
      exact (placed.alone j other id old own).of_agree (agree_set found before after)

theorem decide_frame {table after : ApprovalTable} {id own operator : Uuid} {status : ApprovalStatus} {now : Nat}
    {record row : ApprovalRecord} (distinct : DistinctRows table)
    (decided : table.decide own operator status now = some (after, record)) (decision : status.isDecision = true)
    (found : table.get id = some row) :
    ∃ row', after.get id = some row' ∧ (row' = row ∨ row'.status.isDecision = true) := by
  obtain ⟨-, -, -, -, rfl⟩ := decide_eq_some distinct decided
  have read := get_updatePending table own id (fun row => decidedRow row operator status now) fun _ => rfl
  rw [found, Option.map_some] at read
  refine ⟨_, read, ?_⟩
  split
  · exact Or.inr decision
  · exact Or.inl rfl

theorem outside_row {w w' : GuardWorld} {id : Uuid} {row : ApprovalRecord} (distinct : DistinctRows w.state.approvals)
    (table : OutsideTable w w') (found : w.state.approvals.get id = some row) :
    ∃ row', w'.state.approvals.get id = some row' ∧ (row' = row ∨ row'.status.isDecision = true) := by
  rcases table with same | ⟨own, operator, status, record, decision, decided⟩
  · exact ⟨row, same ▸ found, Or.inl rfl⟩
  · exact decide_frame distinct decided decision found

theorem step_placed (g : Config) (w : GuardWorld) (action : GuardAction) (w' : GuardWorld) (placed : Placed w)
    (stepped : w.step g action = some w') : Placed w' := by
  rcases step_cases stepped with ⟨i, answer, call, phase, r, rfl, found, current, moved, rfl⟩ | ⟨-, calls, -, table⟩
  · exact placed_advance placed found current moved
  · have old : ∀ call ∈ w'.calls, call ∈ w.calls ∨ call.row = none ∧ call.progress = .next .killCheck := by
      intro call member
      rcases calls with same | ⟨args, more⟩
      · exact Or.inl (same ▸ member)
      · rw [more] at member
        rcases (mem_snoc).mp member with before | rfl
        · exact Or.inl before
        · exact Or.inr ⟨rfl, rfl⟩
    refine ⟨?_, ?_, ?_, ?_⟩
    · exact (table.settles placed.distinct).2
    · intro call member phase current
      rcases old call member with before | ⟨row, fresh⟩
      · exact placed.waits call before phase current
      · rw [fresh] at current
        cases current
        exact row.symm
    · intro call member id held
      rcases old call member with before | ⟨none, -⟩
      · obtain ⟨row, found, live⟩ := placed.held call before id held
        obtain ⟨row', after, same | decided⟩ := outside_row placed.distinct table found
        · exact ⟨row', after, same ▸ live⟩
        · refine ⟨row', after, fun _ expired => ?_⟩
          rw [expired] at decided
          cases decided
      · rw [none] at held
        cases held
    · intro i call id found held
      rcases calls with same | ⟨args, more⟩
      · rw [same] at found ⊢
        exact placed.alone i call id found held
      · rw [more] at found ⊢
        rcases snoc_cases found with before | ⟨-, rfl⟩
        · exact (placed.alone i call id before held).of_agree (agree_snoc nofun)
        · cases held

theorem placed_of_run {g : Config} {actions : List GuardAction} {w : GuardWorld}
    (reached : run (GuardWorld.step g) .new actions = some w) : Placed w :=
  invariant_of_run (step_placed g) placed_new reached

/-! ## The wait -/

/-- The phases of a wait for row `id` that ends at `due`. -/
inductive Waits (id : Uuid) (due now : Nat) : Phase → Prop
  | poll : Waits id due now (.poll id due)
  | checkDeadline : Waits id due now (.checkDeadline id due)
  | expire (late : due ≤ now) : Waits id due now (.expire id)
  | sleep {wake : Nat} (short : wake < due + pollInterval) : Waits id due now (.sleep id due wake)

theorem Waits.later {id : Uuid} {due now now' : Nat} {phase : Phase} (waits : Waits id due now phase)
    (later : now ≤ now') : Waits id due now' phase := by
  cases waits with
  | poll => exact .poll
  | checkDeadline => exact .checkDeadline
  | expire late => exact .expire (late.trans later)
  | sleep short => exact .sleep short

def timedOut (id : Uuid) : Outcome := .returned (.error (.approvalTimeout id.hyphenated))

/-- Where a call is with its row, from the start of its wait on. -/
inductive Stands (id : Uuid) (due now : Nat) (row : ApprovalRecord) : Outcome → Prop
  | waiting {phase : Phase} (waits : Waits id due now phase) (live : row.status ≠ .expired) :
      Stands id due now row (.next phase)
  | answered {result : Except Error Unit} (decided : row.status.isDecision = true) :
      Stands id due now row (.returned result)
  | closed (expired : row.status = .expired) (late : due ≤ now) : Stands id due now row (timedOut id)

def Waited (i : Nat) (id : Uuid) (due : Nat) (w : GuardWorld) : Prop :=
  ∃ call row, w.calls[i]? = some call ∧ call.row = some id ∧ w.state.approvals.get id = some row ∧
    Stands id due w.state.now row call.progress

theorem Stands.later {id : Uuid} {due now now' : Nat} {row row' : ApprovalRecord} {progress : Outcome}
    (stands : Stands id due now row progress) (later : now ≤ now')
    (kept : row' = row ∨ row'.status.isDecision = true) : Stands id due now' row' progress := by
  have live {status : ApprovalStatus} (decided : status.isDecision = true) : status ≠ .expired := by
    rintro rfl
    cases decided
  cases stands with
  | waiting waits unexpired =>
      refine .waiting (waits.later later) ?_
      rcases kept with rfl | decided
      · exact unexpired
      · exact live decided
  | answered decided =>
      rcases kept with rfl | again
      · exact .answered decided
      · exact .answered again
  | closed expired late =>
      rcases kept with rfl | decided
      · exact .closed expired (late.trans later)
      · exact .answered decided

theorem isDecision_iff {status : ApprovalStatus} :
    status.isDecision = true ↔ status ≠ .pending ∧ status ≠ .expired := by
  cases status <;> decide

theorem stands_advance {g : Config} {s : State} {call : GuardCall} {id : Uuid} {due : Nat} {phase : Phase}
    {answer : Answer} {r : StepResult} {row : ApprovalRecord} (waits : Waits id due s.now phase)
    (found : s.approvals.get id = some row) (live : row.status ≠ .expired)
    (heard : ∀ message, answer ≠ .failed message) (moved : advance g s call.args phase answer = some r) :
    ∃ row', r.state.approvals.get id = some row' ∧ Stands id due r.state.now row' r.outcome := by
  cases waits with
  | poll =>
      cases advance_cases moved with
      | decided there decision =>
          obtain rfl := Option.some.inj (found.symm.trans there)
          refine ⟨row, found, .answered ?_⟩
          rcases decision with approved | denied
          · rw [approved]
            rfl
          · rw [denied]
            rfl
      | undecided seen => exact ⟨row, found, .waiting .checkDeadline live⟩
      | pollFailed => exact absurd rfl (heard _)
  | checkDeadline =>
      cases advance_cases moved with
      | due late => exact ⟨row, found, .waiting (.expire late) live⟩
      | sleep early => exact ⟨row, found, .waiting (.sleep (Nat.add_lt_add_right early _)) live⟩
  | expire late =>
      cases advance_cases moved with
      | expire =>
          have read := get_updatePending s.approvals id id
            (fun row => { row with status := .expired, decidedAt := some s.now }) fun _ => rfl
          rw [found, Option.map_some] at read
          refine ⟨_, read, ?_⟩
          by_cases pending : row.status = .pending
          · rw [if_pos ⟨(get_eq_some_id found).2, pending⟩]
            exact .closed rfl late
          · rw [if_neg fun both => pending both.2]
            exact .answered ((isDecision_iff).mpr ⟨pending, live⟩)
      | expireFailed => exact absurd rfl (heard _)
  | sleep short =>
      cases advance_cases moved with
      | wake slept => exact ⟨row, found, .waiting .poll live⟩

/-- A step that is not the call's own leaves the call alone, and its row unless it decides it. -/
theorem step_apart {g : Config} {w w' : GuardWorld} {action : GuardAction} {i : Nat} {id : Uuid} {call : GuardCall}
    {row : ApprovalRecord} (placed : Placed w) (other : ∀ answer, action ≠ .advance i answer)
    (stepped : w.step g action = some w') (found : w.calls[i]? = some call) (own : call.row = some id)
    (there : w.state.approvals.get id = some row) :
    w'.calls[i]? = some call ∧ w.state.now ≤ w'.state.now ∧
      ∃ row', w'.state.approvals.get id = some row' ∧ (row' = row ∨ row'.status.isDecision = true) := by
  rcases step_cases stepped with ⟨j, answer, mover, phase, r, rfl, at_j, current, moved, rfl⟩ | ⟨-, calls, later, table⟩
  · have different : j ≠ i := fun same => other answer (by rw [same])
    refine ⟨(List.getElem?_set_ne different).trans found, (advance_now moved).ge, row, ?_, Or.inl rfl⟩
    apply advance_frame moved _ there
    rw [placed.waits mover (List.mem_of_getElem? at_j) phase current]
    exact fun taken => different ((placed.alone i call id found own).only j mover at_j taken)
  · refine ⟨?_, later, outside_row placed.distinct table there⟩
    rcases calls with same | ⟨args, more⟩
    · rw [same]
      exact found
    · rw [more]
      exact (List.getElem?_append_left (List.getElem?_eq_some_iff.mp found).1).trans found

theorem step_now {g : Config} {w w' : GuardWorld} {action : GuardAction} (stepped : w.step g action = some w') :
    w.state.now ≤ w'.state.now := by
  rcases step_cases stepped with ⟨j, answer, mover, phase, r, rfl, -, -, moved, rfl⟩ | ⟨-, -, later, -⟩
  · exact (advance_now moved).ge
  · exact later

theorem run_now {g : Config} {w w' : GuardWorld} {actions : List GuardAction}
    (ran : run (GuardWorld.step g) w actions = some w') : w.state.now ≤ w'.state.now := by
  have preserved (s : GuardWorld) (action : GuardAction) (t : GuardWorld) (before : w.state.now ≤ s.state.now)
      (stepped : s.step g action = some t) : w.state.now ≤ t.state.now := before.trans (step_now stepped)
  exact invariant_of_run preserved (Nat.le_refl _) ran

theorem step_waited {g : Config} {w w' : GuardWorld} {action : GuardAction} {i : Nat} {id : Uuid} {due : Nat}
    (placed : Placed w) (waited : Waited i id due w) (heard : ∀ message, action ≠ .advance i (.failed message))
    (stepped : w.step g action = some w') : Waited i id due w' := by
  obtain ⟨call, row, found, own, there, stands⟩ := waited
  by_cases inside : ∃ answer, action = .advance i answer
  · obtain ⟨answer, rfl⟩ := inside
    obtain ⟨mover, phase, r, at_i, current, moved, rfl⟩ := step_advance stepped
    obtain rfl := Option.some.inj (found.symm.trans at_i)
    rw [current] at stands
    cases stands with
    | waiting waits live =>
        have answered : ∀ message, answer ≠ .failed message := fun message same => heard message (by rw [same])
        obtain ⟨row', after, stands⟩ := stands_advance waits there live answered moved
        refine ⟨_, row', List.getElem?_set_self (List.getElem?_eq_some_iff.mp found).1, ?_, after, stands⟩
        rcases advance_row moved (placed.waits call (List.mem_of_getElem? found) phase current) with same | ⟨none, -⟩
        · rw [same, own]
        · rw [none] at own
          cases own
  · obtain ⟨still, later, row', after, kept⟩ :=
      step_apart placed (fun answer same => inside ⟨answer, same⟩) stepped found own there
    exact ⟨call, row', still, own, after, stands.later later kept⟩

theorem start_waited {g : Config} {w w' : GuardWorld} {i : Nat} {id : Uuid} {call : GuardCall} (placed : Placed w)
    (found : w.calls[i]? = some call) (current : call.progress = .next (.startWait id))
    (fits : deadline w.state ≤ g.instantMax) (stepped : w.step g (.advance i .go) = some w') :
    Waited i id (deadline w.state) w' := by
  obtain ⟨mover, phase, r, at_i, goes, moved, rfl⟩ := step_advance stepped
  obtain rfl := Option.some.inj (found.symm.trans at_i)
  obtain rfl := Outcome.next.inj (current.symm.trans goes)
  have member := List.mem_of_getElem? found
  have own : call.row = some id := (placed.waits call member _ current).symm
  obtain ⟨row, there, live⟩ := placed.held call member id own
  cases advance_cases moved with
  | startWait representable =>
      exact ⟨_, row, List.getElem?_set_self (List.getElem?_eq_some_iff.mp found).1, own, there,
        .waiting .poll (live ⟨_, current⟩)⟩
  | overflow past => exact absurd fits (Nat.not_le.mpr past)

theorem run_waited {g : Config} {w w' : GuardWorld} {i : Nat} {id : Uuid} {due : Nat} {actions : List GuardAction}
    (placed : Placed w) (waited : Waited i id due w) (heard : ∀ message, .advance i (.failed message) ∉ actions)
    (ran : run (GuardWorld.step g) w actions = some w') : Placed w' ∧ Waited i id due w' := by
  have each : AllSteps (GuardWorld.step g) (fun _ action => ∀ message, action ≠ .advance i (.failed message)) w
      actions := by
    apply allSteps_of_forall
    intro action member _ message same
    exact heard message (same ▸ member)
  have preserved : ∀ s action t, (∀ message, action ≠ .advance i (.failed message)) →
      Placed s ∧ Waited i id due s → s.step g action = some t → Placed t ∧ Waited i id due t := by
    intro s action t heard both stepped
    exact ⟨step_placed g s action t both.1 stepped, step_waited both.1 both.2 heard stepped⟩
  exact invariant_of_allSteps preserved each ⟨placed, waited⟩ ran

/-! ## How many turns are left -/

def turnsLeft : Phase → Nat
  | .sleep _ _ _ => 4
  | .poll _ _ => 3
  | .checkDeadline _ _ => 2
  | _ => 1

theorem advance_turn {g : Config} {s : State} {a : PreFlight} {id : Uuid} {due : Nat} {phase next : Phase}
    {answer : Answer} {r : StepResult} (waits : Waits id due s.now phase) (late : due ≤ s.now)
    (moved : advance g s a phase answer = some r) (goes : r.outcome = .next next) :
    turnsLeft next < turnsLeft phase := by
  cases waits <;> cases advance_cases moved <;> cases goes
  case checkDeadline.sleep early => exact absurd late (Nat.not_le.mpr early)
  all_goals simp [turnsLeft]

/-- A wait whose time passed a poll interval ago can always go on. -/
theorem advance_enabled {g : Config} {s : State} {a : PreFlight} {id : Uuid} {due : Nat} {phase : Phase}
    (waits : Waits id due s.now phase) (passed : due + pollInterval ≤ s.now) :
    (advance g s a phase .go).isSome = true := by
  cases waits with
  | poll =>
      simp only [advance]
      split <;> rfl
  | checkDeadline => rfl
  | expire late => rfl
  | sleep short =>
      simp only [advance]
      rw [if_pos (short.le.trans passed)]
      rfl

def TurnsTaken (i turns : Nat) (w : GuardWorld) : Prop :=
  ∀ call ∈ w.calls[i]?, ∀ phase, call.progress = .next phase → turnsLeft phase + turns ≤ 4

theorem step_turns {g : Config} {w w' : GuardWorld} {action : GuardAction} {i turns : Nat} {id : Uuid} {due : Nat}
    (placed : Placed w) (waited : Waited i id due w) (late : due ≤ w.state.now) (taken : TurnsTaken i turns w)
    (stepped : w.step g action = some w') :
    TurnsTaken i (turns + if action = .advance i .go then 1 else 0) w' := by
  obtain ⟨call, row, found, own, there, stands⟩ := waited
  by_cases inside : ∃ answer, action = .advance i answer
  · obtain ⟨answer, rfl⟩ := inside
    obtain ⟨mover, phase, r, at_i, current, moved, rfl⟩ := step_advance stepped
    obtain rfl := Option.some.inj (found.symm.trans at_i)
    rw [current] at stands
    cases stands with
    | waiting waits live =>
        intro other after next goes
        rw [List.getElem?_set_self (List.getElem?_eq_some_iff.mp found).1] at after
        obtain rfl := Option.some.inj after
        have before := taken call found phase current
        have fewer := advance_turn waits late moved goes
        split <;> omega
  · obtain ⟨still, -⟩ := step_apart placed (fun answer same => inside ⟨answer, same⟩) stepped found own there
    rw [if_neg fun same => inside ⟨.go, same⟩]
    intro other after phase current
    obtain rfl := Option.some.inj (still.symm.trans after)
    exact taken call found phase current

theorem run_turns {g : Config} {w w' : GuardWorld} {i turns : Nat} {id : Uuid} {due : Nat}
    {actions : List GuardAction} (placed : Placed w) (waited : Waited i id due w) (late : due ≤ w.state.now)
    (heard : ∀ message, .advance i (.failed message) ∉ actions) (taken : TurnsTaken i turns w)
    (ran : run (GuardWorld.step g) w actions = some w') :
    due ≤ w'.state.now ∧ TurnsTaken i (turns + actions.count (.advance i .go)) w' := by
  induction actions generalizing w turns with
  | nil =>
      cases ran
      exact ⟨late, taken⟩
  | cons action actions ih =>
      obtain ⟨middle, first, rest⟩ := (run_cons).mp ran
      have placed' := step_placed g w action middle placed first
      have waited' := step_waited placed waited (fun message same => heard message (same ▸ List.mem_cons_self)) first
      obtain ⟨later, counted⟩ := ih placed' waited' (late.trans (step_now first))
        (fun message member => heard message (List.mem_cons_of_mem _ member))
        (step_turns placed waited late taken first) rest
      refine ⟨later, ?_⟩
      rw [List.count_cons]
      simpa [Nat.add_assoc, Nat.add_comm, Nat.add_left_comm] using counted

theorem waited_turns {w : GuardWorld} {i : Nat} {id : Uuid} {due : Nat} (waited : Waited i id due w) :
    TurnsTaken i 0 w := by
  obtain ⟨call, row, found, -, -, stands⟩ := waited
  intro other there phase current
  obtain rfl := Option.some.inj (found.symm.trans there)
  rw [current] at stands
  cases stands with
  | waiting waits live => cases waits <;> simp [turnsLeft]

/-! ## The timeout over runs -/

/-- The call has not panicked; its row is decided, or the call waits for it, or both ended in a timeout. -/
def Served (w : GuardWorld) (i : Nat) (id : Uuid) (due : Nat) : Prop :=
  ∃ call row, w.calls[i]? = some call ∧ w.state.approvals.get id = some row ∧ call.progress ≠ .panicked ∧
    (row.status.isDecision = true ∨ row.status = .pending ∧ (∃ phase, call.progress = .next phase) ∨
      row.status = .expired ∧ due ≤ w.state.now ∧ call.progress = timedOut id)

def GoesOn (w : GuardWorld) (i : Nat) : Prop :=
  ∃ call phase, w.calls[i]? = some call ∧ call.progress = .next phase

/-- The wait that call `i` starts in `w`, however the run goes on without a failed statement of the call: it is served
at every later point, and from the deadline and one poll interval on, it can always take its next turn and has ended
after four. -/
def TimesOut (g : Config) (w : GuardWorld) (i : Nat) (id : Uuid) : Prop :=
  ∀ before after v w', (∀ message, .advance i (.failed message) ∉ before ++ after) →
    run (GuardWorld.step g) w (.advance i .go :: before) = some v → run (GuardWorld.step g) v after = some w' →
    Served w' i id (deadline w.state) ∧
    (deadline w.state + pollInterval ≤ v.state.now → GoesOn w' i →
      after.count (.advance i .go) < 4 ∧ (w'.step g (.advance i .go)).isSome = true)

theorem Waited.served {w : GuardWorld} {i : Nat} {id : Uuid} {due : Nat} (waited : Waited i id due w) :
    Served w i id due := by
  obtain ⟨call, row, found, -, there, stands⟩ := waited
  generalize ended : call.progress = progress at stands
  refine ⟨call, row, found, there, ?_⟩
  rw [ended]
  cases stands with
  | @waiting phase waits live =>
      refine ⟨nofun, ?_⟩
      by_cases pending : row.status = .pending
      · exact Or.inr (Or.inl ⟨pending, phase, rfl⟩)
      · exact Or.inl ((isDecision_iff).mpr ⟨pending, live⟩)
  | answered decided => exact ⟨nofun, Or.inl decided⟩
  | closed expired late => exact ⟨nofun, Or.inr (Or.inr ⟨expired, late, rfl⟩)⟩

theorem timesOut_of_fits {g : Config} {w : GuardWorld} {i : Nat} {id : Uuid} {call : GuardCall} (placed : Placed w)
    (found : w.calls[i]? = some call) (current : call.progress = .next (.startWait id))
    (fits : deadline w.state ≤ g.instantMax) : TimesOut g w i id := by
  intro before after v w' heard toV toW
  have early : ∀ message, .advance i (.failed message) ∉ before :=
    fun message member => heard message (List.mem_append_left _ member)
  have late : ∀ message, .advance i (.failed message) ∉ after :=
    fun message member => heard message (List.mem_append_right _ member)
  obtain ⟨started, first, rest⟩ := (run_cons).mp toV
  have placed₁ := step_placed g w _ started placed first
  obtain ⟨placedV, waitedV⟩ := run_waited placed₁ (start_waited placed found current fits first) early rest
  obtain ⟨-, waitedW⟩ := run_waited placedV waitedV late toW
  refine ⟨waitedW.served, ?_⟩
  rintro passed ⟨other, phase, there, goes⟩
  have due : deadline w.state ≤ v.state.now := (Nat.le_add_right _ _).trans passed
  obtain ⟨-, taken⟩ := run_turns placedV waitedV due late (waited_turns waitedV) toW
  have spent := taken other there phase goes
  have some_left : 0 < turnsLeft phase := by cases phase <;> simp [turnsLeft]
  refine ⟨by omega, ?_⟩
  have passed' : deadline w.state + pollInterval ≤ w'.state.now := passed.trans (run_now toW)
  obtain ⟨held, row, found', -, -, stands⟩ := waitedW
  obtain rfl := Option.some.inj (found'.symm.trans there)
  rw [goes] at stands
  cases stands with
  | waiting waits live => simpa [GuardWorld.step, there, goes] using advance_enabled waits passed'

theorem start_enabled {g : Config} {w : GuardWorld} {i : Nat} {id : Uuid} {call : GuardCall}
    (found : w.calls[i]? = some call) (current : call.progress = .next (.startWait id)) :
    ∃ w', w.step g (.advance i .go) = some w' := by
  simp [GuardWorld.step, found, current, advance]

theorem fits_of_timesOut {g : Config} {w : GuardWorld} {i : Nat} {id : Uuid} {call : GuardCall}
    (found : w.calls[i]? = some call) (current : call.progress = .next (.startWait id))
    (served : TimesOut g w i id) : deadline w.state ≤ g.instantMax := by
  obtain ⟨w', stepped⟩ := start_enabled (g := g) found current
  have started : run (GuardWorld.step g) w [.advance i .go] = some w' := (run_cons).mpr ⟨w', stepped, rfl⟩
  obtain ⟨⟨other, row, there, -, calm, -⟩, -⟩ := served [] [] w' w' (by simp) started rfl
  obtain ⟨mover, phase, r, at_i, goes, moved, rfl⟩ := step_advance stepped
  obtain rfl := Option.some.inj (found.symm.trans at_i)
  obtain rfl := Outcome.next.inj (current.symm.trans goes)
  rw [List.getElem?_set_self (List.getElem?_eq_some_iff.mp found).1] at there
  obtain rfl := Option.some.inj there
  by_contra past
  exact calm ((advance_panics moved).mpr ⟨⟨id, rfl⟩, Nat.not_le.mp past⟩)

/-- In a run of any calls with any timeouts: nobody panics exactly where every wait starts at a time to which the
timeout in force can be added, and a wait is served and times out exactly where its own start is such a time. -/
theorem approval_timeout_iff (g : Config) (actions : List GuardAction) (w : GuardWorld)
    (reached : run (GuardWorld.step g) .new actions = some w) :
    (NoPanic w ↔ AllSteps (GuardWorld.step g) (Fits g) .new actions) ∧
    ∀ i call id, w.calls[i]? = some call → call.progress = .next (.startWait id) →
      (TimesOut g w i id ↔ w.state.now + 1000 * w.state.approvalTimeoutSecs ≤ g.instantMax) := by
  refine ⟨noPanic_iff reached, ?_⟩
  intro i call id found current
  exact ⟨fits_of_timesOut found current, timesOut_of_fits (placed_of_run reached) found current⟩

theorem gated_times_out :
    ∃ w, run (GuardWorld.step gatedGuard) .new (waitedOut.take 5) = some w ∧ TimesOut gatedGuard w 0 1 := by
  refine ⟨_, rfl, ?_⟩
  exact ((approval_timeout_iff gatedGuard (waitedOut.take 5) _ rfl).2 0 _ 1 rfl rfl).mpr (by decide)

/-- What a push of the loaded settings does to the guard. -/
def pushTimeout (env : String → Option String) (cfg : App.Settings.ConfigSnapshot) : GuardAction :=
  .setApprovalTimeoutSecs (App.Settings.approvalTimeout env cfg).toNat

/-- The seconds of an `Instant` are an `i64`. -/
def linuxGuard : Config where
  policy := .new [⟨"*", .requireApproval, none⟩]
  instantMax := 1000 * 0x7fffffffffffffff

/-- With these settings the wait of a parked write panics, and its row stays pending. -/
def PanicsParked (cfg : App.Settings.ConfigSnapshot) : Prop :=
  ∃ w w', run (GuardWorld.step linuxGuard) .new (pushTimeout (fun _ => none) cfg :: waitedOut.take 5) = some w ∧
    w.step linuxGuard (.advance 0 .go) = some w' ∧ w'.calls.map GuardCall.progress = [.panicked] ∧
    (w'.state.approvals.get 1).map ApprovalRecord.status = some .pending ∧ ¬ TimesOut linuxGuard w 0 1

theorem panics_forever {cfg : App.Settings.ConfigSnapshot}
    (pushed : pushTimeout (fun _ => none) cfg = .setApprovalTimeoutSecs 0xffffffffffffffff) : PanicsParked cfg := by
  rw [PanicsParked, pushed]
  refine ⟨_, _, rfl, rfl, rfl, rfl, ?_⟩
  intro served
  obtain ⟨⟨call, row, found, -, calm, -⟩, -⟩ := served [] [] _ _ (by simp) rfl rfl
  cases found
  exact calm rfl

/-- The largest timeout, as a number and as a string. -/
theorem forever_panics :
    PanicsParked ⟨[("guard.approval_timeout_secs", .number (.posInt 0xffffffffffffffff))]⟩ ∧
    PanicsParked ⟨[("guard.approval_timeout_secs", .string "18446744073709551615")]⟩ :=
  ⟨panics_forever (by decide), panics_forever (by decide)⟩

end Daimon.Proof.Guard
