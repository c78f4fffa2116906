import Daimon.Proof.Broker.Step
import Daimon.Proof.Broker.Lint

/-!
# Write gating

Every transport that a guarded broker starts was preceded by the guard's consent: the request is a
read, or its capability is allowed, or it needs approval and this very call enqueued a row about
itself and then saw that row approved.
-/

namespace Daimon.Proof.Broker
open Daimon.Core Lib Daimon.Broker Proof.Guard
open Daimon.Guard (ApprovalSubject ApprovalTable KillState)

/-! ## The gate -/

def subjectOf (req : ExecRequest) : ApprovalSubject := (preFlightArgs req).subject

def SawApproval (log : List Event) (call : Nat) (req : ExecRequest) : Prop :=
  ∃ row seen, [.guard call (.enqueued row), .guard call (.polled seen)].Sublist log ∧
    seen.id = row.id ∧ row.subject = subjectOf req ∧ seen.subject = subjectOf req ∧
    seen.status = .approved

def decisionOn (g : Guard.Config) (req : ExecRequest) : Guard.Decision :=
  (g.policy.evaluate req.guardCapability).decision

def Gate (g : Guard.Config) (log : List Event) (call : Nat) (req : ExecRequest) : Prop :=
  req.deriveReadOnly = true ∨ decisionOn g req = .allow ∨
    (decisionOn g req = .requireApproval ∧ SawApproval log call req)

/-- The call needs approval, enqueued row `id` about itself, and the row is in the table. -/
def Parked (g : Guard.Config) (s : Guard.State) (log : List Event) (call : Nat) (req : ExecRequest)
    (id : Uuid) : Prop :=
  decisionOn g req = .requireApproval ∧ OwnRow s.approvals id (subjectOf req) ∧
    ∃ row, .guard call (.enqueued row) ∈ log ∧ row.id = id ∧ row.subject = subjectOf req

def PreFlightInv (g : Guard.Config) (s : Guard.State) (log : List Event) (call : Nat)
    (req : ExecRequest) : Guard.Phase → Prop
  | .killCheck => True
  | .policy => True
  | .enqueue => decisionOn g req = .requireApproval
  | .publish id => Parked g s log call req id
  | .startWait id => Parked g s log call req id
  | .poll id _ => Parked g s log call req id
  | .checkDeadline id _ => Parked g s log call req id
  | .expire id => Parked g s log call req id
  | .sleep id _ _ => Parked g s log call req id

def CallInv (g : Guard.Config) (s : Guard.State) (log : List Event) (call : Nat) (req : ExecRequest) :
    Phase → Prop
  | .preFlight phase => PreFlightInv g s log call req phase
  | .inventory => Gate g log call req
  | .vault _ _ => Gate g log call req
  | .dispatch _ _ => Gate g log call req
  | .transport => True
  | .done _ => True
  | .panicked => True

/-! ## Later events keep what held -/

theorem SawApproval.append {log : List Event} {call : Nat} {req : ExecRequest}
    (saw : SawApproval log call req) (events : List Event) : SawApproval (log ++ events) call req := by
  obtain ⟨row, seen, ordered, rest⟩ := saw
  exact ⟨row, seen, ordered.trans (List.sublist_append_left log events), rest⟩

theorem Gate.append {g : Guard.Config} {log : List Event} {call : Nat} {req : ExecRequest}
    (gate : Gate g log call req) (events : List Event) : Gate g (log ++ events) call req := by
  rcases gate with read | allowed | ⟨needed, saw⟩
  · exact Or.inl read
  · exact Or.inr (Or.inl allowed)
  · exact Or.inr (Or.inr ⟨needed, saw.append events⟩)

theorem Parked.later {g : Guard.Config} {s s' : Guard.State} {log : List Event} {call : Nat}
    {req : ExecRequest} {id : Uuid} (parked : Parked g s log call req id)
    (keeps : KeepsRows s.approvals s'.approvals) (events : List Event) :
    Parked g s' (log ++ events) call req id := by
  obtain ⟨needed, own, row, member, rest⟩ := parked
  exact ⟨needed, keeps _ _ own, row, List.mem_append_left _ member, rest⟩

theorem CallInv.later {g : Guard.Config} {s s' : Guard.State} {log : List Event} {call : Nat}
    {req : ExecRequest} {phase : Phase} (inv : CallInv g s log call req phase)
    (keeps : KeepsRows s.approvals s'.approvals) (events : List Event) :
    CallInv g s' (log ++ events) call req phase := by
  cases phase with
  | preFlight p =>
      cases p with
      | killCheck => trivial
      | policy => trivial
      | enqueue => exact inv
      | publish id => exact Parked.later inv keeps events
      | startWait id => exact Parked.later inv keeps events
      | poll id deadline => exact Parked.later inv keeps events
      | checkDeadline id deadline => exact Parked.later inv keeps events
      | expire id => exact Parked.later inv keeps events
      | sleep id deadline wake => exact Parked.later inv keeps events
  | inventory => exact Gate.append inv events
  | vault managed ref => exact Gate.append inv events
  | dispatch managed credential => exact Gate.append inv events
  | transport => trivial
  | done result => trivial
  | panicked => trivial

/-! ## One step of a call -/

theorem poll_approved {g : Guard.Config} {s : Guard.State} {log : List Event} {call : Nat}
    {req : ExecRequest} {id : Uuid} {row : Guard.ApprovalRecord} (parked : Parked g s log call req id)
    (found : s.approvals.get id = some row) (approved : row.status = .approved) :
    Gate g (log ++ [.guard call (.polled row)]) call req := by
  obtain ⟨needed, own, enqueued, member, sameId, subject⟩ := parked
  obtain ⟨rowId, rowSubject⟩ := get_ownRow own found
  refine Or.inr (Or.inr ⟨needed, enqueued, row, ?_, rowId.trans sameId.symm, subject, rowSubject, approved⟩)
  exact (List.singleton_sublist.mpr member).append (List.Sublist.refl [_])

theorem readDecision_ok {a : Guard.PreFlight} {id : Uuid} {row : Guard.ApprovalRecord}
    (accepted : Guard.readDecision a id row = .ok ()) : row.status = .approved := by
  unfold Guard.readDecision at accepted
  cases status : row.status <;> simp [status] at accepted ⊢

theorem advance_inv {g : Guard.Config} {s : Guard.State} {log : List Event} {call : Nat}
    {req : ExecRequest} {phase : Guard.Phase} {answer : Guard.Answer} {r : Guard.StepResult}
    (inv : PreFlightInv g s log call req phase)
    (moved : Guard.advance g s (preFlightArgs req) phase answer = some r) :
    CallInv g r.state (log ++ r.events.map (.guard call)) call req (afterPreFlight r.outcome) := by
  have keeps := advance_keepsRows moved
  cases advance_cases moved with
  | read _ readOnly => exact Or.inl readOnly
  | allow decision => exact Or.inr (Or.inl decision)
  | park decision => exact decision
  | @enqueue id table inserted =>
      refine ⟨inv, ownRow_enqueue inserted, ApprovalTable.newRow id s.now (subjectOf req), ?_, rfl, rfl⟩
      exact List.mem_append_right _ (List.mem_singleton_self _)
  | @decided id deadline row found =>
      cases verdict : Guard.readDecision (preFlightArgs req) id row with
      | ok => exact poll_approved inv found (readDecision_ok verdict)
      | error e => trivial
  | publish | startWait | undecided | due | sleep | wake => exact Parked.later inv keeps _
  | _ => trivial

theorem stepCall_inv {b : Config} {g : Guard.Config} {s : Guard.State} {log : List Event} {i : Nat}
    {req : ExecRequest} {phase : Phase} {answer : Answer} {r : CallStep}
    (attached : b.guard = some g) (inv : CallInv g s log i req phase)
    (moved : stepCall b s i req phase answer = some r) :
    CallInv g r.guard (log ++ r.events) i req r.phase := by
  cases stepCall_move moved with
  | preFlight attached' advanced =>
      obtain rfl := Option.some.inj (attached.symm.trans attached')
      exact advance_inv inv advanced
  | resolve parsed => exact Gate.append inv []
  | unlock => exact Gate.append inv []
  | start registered => trivial
  | finish outside => trivial

/-! ## Whole runs -/

def LogGated (g : Guard.Config) (w : World) : Prop :=
  ∀ before after call target op credential,
    w.log = before ++ .transportStarted call target op credential :: after →
    ∃ c, w.calls[call]? = some c ∧ op = c.req.op ∧ Gate g before call c.req

def Gated (g : Guard.Config) (w : World) : Prop :=
  (∀ i call, w.calls[i]? = some call → CallInv g w.guard w.log i call.req call.phase) ∧ LogGated g w

theorem logGated_of_calls {g : Guard.Config} {w w' : World} (inv : LogGated g w) (log : w'.log = w.log)
    (calls : ∀ (i : Nat) (call : Call), w.calls[i]? = some call →
      ∃ c, w'.calls[i]? = some c ∧ c.req = call.req) :
    LogGated g w' := by
  intro before after call target op credential split
  rw [log] at split
  obtain ⟨c, found, sameOp, gate⟩ := inv before after call target op credential split
  obtain ⟨c', found', sameReq⟩ := calls call c found
  exact ⟨c', found', sameReq ▸ sameOp, sameReq ▸ gate⟩

theorem advance_logGated {b : Config} {g : Guard.Config} {w : World} {i : Nat} {answer : Answer}
    {old : Call} {r : CallStep} (inv : Gated g w) (found : w.calls[i]? = some old)
    (moved : stepCall b w.guard i old.req old.phase answer = some r) :
    LogGated g { guard := r.guard, calls := w.calls.set i { old with phase := r.phase },
                 log := w.log ++ r.events } := by
  intro before after call target op credential split
  rcases append_eq_append_cons split with ⟨rest, old_log⟩ | ⟨middle, rfl, new⟩
  · obtain ⟨c, foundOld, sameOp, gate⟩ := inv.2 before rest call target op credential old_log
    obtain ⟨c', found', sameReq⟩ := set_keeps_requests r.phase found call c foundOld
    exact ⟨c', found', sameReq ▸ sameOp, sameReq ▸ gate⟩
  · have started : .transportStarted call target op credential ∈ r.events := by simp [new]
    obtain ⟨rfl, rfl, managed, atDispatch⟩ := stepCall_started moved started
    have gate := inv.1 call old found
    rw [atDispatch] at gate
    obtain ⟨c, found', sameReq⟩ := set_keeps_requests r.phase found call old found
    exact ⟨c, found', by rw [sameReq], sameReq ▸ Gate.append gate middle⟩

theorem step_gated (b : Config) (g : Guard.Config) (w : World) (action : Action) (w' : World)
    (inv : Gated g w) (moved : step (b.withGuard g) w action = some w') : Gated g w' := by
  rcases step_cases moved with ⟨i, answer, old, r, rfl, found, callMoved, rfl⟩ | ⟨req, rfl, rfl⟩ |
    ⟨-, calls, log, keeps, -⟩
  · refine ⟨?_, advance_logGated inv found callMoved⟩
    intro j call at_j
    rcases set_cases at_j with ⟨rfl, rfl⟩ | ⟨-, old_j⟩
    · exact stepCall_inv rfl (inv.1 j old found) callMoved
    · exact (inv.1 j call old_j).later (stepCall_keepsRows callMoved) _
  · constructor
    · intro j call at_j
      by_cases bound : j < w.calls.length
      · rw [List.getElem?_append_left bound] at at_j
        exact inv.1 j call at_j
      · rw [List.getElem?_append_right (by omega)] at at_j
        rw [List.mem_singleton.mp (List.mem_of_getElem? at_j)]
        trivial
    · exact logGated_of_calls inv.2 rfl (step_keeps_requests moved)
  · constructor
    · intro j call at_j
      rw [calls] at at_j
      have old := (inv.1 j call at_j).later keeps []
      rwa [List.append_nil, ← log] at old
    · exact logGated_of_calls inv.2 log (step_keeps_requests moved)

theorem run_gated (b : Config) (g : Guard.Config) {actions : List Action} {w : World}
    (reached : run (step (b.withGuard g)) .new actions = some w) : Gated g w := by
  refine invariant_of_run (step_gated b g) ⟨?_, ?_⟩ reached
  · intro i call found
    simp [World.new] at found
  · intro before after call target op credential split
    simp [World.new] at split

/-! ## The statement -/

/-- Before going on, `call` enqueued a row with this actor, capability and target, and then read
that very row, about the same, in status approved. -/
def SawApprovedRow (log : List Event) (call : Nat) (actorId capability : String) (target : TargetRef) :
    Prop :=
  ∃ row seen, [.guard call (.enqueued row), .guard call (.polled seen)].Sublist log ∧
    seen.id = row.id ∧ seen.status = .approved ∧
    row.actorId = actorId ∧ row.capability = capability ∧ row.targetRef = some target.display ∧
    seen.actorId = actorId ∧ seen.capability = capability ∧ seen.targetRef = some target.display

theorem SawApproval.row {log : List Event} {call : Nat} {req : ExecRequest}
    (saw : SawApproval log call req) :
    SawApprovedRow log call req.actorId req.guardCapability req.targetRef := by
  obtain ⟨row, seen, ordered, sameId, rowSubject, seenSubject, approved⟩ := saw
  have row_fields := rowSubject
  have seen_fields := seenSubject
  simp only [Guard.ApprovalRecord.subject, subjectOf, preFlightArgs, ApprovalSubject.mk.injEq]
    at row_fields seen_fields
  exact ⟨row, seen, ordered, sameId, approved, row_fields.1, row_fields.2.1, row_fields.2.2.1,
    seen_fields.1, seen_fields.2.1, seen_fields.2.2.1⟩

theorem writes_are_gated (b : Config) (g : Guard.Config) (caps : List Capability)
    (clean : (b.withGuard g).lintWriteCapabilities caps = .ok ())
    (actions : List Action) (w : World) (reached : run (step (b.withGuard g)) .new actions = some w)
    (before after : List Event) (call : Nat) (target : TransportTarget) (op : Op)
    (credential : Credential)
    (started : w.log = before ++ .transportStarted call target op credential :: after)
    (req : ExecRequest) (requested : w.calls[call]?.map Call.req = some req) :
    (∀ actorId ref o cap hint,
      req = { (ExecRequest.new actorId ref o).withCapabilityMeta cap with isReadOnly := hint } →
      cap ∈ caps → cap.isRead = false → SawApprovedRow before call actorId cap.name ref) ∧
    (req.capabilityMeta = none →
      (g.policy.evaluate (req.capability.getD "broker.execute")).decision = .allow ∨
      ((g.policy.evaluate (req.capability.getD "broker.execute")).decision = .requireApproval ∧
        SawApprovedRow before call req.actorId (req.capability.getD "broker.execute") req.targetRef)) := by
  obtain ⟨c, found, -, gate⟩ := (run_gated b g reached).2 before after call target op credential started
  obtain rfl : c.req = req := by simpa [found] using requested
  refine ⟨?_, ?_⟩
  · intro actorId ref o cap hint built member write
    rcases gate with read | allowed | ⟨-, saw⟩
    · rw [built] at read
      simp [ExecRequest.deriveReadOnly, ExecRequest.withCapabilityMeta, write] at read
    · rw [built] at allowed
      exact absurd allowed (lint_write_not_allowed rfl clean member write)
    · have row := saw.row
      rw [built] at row
      exact row
  · intro bare
    rcases gate with read | allowed | ⟨needed, saw⟩
    · simp [ExecRequest.deriveReadOnly, bare] at read
    · exact Or.inl allowed
    · exact Or.inr ⟨needed, saw.row⟩

def bareRequest : ExecRequest := .new "user:alice" ⟨"mikrotik-edge"⟩ sampleOp

def strictGuard : Guard.Config :=
  { policy := .new [⟨"*", .requireApproval, none⟩], instantMax := 0x8000000000000000 }

/-- `req`, parked and then approved, starts its operation last. -/
def RunsLast (guard : Guard.Config) (req : ExecRequest) : Prop :=
  ∃ w, run (step (sampleBroker.withGuard guard)) .new (park req ++ approve ++ [.advance 0 .go]) = some w ∧
    w.log = w.log.dropLast ++ [.transportStarted 0 ⟨"10.100.10.1", 22⟩ sampleOp (.sshPassword "admin" "secret")] ∧
    w.calls[0]?.map Call.req = some req

theorem runsLast_of_any {guard : Guard.Config} {req : ExecRequest}
    (ran : (run (step (sampleBroker.withGuard guard)) .new (park req ++ approve ++ [.advance 0 .go])).any (fun w =>
      w.log.getLast? = some (.transportStarted 0 ⟨"10.100.10.1", 22⟩ sampleOp (.sshPassword "admin" "secret"))) =
        true) : RunsLast guard req := by
  obtain ⟨w, reached, last⟩ := (Option.any_eq_true _ _).mp ran
  exact ⟨w, reached, (List.dropLast_append_getLast? _ (of_decide_eq_true last)).symm, first_request reached⟩

theorem sampleRequest_runs : RunsLast sampleGuard sampleRequest := runsLast_of_any (by decide +kernel)

theorem bareRequest_runs : RunsLast strictGuard bareRequest := runsLast_of_any (by decide +kernel)

theorem sample_writes_are_gated :
    (∃ w before credential,
      run (step (sampleBroker.withGuard sampleGuard)) .new
        (park sampleRequest ++ approve ++ [.advance 0 .go]) = some w ∧
      w.log = before ++ [.transportStarted 0 ⟨"10.100.10.1", 22⟩ sampleOp credential] ∧
      SawApprovedRow before 0 "user:alice" "network.routeros.firewall_add_drop_rule" ⟨"mikrotik-edge"⟩) ∧
    ∃ w before credential,
      run (step (sampleBroker.withGuard strictGuard)) .new
        (park bareRequest ++ approve ++ [.advance 0 .go]) = some w ∧
      w.log = before ++ [.transportStarted 0 ⟨"10.100.10.1", 22⟩ sampleOp credential] ∧
      ((strictGuard.policy.evaluate "broker.execute").decision = .allow ∨
        ((strictGuard.policy.evaluate "broker.execute").decision = .requireApproval ∧
          SawApprovedRow before 0 "user:alice" "broker.execute" ⟨"mikrotik-edge"⟩)) := by
  obtain ⟨w, ran, log, requested⟩ := sampleRequest_runs
  obtain ⟨w', ran', log', requested'⟩ := bareRequest_runs
  exact ⟨⟨w, _, _, ran, log,
    (writes_are_gated sampleBroker sampleGuard [sampleWrite, sampleRemove] (by decide)
      (park sampleRequest ++ approve ++ [.advance 0 .go]) w ran _ [] 0 _ _ _ log sampleRequest requested).1
      "user:alice" ⟨"mikrotik-edge"⟩ sampleOp sampleWrite true rfl (by decide) (by decide)⟩,
   ⟨w', _, _, ran', log',
    (writes_are_gated sampleBroker strictGuard [sampleWrite, sampleRemove] (by decide)
      (park bareRequest ++ approve ++ [.advance 0 .go]) w' ran' _ [] 0 _ _ _ log' bareRequest requested').2 rfl⟩⟩

end Daimon.Proof.Broker
