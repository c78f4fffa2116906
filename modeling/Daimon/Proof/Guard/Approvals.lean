import Daimon.Guard.PreFlight

/-!
# Rows of the approval inbox

A row keeps the id and the subject it was enqueued with; no statement of the inbox changes them or
removes the row.
-/

namespace Daimon.Proof.Guard
open Daimon.Core Daimon.Guard

/-- The table holds a row `id`, and every row with that id is about `subject`. -/
def OwnRow (table : ApprovalTable) (id : Uuid) (subject : ApprovalSubject) : Prop :=
  (∃ row ∈ table, row.id = id) ∧ ∀ row ∈ table, row.id = id → row.subject = subject

def KeepsRows (before after : ApprovalTable) : Prop :=
  ∀ id subject, OwnRow before id subject → OwnRow after id subject

theorem keepsRows_refl (table : ApprovalTable) : KeepsRows table table := fun _ _ own => own

theorem enqueue_eq_some {table after : ApprovalTable} {id : Uuid} {now : Nat} {subject : ApprovalSubject}
    (inserted : table.enqueue id now subject = some after) :
    (∀ row ∈ table, row.id ≠ id) ∧ after = table ++ [ApprovalTable.newRow id now subject] := by
  unfold ApprovalTable.enqueue at inserted
  split at inserted
  · cases inserted
  · rename_i absent
    refine ⟨?_, (Option.some.inj inserted).symm⟩
    intro row member same
    exact absent (List.any_eq_true.mpr ⟨row, member, by simpa using same⟩)

theorem ownRow_enqueue {table after : ApprovalTable} {id : Uuid} {now : Nat} {subject : ApprovalSubject}
    (inserted : table.enqueue id now subject = some after) : OwnRow after id subject := by
  obtain ⟨fresh, rfl⟩ := enqueue_eq_some inserted
  refine ⟨⟨_, List.mem_append_right _ (List.mem_singleton_self _), rfl⟩, ?_⟩
  intro row member same
  rcases List.mem_append.mp member with old | new
  · exact absurd same (fresh row old)
  · rw [List.mem_singleton.mp new]
    rfl

theorem keepsRows_enqueue {table after : ApprovalTable} {id : Uuid} {now : Nat}
    {subject : ApprovalSubject} (inserted : table.enqueue id now subject = some after) :
    KeepsRows table after := by
  obtain ⟨fresh, rfl⟩ := enqueue_eq_some inserted
  rintro other about ⟨⟨row, member, same⟩, all⟩
  refine ⟨⟨row, List.mem_append_left _ member, same⟩, ?_⟩
  intro found foundMember foundSame
  rcases List.mem_append.mp foundMember with old | new
  · exact all found old foundSame
  · rw [List.mem_singleton.mp new] at foundSame
    exact absurd (same.trans foundSame.symm) (fresh row member)

theorem keepsRows_updatePending (table : ApprovalTable) (id : Uuid)
    (change : ApprovalRecord → ApprovalRecord) (sameId : ∀ row, (change row).id = row.id)
    (sameSubject : ∀ row, (change row).subject = row.subject) :
    KeepsRows table (table.updatePending id change) := by
  have each (row : ApprovalRecord) :
      (if row.id = id ∧ row.status = .pending then change row else row).id = row.id ∧
      (if row.id = id ∧ row.status = .pending then change row else row).subject = row.subject := by
    split
    · exact ⟨sameId row, sameSubject row⟩
    · exact ⟨rfl, rfl⟩
  rintro other about ⟨⟨row, member, same⟩, all⟩
  refine ⟨⟨_, List.mem_map_of_mem member, (each row).1.trans same⟩, ?_⟩
  intro found foundMember foundSame
  obtain ⟨original, originalMember, rfl⟩ := List.mem_map.mp foundMember
  rw [(each original).1] at foundSame
  rw [(each original).2]
  exact all original originalMember foundSame

theorem keepsRows_expire (table : ApprovalTable) (id : Uuid) (now : Nat) :
    KeepsRows table (table.expireIfPending id now) :=
  keepsRows_updatePending table id _ (fun _ => rfl) (fun _ => rfl)

theorem keepsRows_decide {table after : ApprovalTable} {id operator : Uuid} {status : ApprovalStatus}
    {now : Nat} {row : ApprovalRecord}
    (decided : table.decide id operator status now = some (after, row)) : KeepsRows table after := by
  unfold ApprovalTable.decide at decided
  split at decided
  · obtain ⟨rfl, -⟩ := Prod.mk.inj (Option.some.inj decided)
    exact keepsRows_updatePending table id _ (fun _ => rfl) (fun _ => rfl)
  · cases decided

theorem get_ownRow {table : ApprovalTable} {id : Uuid} {subject : ApprovalSubject} {row : ApprovalRecord}
    (own : OwnRow table id subject) (found : table.get id = some row) :
    row.id = id ∧ row.subject = subject := by
  have same : row.id = id := by simpa using List.find?_some found
  exact ⟨same, own.2 row (List.mem_of_find?_eq_some found) same⟩

/-! ## One step of a pre-flight -/

inductive Advanced (g : Config) (s : State) (a : PreFlight) : Phase → Answer → StepResult → Prop
  | engaged (engaged : s.kill.engaged = true) :
      Advanced g s a .killCheck .go ⟨s, [], .returned (.error (.killEngaged s.kill.reason))⟩
  | read (disengaged : s.kill.engaged = false) (readOnly : a.isReadOnly = true) :
      Advanced g s a .killCheck .go ⟨s, [], .returned (.ok ())⟩
  | write (disengaged : s.kill.engaged = false) (write : a.isReadOnly = false) :
      Advanced g s a .killCheck .go ⟨s, [], .next .policy⟩
  | allow (decision : (g.policy.evaluate a.subject.capability).decision = .allow) :
      Advanced g s a .policy .go ⟨s, [], .returned (.ok ())⟩
  | deny (decision : (g.policy.evaluate a.subject.capability).decision = .deny) :
      Advanced g s a .policy .go ⟨s, [], .returned (.error (.policyDenied
        ("policy denies capability `" ++ a.subject.capability ++ "`")))⟩
  | park (decision : (g.policy.evaluate a.subject.capability).decision = .requireApproval) :
      Advanced g s a .policy .go ⟨s, [], .next .enqueue⟩
  | enqueue {id : Uuid} {table : ApprovalTable} (inserted : s.approvals.enqueue id s.now a.subject = some table) :
      Advanced g s a .enqueue (.inserted id) ⟨{ s with approvals := table },
        [.enqueued (ApprovalTable.newRow id s.now a.subject)], .next (.publish id)⟩
  | duplicate {id : Uuid} (taken : s.approvals.enqueue id s.now a.subject = none) :
      Advanced g s a .enqueue (.inserted id)
        ⟨s, [], .returned (.error (.pg "duplicate key value violates unique constraint"))⟩
  | enqueueFailed {message : String} :
      Advanced g s a .enqueue (.failed message) ⟨s, [], .returned (.error (.pg message))⟩
  | publish {id : Uuid} {answer : Answer} {events : List Event}
      (sent : events = [] ∨ s.bus = true ∧ events = [.published id a.subject]) :
      Advanced g s a (.publish id) answer ⟨s, events, .next (.startWait id)⟩
  | startWait {id : Uuid} (representable : s.now + 1000 * s.approvalTimeoutSecs ≤ g.instantMax) :
      Advanced g s a (.startWait id) .go ⟨s, [], .next (.poll id (s.now + 1000 * s.approvalTimeoutSecs))⟩
  | overflow {id : Uuid} (past : g.instantMax < s.now + 1000 * s.approvalTimeoutSecs) :
      Advanced g s a (.startWait id) .go ⟨s, [], .panicked⟩
  | decided {id : Uuid} {deadline : Nat} {row : ApprovalRecord} (found : s.approvals.get id = some row)
      (decision : row.status = .approved ∨ row.status = .denied) :
      Advanced g s a (.poll id deadline) .go ⟨s, [.polled row], .returned (readDecision a id row)⟩
  | undecided {id : Uuid} {deadline : Nat} {events : List Event}
      (seen : s.approvals.get id = none ∧ events = [] ∨ ∃ row, s.approvals.get id = some row ∧
        ¬(row.status = .approved ∨ row.status = .denied) ∧ events = [.polled row]) :
      Advanced g s a (.poll id deadline) .go ⟨s, events, .next (.checkDeadline id deadline)⟩
  | pollFailed {id : Uuid} {deadline : Nat} {message : String} :
      Advanced g s a (.poll id deadline) (.failed message) ⟨s, [], .returned (.error (.pg message))⟩
  | due {id : Uuid} {deadline : Nat} (late : deadline ≤ s.now) :
      Advanced g s a (.checkDeadline id deadline) .go ⟨s, [], .next (.expire id)⟩
  | sleep {id : Uuid} {deadline : Nat} (early : s.now < deadline) :
      Advanced g s a (.checkDeadline id deadline) .go ⟨s, [], .next (.sleep id deadline (s.now + pollInterval))⟩
  | expire {id : Uuid} :
      Advanced g s a (.expire id) .go ⟨{ s with approvals := s.approvals.expireIfPending id s.now }, [],
        .returned (.error (.approvalTimeout id.hyphenated))⟩
  | expireFailed {id : Uuid} {message : String} :
      Advanced g s a (.expire id) (.failed message) ⟨s, [], .returned (.error (.approvalTimeout id.hyphenated))⟩
  | wake {id : Uuid} {deadline wake : Nat} (slept : wake ≤ s.now) :
      Advanced g s a (.sleep id deadline wake) .go ⟨s, [], .next (.poll id deadline)⟩

theorem advance_cases {g : Config} {s : State} {a : PreFlight} {phase : Phase} {answer : Answer}
    {r : StepResult} (moved : advance g s a phase answer = some r) : Advanced g s a phase answer r := by
  cases phase <;> cases answer <;> simp only [advance] at moved
  case killCheck.go =>
    split at moved
    · cases moved
      exact .engaged ‹_›
    · rename_i disengaged
      split at moved
      · cases moved
        exact .read (Bool.eq_false_iff.mpr disengaged) ‹_›
      · cases moved
        exact .write (Bool.eq_false_iff.mpr disengaged) (Bool.eq_false_iff.mpr ‹_›)
  case policy.go =>
    split at moved
    · cases moved
      exact .allow ‹_›
    · cases moved
      exact .deny ‹_›
    · cases moved
      exact .park ‹_›
  case enqueue.inserted id =>
    split at moved
    · cases moved
      exact .enqueue ‹_›
    · cases moved
      exact .duplicate ‹_›
  case enqueue.failed message =>
    cases moved
    exact .enqueueFailed
  case publish.go id =>
    cases moved
    apply Advanced.publish
    split
    · exact Or.inr ⟨‹_›, rfl⟩
    · exact Or.inl rfl
  case publish.failed id message =>
    cases moved
    exact .publish (Or.inl rfl)
  case startWait.go id =>
    split at moved
    · cases moved
      exact .startWait ‹_›
    · cases moved
      exact .overflow (Nat.lt_of_not_le ‹_›)
  case poll.go id deadline =>
    split at moved
    · rename_i row found
      split at moved
      · cases moved
        exact .decided found ‹_›
      · cases moved
        exact .undecided (Or.inr ⟨row, found, ‹_›, rfl⟩)
    · cases moved
      exact .undecided (Or.inl ⟨‹_›, rfl⟩)
  case poll.failed id deadline message =>
    cases moved
    exact .pollFailed
  case checkDeadline.go id deadline =>
    cases moved
    split
    · exact .due ‹_›
    · exact .sleep (Nat.lt_of_not_le ‹_›)
  case expire.go id =>
    cases moved
    exact .expire
  case expire.failed id message =>
    cases moved
    exact .expireFailed
  case sleep.go id deadline wake =>
    split at moved
    · cases moved
      exact .wake ‹_›
    · cases moved
  all_goals cases moved

theorem advance_kill {g : Config} {s : State} {a : PreFlight} {phase : Phase} {answer : Answer}
    {r : StepResult} (moved : advance g s a phase answer = some r) : r.state.kill = s.kill := by
  cases advance_cases moved <;> rfl

theorem advance_keepsRows {g : Config} {s : State} {a : PreFlight} {phase : Phase} {answer : Answer}
    {r : StepResult} (moved : advance g s a phase answer = some r) :
    KeepsRows s.approvals r.state.approvals := by
  cases advance_cases moved with
  | enqueue inserted => exact keepsRows_enqueue inserted
  | expire => exact keepsRows_expire _ _ _
  | _ => exact keepsRows_refl _

end Daimon.Proof.Guard
