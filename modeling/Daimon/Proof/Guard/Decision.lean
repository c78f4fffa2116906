import Daimon.Proof.Guard.Approvals
import Daimon.Guard.Inbox
import Daimon.Lib.Lists

/-!
# Decisions are final

Every statement of the inbox leaves a decided row as it is. Over the statements of any number of
callers this makes the inbox a state machine with one decision a row; over pre-flight calls it makes
the answer of a call agree with its row for ever, unless a call ends without its row having been
settled.
-/

namespace Daimon.Proof.Guard
open Daimon.Core Daimon.Guard Lib

/-! ## Reading a row back -/

def DistinctRows (table : ApprovalTable) : Prop := (table.map ApprovalRecord.id).Nodup

theorem get_eq_some_id {table : ApprovalTable} {id : Uuid} {row : ApprovalRecord}
    (found : table.get id = some row) : row ∈ table ∧ row.id = id :=
  ⟨List.mem_of_find?_eq_some found, by simpa using List.find?_some found⟩

theorem get_of_mem {table : ApprovalTable} {row : ApprovalRecord} (distinct : DistinctRows table)
    (member : row ∈ table) : table.get row.id = some row := by
  induction table with
  | nil => cases member
  | cons head tail ih =>
      obtain ⟨fresh, rest⟩ := List.nodup_cons.mp distinct
      rcases List.mem_cons.mp member with rfl | later
      · simp [ApprovalTable.get]
      · have other : head.id ≠ row.id := by
          intro same
          exact fresh (same ▸ List.mem_map_of_mem later)
        have found := ih rest later
        simpa [ApprovalTable.get, other] using found

theorem get_enqueue {table after : ApprovalTable} {id other : Uuid} {now : Nat} {subject : ApprovalSubject}
    {row : ApprovalRecord} (inserted : table.enqueue id now subject = some after)
    (found : table.get other = some row) : after.get other = some row := by
  obtain ⟨-, rfl⟩ := enqueue_eq_some inserted
  simp only [ApprovalTable.get] at found ⊢
  rw [List.find?_append, found]
  rfl

theorem get_enqueue_self {table after : ApprovalTable} {id : Uuid} {now : Nat} {subject : ApprovalSubject}
    (inserted : table.enqueue id now subject = some after) :
    after.get id = some (ApprovalTable.newRow id now subject) := by
  obtain ⟨fresh, rfl⟩ := enqueue_eq_some inserted
  have absent : table.find? (fun row => row.id == id) = none := by
    rw [List.find?_eq_none]
    intro row member same
    exact fresh row member (by simpa using same)
  simp [ApprovalTable.get, List.find?_append, absent, ApprovalTable.newRow]

theorem get_updatePending (table : ApprovalTable) (id other : Uuid)
    (change : ApprovalRecord → ApprovalRecord) (sameId : ∀ row, (change row).id = row.id) :
    (table.updatePending id change).get other =
      (table.get other).map fun row => if row.id = id ∧ row.status = .pending then change row else row := by
  unfold ApprovalTable.updatePending ApprovalTable.get
  rw [List.find?_map]
  congr 2
  funext row
  simp only [Function.comp]
  split
  · rw [sameId]
  · rfl

theorem distinctRows_enqueue {table after : ApprovalTable} {id : Uuid} {now : Nat}
    {subject : ApprovalSubject} (inserted : table.enqueue id now subject = some after)
    (distinct : DistinctRows table) : DistinctRows after := by
  obtain ⟨fresh, rfl⟩ := enqueue_eq_some inserted
  unfold DistinctRows
  rw [List.map_append, List.nodup_append]
  refine ⟨distinct, by simp, ?_⟩
  intro held heldMember new newMember same
  obtain ⟨row, member, rfl⟩ := List.mem_map.mp heldMember
  exact fresh row member (same.trans (List.mem_singleton.mp newMember))

theorem distinctRows_updatePending {table : ApprovalTable} (id : Uuid)
    (change : ApprovalRecord → ApprovalRecord) (sameId : ∀ row, (change row).id = row.id)
    (distinct : DistinctRows table) : DistinctRows (table.updatePending id change) := by
  have ids : (table.updatePending id change).map ApprovalRecord.id = table.map ApprovalRecord.id := by
    unfold ApprovalTable.updatePending
    rw [List.map_map]
    apply List.map_congr_left
    intro row _
    simp only [Function.comp]
    split
    · exact sameId row
    · rfl
  unfold DistinctRows
  rw [ids]
  exact distinct

/-! ## What a statement can do to a row -/

/-- Every row of `before` is in `after`, unchanged if it was decided. -/
def Settles (before after : ApprovalTable) : Prop :=
  ∀ id row, before.get id = some row →
    ∃ row', after.get id = some row' ∧ (row.status ≠ .pending → row' = row)

theorem settles_refl (table : ApprovalTable) : Settles table table :=
  fun _ row found => ⟨row, found, fun _ => rfl⟩

theorem Settles.trans {first second third : ApprovalTable} (left : Settles first second)
    (right : Settles second third) : Settles first third := by
  intro id row found
  obtain ⟨middle, held, same⟩ := left id row found
  obtain ⟨last, kept, sameLast⟩ := right id middle held
  refine ⟨last, kept, ?_⟩
  intro settled
  cases same settled
  exact sameLast settled

theorem settles_enqueue {table after : ApprovalTable} {id : Uuid} {now : Nat} {subject : ApprovalSubject}
    (inserted : table.enqueue id now subject = some after) : Settles table after :=
  fun _ row found => ⟨row, get_enqueue inserted found, fun _ => rfl⟩

theorem settles_updatePending (table : ApprovalTable) (id : Uuid)
    (change : ApprovalRecord → ApprovalRecord) (sameId : ∀ row, (change row).id = row.id) :
    Settles table (table.updatePending id change) := by
  intro other row found
  refine ⟨_, by rw [get_updatePending table id other change sameId, found]; rfl, ?_⟩
  intro settled
  exact if_neg fun both => settled both.2

theorem settles_expire (table : ApprovalTable) (id : Uuid) (now : Nat) :
    Settles table (table.expireIfPending id now) :=
  settles_updatePending table id _ fun _ => rfl

def decidedRow (row : ApprovalRecord) (operator : Uuid) (status : ApprovalStatus) (now : Nat) :
    ApprovalRecord :=
  { row with status := status, decidedAt := some now, decidedBy := some operator }

theorem decide_eq_some {table after : ApprovalTable} {id operator : Uuid} {status : ApprovalStatus}
    {now : Nat} {record : ApprovalRecord} (distinct : DistinctRows table)
    (decided : table.decide id operator status now = some (after, record)) :
    ∃ row, table.get id = some row ∧ row.status = .pending ∧
      record = decidedRow row operator status now ∧
      after = table.updatePending id fun row => decidedRow row operator status now := by
  unfold ApprovalTable.decide at decided
  split at decided
  · rename_i row found
    obtain ⟨rfl, rfl⟩ := Prod.mk.inj (Option.some.inj decided)
    have both := List.find?_some found
    simp only [Bool.and_eq_true, beq_iff_eq] at both
    have held := get_of_mem distinct (List.mem_of_find?_eq_some found)
    rw [both.1] at held
    exact ⟨row, held, both.2, rfl, rfl⟩
  · cases decided

theorem settles_decide {table after : ApprovalTable} {id operator : Uuid} {status : ApprovalStatus}
    {now : Nat} {record : ApprovalRecord} (distinct : DistinctRows table)
    (decided : table.decide id operator status now = some (after, record)) :
    Settles table after ∧ DistinctRows after := by
  obtain ⟨-, -, -, -, rfl⟩ := decide_eq_some distinct decided
  exact ⟨settles_updatePending table id _ fun _ => rfl,
    distinctRows_updatePending id _ (fun _ => rfl) distinct⟩

theorem decide_eq_none {table : ApprovalTable} {id : Uuid} {row : ApprovalRecord}
    (distinct : DistinctRows table) (found : table.get id = some row) (settled : row.status ≠ .pending)
    (operator : Uuid) (status : ApprovalStatus) (now : Nat) :
    table.decide id operator status now = none := by
  cases outcome : table.decide id operator status now with
  | none => rfl
  | some result =>
      obtain ⟨held, again, pending, -⟩ := decide_eq_some distinct outcome
      rw [found] at again
      cases again
      exact absurd pending settled

theorem get_decide {table after : ApprovalTable} {id operator : Uuid} {status : ApprovalStatus}
    {now : Nat} {record : ApprovalRecord} (distinct : DistinctRows table)
    (decided : table.decide id operator status now = some (after, record)) :
    after.get id = some record := by
  obtain ⟨row, found, pending, rfl, rfl⟩ := decide_eq_some distinct decided
  have sameId := (get_eq_some_id found).2
  rw [get_updatePending table id id (fun row => decidedRow row operator status now) fun _ => rfl, found]
  simp [sameId, pending]

theorem get_expire_status {table : ApprovalTable} {id : Uuid} {row : ApprovalRecord} (now : Nat)
    (found : table.get id = some row) :
    ∃ row', (table.expireIfPending id now).get id = some row' ∧ row'.status ≠ .pending ∧
      (row'.status = .approved → row.status = .approved) := by
  have sameId := (get_eq_some_id found).2
  have read := get_updatePending table id id
    (fun row => { row with status := .expired, decidedAt := some now }) fun _ => rfl
  rw [found, Option.map_some] at read
  refine ⟨_, read, ?_⟩
  by_cases pending : row.status = .pending
  · rw [if_pos ⟨sameId, pending⟩]
    simp
  · rw [if_neg fun both => pending both.2]
    exact ⟨pending, fun approved => approved⟩

/-! ## The inbox as a state machine -/

structure Recorded (s : Inbox.State) : Prop where
  distinct : DistinctRows s.table
  updated : ∀ call ∈ s.decides, ∀ record, call.updated = some record →
    record.status = call.status ∧ record.decidedBy = some call.operator ∧ record.status ≠ .pending ∧
      s.table.get call.id = some record
  result : ∀ call ∈ s.decides, ∀ record, call.result = some record → call.updated = some record
  once : ∀ id, s.decides.countP (fun call => call.id = id ∧ call.updated.isSome) ≤ 1
  marked : ∀ id row, s.table.get id = some row → row.decidedBy ≠ none →
    ∃ call ∈ s.decides, call.id = id ∧ call.updated = some row

theorem recorded_new : Recorded Inbox.State.new where
  distinct := List.nodup_nil
  updated := by simp [Inbox.State.new]
  result := by simp [Inbox.State.new]
  once := by simp [Inbox.State.new]
  marked := by simp [Inbox.State.new, ApprovalTable.get]

theorem recorded_settles {s : Inbox.State} {table : ApprovalTable} (recorded : Recorded s)
    (distinct : DistinctRows table) (settles : Settles s.table table)
    (unmarked : ∀ id row, table.get id = some row → row.decidedBy ≠ none →
      s.table.get id = some row) (now : Nat) :
    Recorded { s with now, table } where
  distinct := distinct
  updated := by
    intro call member record updated
    obtain ⟨status, operator, settled, held⟩ := recorded.updated call member record updated
    obtain ⟨row, kept, same⟩ := settles call.id record held
    rw [same settled] at kept
    exact ⟨status, operator, settled, kept⟩
  result := recorded.result
  once := recorded.once
  marked := fun id row found decided => recorded.marked id row (unmarked id row found decided) decided

theorem recorded_pending {s : Inbox.State} (recorded : Recorded s) {id : Uuid} {row : ApprovalRecord}
    (found : s.table.get id = some row) (pending : row.status = .pending) : row.decidedBy = none := by
  by_contra signed
  obtain ⟨call, member, -, updated⟩ := recorded.marked id row found signed
  exact (recorded.updated call member row updated).2.2.1 pending

theorem recorded_enqueue {s : Inbox.State} {table : ApprovalTable} {id : Uuid} {subject : ApprovalSubject}
    (recorded : Recorded s) (inserted : s.table.enqueue id s.now subject = some table) :
    Recorded { s with table } := by
  apply recorded_settles recorded (distinctRows_enqueue inserted recorded.distinct)
    (settles_enqueue inserted)
  intro other row found signed
  obtain ⟨-, rfl⟩ := enqueue_eq_some inserted
  rw [ApprovalTable.get, List.find?_append] at found
  rcases Option.or_eq_some_iff.mp found with old | ⟨-, new⟩
  · exact old
  · have last := List.mem_singleton.mp (List.mem_of_find?_eq_some new)
    rw [last] at signed
    exact absurd rfl signed

theorem recorded_expire {s : Inbox.State} (recorded : Recorded s) (id : Uuid) :
    Recorded { s with table := s.table.expireIfPending id s.now } := by
  have distinct : DistinctRows (s.table.expireIfPending id s.now) :=
    distinctRows_updatePending id _ (fun _ => rfl) recorded.distinct
  apply recorded_settles recorded distinct (settles_expire _ _ _)
  intro other row found signed
  rw [ApprovalTable.expireIfPending, get_updatePending s.table id other
    (fun row => { row with status := .expired, decidedAt := some s.now }) fun _ => rfl] at found
  obtain ⟨held, old, rfl⟩ := Option.map_eq_some_iff.mp found
  split at signed
  · rename_i both
    exact absurd (recorded_pending recorded old both.2) signed
  · rename_i other
    rw [if_neg other]
    exact old

theorem recorded_refused {s : Inbox.State} (recorded : Recorded s) (id operator : Uuid)
    (status : ApprovalStatus) :
    Recorded { s with decides := s.decides ++ [⟨id, operator, status, none, none⟩] } where
  distinct := recorded.distinct
  updated := by
    intro call member record updated
    rcases (mem_snoc).mp member with old | rfl
    · exact recorded.updated call old record updated
    · cases updated
  result := by
    intro call member record result
    rcases (mem_snoc).mp member with old | rfl
    · exact recorded.result call old record result
    · cases result
  once := by
    intro other
    rw [List.countP_append]
    simpa using recorded.once other
  marked := by
    intro other row found signed
    obtain ⟨call, member, facts⟩ := recorded.marked other row found signed
    exact ⟨call, List.mem_append_left _ member, facts⟩

theorem recorded_decided {s : Inbox.State} {table : ApprovalTable} {id operator : Uuid}
    {status : ApprovalStatus} {record : ApprovalRecord} {result : Option ApprovalRecord}
    (recorded : Recorded s) (decision : status ≠ .pending)
    (decided : s.table.decide id operator status s.now = some (table, record))
    (heard : ∀ returned, result = some returned → returned = record) :
    Recorded { s with
      table, decides := s.decides ++ [⟨id, operator, status, some record, result⟩] } := by
  obtain ⟨settles, distinct⟩ := settles_decide recorded.distinct decided
  have read := get_decide recorded.distinct decided
  obtain ⟨row, found, pending, rfl, rfl⟩ := decide_eq_some recorded.distinct decided
  have first : s.decides.countP (fun call => call.id = id ∧ call.updated.isSome) = 0 := by
    rw [List.countP_eq_zero]
    intro call member both
    obtain ⟨rfl, isUpdated⟩ := of_decide_eq_true both
    obtain ⟨held, updated⟩ := Option.isSome_iff_exists.mp isUpdated
    obtain ⟨-, -, settled, again⟩ := recorded.updated call member held updated
    rw [found] at again
    cases again
    exact settled pending
  refine ⟨distinct, ?_, ?_, ?_, ?_⟩
  · intro call member held updated
    rcases (mem_snoc).mp member with old | rfl
    · obtain ⟨sameStatus, signed, settled, before⟩ := recorded.updated call old held updated
      obtain ⟨after, kept, same⟩ := settles call.id held before
      rw [same settled] at kept
      exact ⟨sameStatus, signed, settled, kept⟩
    · cases updated
      exact ⟨rfl, rfl, decision, read⟩
  · intro call member returned known
    rcases (mem_snoc).mp member with old | rfl
    · exact recorded.result call old returned known
    · rw [heard returned known]
  · intro other
    rw [List.countP_append]
    by_cases same : id = other
    · subst same
      rw [first]
      simp
    · have before := recorded.once other
      simpa [same] using before
  · intro other row' after signed
    rw [get_updatePending s.table id other (fun row => decidedRow row operator status s.now)
      fun _ => rfl] at after
    obtain ⟨held, old, rfl⟩ := Option.map_eq_some_iff.mp after
    by_cases both : held.id = id ∧ held.status = .pending
    · have sameId : other = id := (get_eq_some_id old).2.symm.trans both.1
      subst sameId
      rw [found] at old
      cases old
      rw [if_pos both]
      exact ⟨_, List.mem_append_right _ (List.mem_singleton_self _), rfl, rfl⟩
    · rw [if_neg both] at signed ⊢
      obtain ⟨call, member, facts⟩ := recorded.marked other held old signed
      exact ⟨call, List.mem_append_left _ member, facts⟩

theorem isDecision_ne_pending {status : ApprovalStatus} (decision : status.isDecision = true) :
    status ≠ .pending := by
  intro pending
  rw [pending] at decision
  cases decision

theorem recorded_decide {s : Inbox.State} (recorded : Recorded s) (id operator : Uuid)
    {status : ApprovalStatus} (decision : status.isDecision = true) (reply : Inbox.Reply) :
    Recorded (Inbox.decideStatement s id operator status reply) := by
  have settled := isDecision_ne_pending decision
  unfold Inbox.decideStatement
  split
  · rename_i decided
    exact recorded_decided recorded settled decided fun _ same => (Option.some.inj same).symm
  · rename_i decided
    exact recorded_decided recorded settled decided fun _ absent => by cases absent
  · exact recorded_refused recorded id operator status

theorem step_recorded (s : Inbox.State) (action : Inbox.Action) (t : Inbox.State)
    (recorded : Recorded s) (stepped : Inbox.step s action = some t) : Recorded t := by
  cases action with
  | enqueue id subject =>
      obtain ⟨table, inserted, rfl⟩ := Option.map_eq_some_iff.mp stepped
      exact recorded_enqueue recorded inserted
  | decide id operator status reply =>
      simp only [Inbox.step] at stepped
      split at stepped
      · rename_i decision
        cases stepped
        exact recorded_decide recorded id operator decision reply
      · cases stepped
  | expireIfPending id =>
      cases stepped
      exact recorded_expire recorded id
  | elapse millis =>
      cases stepped
      exact recorded_settles recorded recorded.distinct (settles_refl _) (fun _ _ found _ => found) _

def Grows (s t : Inbox.State) : Prop :=
  Settles s.table t.table ∧ ∀ call ∈ s.decides, call ∈ t.decides

theorem step_grows {s t : Inbox.State} {action : Inbox.Action} (recorded : Recorded s)
    (stepped : Inbox.step s action = some t) : Grows s t := by
  cases action with
  | enqueue id subject =>
      obtain ⟨table, inserted, rfl⟩ := Option.map_eq_some_iff.mp stepped
      exact ⟨settles_enqueue inserted, fun _ member => member⟩
  | decide id operator status reply =>
      simp only [Inbox.step] at stepped
      split at stepped
      · cases stepped
        unfold Inbox.decideStatement
        split
        · rename_i decided
          exact ⟨(settles_decide recorded.distinct decided).1, fun _ => List.mem_append_left _⟩
        · rename_i decided
          exact ⟨(settles_decide recorded.distinct decided).1, fun _ => List.mem_append_left _⟩
        · exact ⟨settles_refl _, fun _ => List.mem_append_left _⟩
      · cases stepped
  | expireIfPending id =>
      cases stepped
      exact ⟨settles_expire _ _ _, fun _ member => member⟩
  | elapse millis =>
      cases stepped
      exact ⟨settles_refl _, fun _ member => member⟩

theorem run_grows {s t : Inbox.State} {actions : List Inbox.Action} (recorded : Recorded s)
    (reached : run Inbox.step s actions = some t) : Grows s t := by
  induction actions generalizing s with
  | nil =>
      cases reached
      exact ⟨settles_refl _, fun _ member => member⟩
  | cons action actions ih =>
      obtain ⟨middle, first, rest⟩ := (run_cons).mp reached
      have left := step_grows recorded first
      have right := ih (step_recorded s action middle recorded first) rest
      exact ⟨left.1.trans right.1, fun call member => right.2 call (left.2 call member)⟩

/-- Between any two points `s` and `t` of a run: a row that has left `pending` stays as it is, at most
one `decide` on an id returns `Ok`, its record is the row from then on, and `decided_by` names the
operator of the call that set the status, on exactly the rows that a call set. -/
theorem approval_decided_once (before after : List Inbox.Action) (s t : Inbox.State)
    (reached : run Inbox.step .new before = some s) (continued : run Inbox.step s after = some t) :
    (∀ id row, s.table.get id = some row → ∃ row', t.table.get id = some row' ∧
      (row.status ≠ .pending → row' = row)) ∧
    (∀ id, t.decides.countP (fun call => call.id = id ∧ call.result.isSome) ≤ 1) ∧
    (∀ call ∈ s.decides, ∀ record, call.result = some record →
      record.status = call.status ∧ t.table.get call.id = some record) ∧
    (∀ id row, t.table.get id = some row →
      (row.decidedBy ≠ none ↔ ∃ call ∈ t.decides, call.id = id ∧ call.updated ≠ none) ∧
      ∀ call ∈ t.decides, call.id = id → call.updated ≠ none →
        row.decidedBy = some call.operator ∧ row.status = call.status) := by
  have recordedS := invariant_of_run step_recorded recorded_new reached
  have recordedT := invariant_of_run step_recorded recordedS continued
  have grows := run_grows recordedS continued
  -- What the last clause says of one call, from which both of its directions follow.
  have signed : ∀ id row, t.table.get id = some row → ∀ call ∈ t.decides, call.id = id →
      call.updated ≠ none → row.decidedBy = some call.operator ∧ row.status = call.status := by
    intro id row found call member sameId updated
    obtain ⟨record, updatedTo⟩ := Option.ne_none_iff_exists'.mp updated
    obtain ⟨status, operator, -, held⟩ := recordedT.updated call member record updatedTo
    rw [sameId, found] at held
    cases held
    exact ⟨operator, status⟩
  refine ⟨grows.1, ?_, ?_, ?_⟩
  · intro id
    refine (List.countP_mono_left ?_).trans (recordedT.once id)
    intro call member both
    obtain ⟨sameId, returned⟩ := of_decide_eq_true both
    obtain ⟨record, result⟩ := Option.isSome_iff_exists.mp returned
    have updated := recordedT.result call member record result
    simp [sameId, updated]
  · intro call member record result
    have updated := recordedS.result call member record result
    obtain ⟨status, -, -, held⟩ :=
      recordedT.updated call (grows.2 call member) record updated
    exact ⟨status, held⟩
  · intro id row found
    refine ⟨⟨?_, ?_⟩, signed id row found⟩
    · intro marked
      obtain ⟨call, member, sameId, updated⟩ := recordedT.marked id row found marked
      exact ⟨call, member, sameId, by simp [updated]⟩
    · rintro ⟨call, member, sameId, updated⟩
      rw [(signed id row found call member sameId updated).1]
      exact Option.some_ne_none _

def raceStart : List Inbox.Action :=
  [.enqueue 1 ⟨"agent", "network.firewall.filter_add", none, .null⟩, .decide 1 7 .approved .received]

def raceEnd : List Inbox.Action := [.decide 1 8 .denied .received, .expireIfPending 1]

theorem approval_decided_once_race :
    ∃ s t, run Inbox.step .new raceStart = some s ∧ run Inbox.step s raceEnd = some t ∧
      t.decides.countP (fun call => call.id = 1 ∧ call.result.isSome) ≤ 1 ∧
      ∀ call ∈ s.decides, ∀ record, call.result = some record → t.table.get call.id = some record := by
  refine ⟨_, _, rfl, rfl, ?_, ?_⟩
  · exact (approval_decided_once raceStart raceEnd _ _ rfl rfl).2.1 1
  · intro call member record result
    exact ((approval_decided_once raceStart raceEnd _ _ rfl rfl).2.2.1 call member record result).2

/-! ## Answers of pre-flight calls -/

theorem advance_settles {g : Config} {s : State} {a : PreFlight} {phase : Phase} {answer : Answer}
    {r : StepResult} (distinct : DistinctRows s.approvals) (moved : advance g s a phase answer = some r) :
    Settles s.approvals r.state.approvals ∧ DistinctRows r.state.approvals := by
  cases advance_cases moved with
  | enqueue inserted => exact ⟨settles_enqueue inserted, distinctRows_enqueue inserted distinct⟩
  | expire => exact ⟨settles_expire _ _ _, distinctRows_updatePending _ _ (fun _ => rfl) distinct⟩
  | _ => exact ⟨settles_refl _, distinct⟩

def operatorDenied (args : PreFlight) (id : Uuid) : Error :=
  .policyDenied ("operator denied approval " ++ id.hyphenated ++ " for `" ++ args.subject.capability ++ "`")

/-- The answer of a call and the status of its row: `Ok` needs an approval, the operator's denial a
denial, and any other error a row that is closed and not approved. -/
def Agrees (args : PreFlight) (id : Uuid) (status : ApprovalStatus) : Except Error Unit → Prop
  | .ok () => status = .approved
  | .error error =>
      if error = operatorDenied args id then status = .denied
      else status ≠ .pending ∧ status ≠ .approved

theorem agrees_readDecision (args : PreFlight) (id : Uuid) {row : ApprovalRecord}
    (decision : row.status = .approved ∨ row.status = .denied) :
    Agrees args id row.status (readDecision args id row) := by
  rcases decision with approved | denied
  · simp [readDecision, approved, Agrees]
  · simp [readDecision, denied, Agrees, operatorDenied]

theorem agrees_timeout (args : PreFlight) (id : Uuid) {status : ApprovalStatus}
    (closed : status ≠ .pending) (notApproved : status ≠ .approved) (text : String) :
    Agrees args id status (.error (.approvalTimeout text)) := by
  have other : Error.approvalTimeout text ≠ operatorDenied args id := by
    intro same
    cases same
  rw [Agrees, if_neg other]
  exact ⟨closed, notApproved⟩

theorem agrees_closed {args : PreFlight} {id : Uuid} {status : ApprovalStatus} {result : Except Error Unit}
    (agrees : Agrees args id status result) : status ≠ .pending := by
  intro pending
  subst pending
  cases result with
  | ok value => cases agrees
  | error error =>
      simp only [Agrees] at agrees
      split at agrees
      · cases agrees
      · exact agrees.1 rfl

def phaseRow : Phase → Option Uuid
  | .killCheck => none
  | .policy => none
  | .enqueue => none
  | .publish id => some id
  | .startWait id => some id
  | .poll id _ => some id
  | .checkDeadline id _ => some id
  | .expire id => some id
  | .sleep id _ _ => some id

/-- A step of a call that does not leave its row behind: a poll and the closing UPDATE reach the
database, and the UPDATE comes before any approval. -/
def closesPhase (table : ApprovalTable) : Phase → Answer → Bool
  | .poll _ _, .failed _ => false
  | .expire _, .failed _ => false
  | .expire id, .go => (table.get id).map ApprovalRecord.status != some .approved
  | _, _ => true

def closesRow (w : GuardWorld) : GuardAction → Bool
  | .advance i answer =>
      match w.calls[i]? with
      | some call =>
          match call.progress with
          | .next phase => closesPhase w.state.approvals phase answer
          | _ => true
      | none => true
  | _ => true

structure CallHolds (table : ApprovalTable) (call : GuardCall) : Prop where
  waits : ∀ phase, call.progress = .next phase → phaseRow phase = call.row
  agrees : ∀ id, call.row = some id → ∃ row, table.get id = some row ∧
    ∀ result, call.progress = .returned result → Agrees call.args id row.status result

theorem CallHolds.settles {before after : ApprovalTable} {call : GuardCall}
    (holds : CallHolds before call) (settles : Settles before after) : CallHolds after call where
  waits := holds.waits
  agrees := by
    intro id own
    obtain ⟨row, found, agrees⟩ := holds.agrees id own
    obtain ⟨row', kept, same⟩ := settles id row found
    refine ⟨row', kept, ?_⟩
    intro result returned
    have settled := agrees_closed (agrees result returned)
    rw [same settled]
    exact agrees result returned

theorem callHolds_next {before after : ApprovalTable} {call : GuardCall} {phase next : Phase}
    {events : List Event} {s : State} (holds : CallHolds before call)
    (current : call.progress = .next phase) (settles : Settles before after)
    (sameRow : phaseRow next = phaseRow phase) (none : enqueuedRow events = none) :
    CallHolds after (call.after ⟨s, events, .next next⟩) := by
  have kept : (call.after ⟨s, events, .next next⟩).row = call.row := by
    simp [GuardCall.after, none]
  refine ⟨?_, ?_⟩
  · intro other same
    cases same
    rw [kept, sameRow]
    exact holds.waits phase current
  · intro id own
    rw [kept] at own
    obtain ⟨row, found, -⟩ := holds.agrees id own
    obtain ⟨row', found', -⟩ := settles id row found
    refine ⟨row', found', ?_⟩
    intro result returned
    cases returned

theorem callHolds_returned {table : ApprovalTable} {call : GuardCall} {phase : Phase}
    {events : List Event} {s : State} {result : Except Error Unit}
    (none : enqueuedRow events = none)
    (waits : phaseRow phase = call.row)
    (agrees : ∀ id, phaseRow phase = some id → ∃ row, table.get id = some row ∧
      Agrees call.args id row.status result) :
    CallHolds table (call.after ⟨s, events, .returned result⟩) := by
  refine ⟨?_, ?_⟩
  · intro other same
    cases same
  · intro id own
    have ownRow : phaseRow phase = some id := by
      rw [waits]
      simpa [GuardCall.after, none] using own
    obtain ⟨row, found, holds⟩ := agrees id ownRow
    refine ⟨row, found, ?_⟩
    intro returned same
    cases same
    exact holds

theorem advance_holds {g : Config} {s : State} {call : GuardCall} {phase : Phase} {answer : Answer}
    {r : StepResult} (holds : CallHolds s.approvals call) (current : call.progress = .next phase)
    (closes : closesPhase s.approvals phase answer = true)
    (moved : advance g s call.args phase answer = some r) :
    CallHolds r.state.approvals (call.after r) := by
  have waits := holds.waits phase current
  have next {events : List Event} {after : Phase} (sameRow : phaseRow after = phaseRow phase)
      (none : enqueuedRow events = none) :
      CallHolds s.approvals (call.after ⟨s, events, .next after⟩) :=
    callHolds_next holds current (settles_refl _) sameRow none
  have early {result : Except Error Unit} (noRow : phaseRow phase = none) :
      CallHolds s.approvals (call.after ⟨s, [], .returned result⟩) := by
    apply callHolds_returned rfl waits
    intro id own
    rw [noRow] at own
    cases own
  cases advance_cases moved with
  | engaged | read | allow | deny | duplicate | enqueueFailed => exact early rfl
  | write | park | startWait | due | sleep | wake => exact next rfl rfl
  | enqueue inserted =>
    refine ⟨?_, ?_⟩
    · intro other same
      cases same
      rfl
    · intro own same
      cases same
      refine ⟨_, get_enqueue_self inserted, ?_⟩
      intro result returned
      cases returned
  | publish sent =>
    refine next rfl ?_
    rcases sent with rfl | ⟨-, rfl⟩
    · rfl
    · rfl
  | overflow =>
    refine ⟨?_, ?_⟩
    · intro other same
      cases same
    · intro own same
      obtain ⟨row, found, -⟩ := holds.agrees own (by simpa [GuardCall.after, enqueuedRow] using same)
      refine ⟨row, found, ?_⟩
      intro result returned
      cases returned
  | @decided id _ row found decision =>
    apply callHolds_returned rfl waits
    intro own same
    cases same
    exact ⟨row, found, agrees_readDecision call.args id decision⟩
  | undecided seen =>
    refine next rfl ?_
    rcases seen with ⟨-, rfl⟩ | ⟨row, -, -, rfl⟩
    · rfl
    · rfl
  | pollFailed => cases closes
  | @expire id =>
    apply callHolds_returned rfl waits
    intro own same
    cases same
    obtain ⟨row, found, -⟩ := holds.agrees id waits.symm
    obtain ⟨row', expired, closed, approved⟩ := get_expire_status s.now found
    refine ⟨row', expired, agrees_timeout call.args id closed ?_ _⟩
    intro late
    rw [closesPhase, found, Option.map_some, approved late] at closes
    cases closes
  | expireFailed => cases closes

/-! ## Runs of pre-flight calls -/

theorem step_advance {g : Config} {w w' : GuardWorld} {i : Nat} {answer : Answer}
    (stepped : w.step g (.advance i answer) = some w') :
    ∃ call phase r, w.calls[i]? = some call ∧ call.progress = .next phase ∧
      advance g w.state call.args phase answer = some r ∧
      w' = { state := r.state, calls := w.calls.set i (call.after r) } := by
  simp only [GuardWorld.step] at stepped
  split at stepped
  · rename_i call found
    split at stepped
    · rename_i phase current
      obtain ⟨r, moved, rfl⟩ := Option.map_eq_some_iff.mp stepped
      exact ⟨call, phase, r, found, current, moved, rfl⟩
    · cases stepped
  · cases stepped

/-- The calls after an action outside of them. -/
def OutsideCalls (w w' : GuardWorld) : Prop :=
  w'.calls = w.calls ∨ ∃ args, w'.calls = w.calls ++ [⟨args, none, .next .killCheck⟩]

/-- The table after an action outside the calls. -/
def OutsideTable (w w' : GuardWorld) : Prop :=
  w'.state.approvals = w.state.approvals ∨ ∃ id operator status record, status.isDecision = true ∧
    w.state.approvals.decide id operator status w.state.now = some (w'.state.approvals, record)

theorem step_outside {g : Config} {w w' : GuardWorld} {action : GuardAction}
    (outside : ∀ i answer, action ≠ .advance i answer) (stepped : w.step g action = some w') :
    OutsideCalls w w' ∧ w.state.now ≤ w'.state.now ∧ OutsideTable w w' := by
  cases action with
  | advance i answer => exact absurd rfl (outside i answer)
  | submit args =>
      cases stepped
      exact ⟨Or.inr ⟨args, rfl⟩, Nat.le_refl _, Or.inl rfl⟩
  | decide id operator status =>
      simp only [GuardWorld.step] at stepped
      split at stepped
      · rename_i decision
        split at stepped
        · rename_i table record decided
          cases stepped
          exact ⟨Or.inl rfl, Nat.le_refl _, Or.inr ⟨id, operator, status, record, decision, decided⟩⟩
        · cases stepped
          exact ⟨Or.inl rfl, Nat.le_refl _, Or.inl rfl⟩
      · cases stepped
  | engage | release | setBus =>
      cases stepped
      exact ⟨Or.inl rfl, Nat.le_refl _, Or.inl rfl⟩
  | setApprovalTimeoutSecs secs =>
      cases stepped
      refine ⟨Or.inl rfl, ?_⟩
      unfold State.setApprovalTimeoutSecs
      split <;> exact ⟨Nat.le_refl _, Or.inl rfl⟩
  | elapse millis =>
      cases stepped
      exact ⟨Or.inl rfl, Nat.le_add_right _ _, Or.inl rfl⟩

/-- A step is one step of one call, or none of any call. -/
theorem step_cases {g : Config} {w w' : GuardWorld} {action : GuardAction} (stepped : w.step g action = some w') :
    (∃ i answer call phase r, action = .advance i answer ∧ w.calls[i]? = some call ∧ call.progress = .next phase ∧
      advance g w.state call.args phase answer = some r ∧
      w' = { state := r.state, calls := w.calls.set i (call.after r) }) ∨
    ((∀ i answer, action ≠ .advance i answer) ∧ OutsideCalls w w' ∧ w.state.now ≤ w'.state.now ∧
      OutsideTable w w') := by
  by_cases inside : ∃ i answer, action = .advance i answer
  · obtain ⟨i, answer, rfl⟩ := inside
    obtain ⟨call, phase, r, facts⟩ := step_advance stepped
    exact Or.inl ⟨i, answer, call, phase, r, rfl, facts⟩
  · have outside : ∀ i answer, action ≠ .advance i answer := fun i answer same => inside ⟨i, answer, same⟩
    exact Or.inr ⟨outside, step_outside outside stepped⟩

theorem OutsideTable.settles {w w' : GuardWorld} (table : OutsideTable w w')
    (distinct : DistinctRows w.state.approvals) :
    Settles w.state.approvals w'.state.approvals ∧ DistinctRows w'.state.approvals := by
  rcases table with same | ⟨id, operator, status, record, -, decided⟩
  · rw [same]
    exact ⟨settles_refl _, distinct⟩
  · exact settles_decide distinct decided

structure AllAgree (w : GuardWorld) : Prop where
  distinct : DistinctRows w.state.approvals
  calls : ∀ call ∈ w.calls, CallHolds w.state.approvals call

theorem step_allAgree (g : Config) (w : GuardWorld) (action : GuardAction) (w' : GuardWorld)
    (closes : closesRow w action = true) (agree : AllAgree w) (stepped : w.step g action = some w') :
    AllAgree w' := by
  rcases step_cases stepped with ⟨i, answer, call, phase, r, rfl, found, current, moved, rfl⟩ | ⟨-, calls, -, table⟩
  · simp only [closesRow, found, current] at closes
    have member := List.mem_of_getElem? found
    obtain ⟨settles, distinct⟩ := advance_settles agree.distinct moved
    refine ⟨distinct, ?_⟩
    intro other otherMember
    rcases List.mem_or_eq_of_mem_set otherMember with old | rfl
    · exact (agree.calls other old).settles settles
    · exact advance_holds (agree.calls call member) current closes moved
  · obtain ⟨settles, distinct⟩ := table.settles agree.distinct
    refine ⟨distinct, ?_⟩
    intro call member
    rcases calls with same | ⟨args, more⟩
    · exact (agree.calls call (same ▸ member)).settles settles
    · rw [more] at member
      rcases (mem_snoc).mp member with old | rfl
      · exact (agree.calls call old).settles settles
      · refine ⟨?_, fun id own => by cases own⟩
        intro phase current
        cases current
        rfl

theorem allAgree_new : AllAgree GuardWorld.new where
  distinct := List.nodup_nil
  calls := by simp [GuardWorld.new]

def gatedGuard : Config where
  policy := .new [⟨"*", .requireApproval, none⟩]
  instantMax := 0xffffffffffff

def waitedOut : List GuardAction :=
  [.submit ⟨⟨"agent", "network.firewall.filter_add", none, .null⟩, false⟩, .advance 0 .go, .advance 0 .go,
    .advance 0 (.inserted 1), .advance 0 .go, .advance 0 .go, .advance 0 .go, .elapse 300000,
    .advance 0 .go]

def Disagrees (w : GuardWorld) (id : Uuid) (status : ApprovalStatus) : Prop :=
  ∃ call ∈ w.calls, ∃ result row, call.row = some id ∧ call.progress = .returned result ∧
    w.state.approvals.get id = some row ∧ row.status = status ∧ ¬ Agrees call.args id row.status result

end Daimon.Proof.Guard
