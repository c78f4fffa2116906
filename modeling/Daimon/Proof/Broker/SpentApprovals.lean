import Mathlib.Data.List.Dedup
import Mathlib.Data.List.Perm.Subperm
import Daimon.Proof.Broker.WriteGate

/-!
# Approvals are spent once

A transport that needs an operator's consent costs one approval: each call starts at most one transport, and no two
started calls read the same approved row.
-/

namespace Daimon.Proof.Broker
open Daimon.Core Lib Daimon.Broker Proof.Guard
open Daimon.Guard (ApprovalTable ApprovalRecord)

/-! ## What a run has started and what operators approved -/

def startOf : Event → Option Nat
  | .transportStarted call _ _ _ => some call
  | .guard _ _ => none

/-- The calls whose transport was started, in order. -/
def starts (log : List Event) : List Nat := log.filterMap startOf

def approvalOf : Action → Option Uuid
  | .decide id _ .approved => some id
  | _ => none

def approvedIds (actions : List Action) : List Uuid := actions.filterMap approvalOf

/-- The call is no read, and the policy does not allow its capability outright. -/
def needsApproval (g : Guard.Config) (w : World) (i : Nat) : Bool :=
  match w.calls[i]? with
  | some call => !call.req.deriveReadOnly && decisionOn g call.req != .allow
  | none => false

/-- An operator's `decide` among `actions` approved this row. -/
def ApprovedBy (actions : List Action) (row : ApprovalRecord) : Prop :=
  ∃ operator, row.decidedBy = some operator ∧ .decide row.id operator .approved ∈ actions

/-! ## The approval table -/

def Decided (past : List Action) (table : ApprovalTable) : Prop :=
  ∀ row ∈ table, row.status = .approved → ApprovedBy past row

/-- Rows that are not pending stay as they are, and no id leaves the table. -/
structure Settles (before after : ApprovalTable) : Prop where
  approved : ∀ row ∈ before, row.status = .approved → row ∈ after
  ids : ∀ row ∈ before, ∃ row' ∈ after, row'.id = row.id

theorem settles_refl (table : ApprovalTable) : Settles table table :=
  ⟨fun _ member _ => member, fun row member => ⟨row, member, rfl⟩⟩

theorem settles_append (table : ApprovalTable) (row : ApprovalRecord) : Settles table (table ++ [row]) :=
  ⟨fun _ member _ => List.mem_append_left _ member, fun row member => ⟨row, List.mem_append_left _ member, rfl⟩⟩

theorem mem_updatePending {table : ApprovalTable} {id : Uuid} {change : ApprovalRecord → ApprovalRecord}
    {row : ApprovalRecord} (member : row ∈ table.updatePending id change) :
    row ∈ table ∨ ∃ old ∈ table, old.id = id ∧ old.status = .pending ∧ row = change old := by
  obtain ⟨old, oldMember, rfl⟩ := List.mem_map.mp member
  split
  · rename_i pending
    exact Or.inr ⟨old, oldMember, pending.1, pending.2, rfl⟩
  · exact Or.inl oldMember

theorem settles_updatePending (table : ApprovalTable) (id : Uuid) (change : ApprovalRecord → ApprovalRecord)
    (sameId : ∀ row, (change row).id = row.id) : Settles table (table.updatePending id change) := by
  constructor
  · intro row member approved
    refine List.mem_map.mpr ⟨row, member, if_neg ?_⟩
    rintro ⟨-, pending⟩
    rw [approved] at pending
    cases pending
  · intro row member
    refine ⟨_, List.mem_map_of_mem member, ?_⟩
    split
    · exact sameId row
    · rfl

theorem Decided.later {past : List Action} {table : ApprovalTable} (decided : Decided past table) (action : Action) :
    Decided (past ++ [action]) table := by
  intro row member approved
  obtain ⟨operator, by_operator, acted⟩ := decided row member approved
  exact ⟨operator, by_operator, List.mem_append_left _ acted⟩

theorem decided_decide {past : List Action} {table after : ApprovalTable} {id operator : Uuid}
    {status : Guard.ApprovalStatus} {now : Nat} {row : ApprovalRecord} (decided : Decided past table)
    (decides : table.decide id operator status now = some (after, row)) :
    Decided (past ++ [.decide id operator status]) after ∧ Settles table after := by
  unfold ApprovalTable.decide at decides
  split at decides
  · obtain ⟨rfl, -⟩ := Prod.mk.inj (Option.some.inj decides)
    refine ⟨?_, settles_updatePending table id _ (fun _ => rfl)⟩
    intro row member approved
    rcases mem_updatePending member with old | ⟨old, -, rfl, -, rfl⟩
    · exact decided.later _ row old approved
    · obtain rfl : status = .approved := approved
      exact ⟨operator, rfl, List.mem_append_right _ (List.mem_singleton_self _)⟩
  · cases decides

theorem decided_expire {past : List Action} {table : ApprovalTable} (decided : Decided past table) (id : Uuid)
    (now : Nat) : Decided past (table.expireIfPending id now) := by
  intro row member approved
  rcases mem_updatePending member with old | ⟨old, -, -, -, rfl⟩
  · exact decided row old approved
  · cases approved

/-! ## One step of a call -/

/-- What the guard's part of a step adds to the table and to the log. -/
inductive Rows (s : Guard.State) (i : Nat) : CallStep → Prop where
  | quiet {r : CallStep} (same : r.guard.approvals = s.approvals)
      (silent : ∀ j row, .guard j (.enqueued row) ∈ r.events → False)
      (seen : ∀ j row, .guard j (.polled row) ∈ r.events → row ∈ s.approvals) : Rows s i r
  | enqueued {r : CallStep} {row : ApprovalRecord} (pending : row.status = .pending)
      (fresh : ∀ old ∈ s.approvals, old.id ≠ row.id) (table : r.guard.approvals = s.approvals ++ [row])
      (events : r.events = [.guard i (.enqueued row)]) : Rows s i r
  | expired {r : CallStep} {id : Uuid} (table : r.guard.approvals = s.approvals.expireIfPending id s.now)
      (events : r.events = []) : Rows s i r

variable {b : Config} {g : Guard.Config} {s : Guard.State} {i : Nat} {req : ExecRequest} {phase : Phase}
  {answer : Answer} {r : CallStep}

theorem get_mem {table : ApprovalTable} {id : Uuid} {row : ApprovalRecord} (found : table.get id = some row) :
    row ∈ table := List.mem_of_find?_eq_some found

theorem stepCall_rows (moved : stepCall b s i req phase answer = some r) : Rows s i r := by
  cases stepCall_move moved with
  | preFlight attached advanced =>
      cases advance_cases advanced with
      | enqueue inserted =>
          obtain ⟨fresh, rfl⟩ := enqueue_eq_some inserted
          exact .enqueued rfl fresh rfl rfl
      | expire => exact .expired rfl rfl
      | publish sent =>
          rcases sent with rfl | ⟨-, rfl⟩
          · exact .quiet rfl (by simp) (by simp)
          · exact .quiet rfl (by simp) (by simp)
      | decided found =>
          refine .quiet rfl (by simp) ?_
          intro j row member
          simp only [List.map_cons, List.map_nil, List.mem_singleton, Event.guard.injEq, Guard.Event.polled.injEq]
            at member
          exact member.2 ▸ get_mem found
      | undecided seen =>
          rcases seen with ⟨-, rfl⟩ | ⟨row, found, -, rfl⟩
          · exact .quiet rfl (by simp) (by simp)
          · refine .quiet rfl (by simp) ?_
            intro j row' member
            simp only [List.map_cons, List.map_nil, List.mem_singleton, Event.guard.injEq, Guard.Event.polled.injEq]
              at member
            exact member.2 ▸ get_mem found
      | _ => exact .quiet rfl (by simp) (by simp)
  | start registered => exact .quiet rfl (by simp) (by simp)
  | _ => exact .quiet rfl (by simp) (by simp)

def behindDispatch : Phase → Bool
  | .transport => true
  | .done _ => true
  | _ => false

theorem stepCall_starts (moved : stepCall b s i req phase answer = some r) :
    starts r.events = [] ∧ (behindDispatch phase = true → behindDispatch r.phase = true) ∨
    starts r.events = [i] ∧ behindDispatch phase = false ∧ behindDispatch r.phase = true := by
  cases stepCall_move moved with
  | preFlight attached advanced =>
      apply Or.inl
      refine ⟨?_, fun behind => absurd behind (by simp [behindDispatch])⟩
      simp [starts, List.filterMap_map, Function.comp_def, startOf]
  | start registered => exact Or.inr ⟨rfl, rfl, rfl⟩
  | finish outside => exact Or.inl ⟨rfl, fun _ => rfl⟩
  | _ => exact Or.inl ⟨rfl, fun behind => absurd behind (by simp [behindDispatch])⟩

/-! ## Whole runs -/

theorem step_table {past : List Action} {w w' : World} {action : Action} (moved : step b w action = some w')
    (decided : Decided past w.guard.approvals) :
    Decided (past ++ [action]) w'.guard.approvals ∧ Settles w.guard.approvals w'.guard.approvals := by
  have unchanged : w'.guard.approvals = w.guard.approvals →
      Decided (past ++ [action]) w'.guard.approvals ∧ Settles w.guard.approvals w'.guard.approvals := by
    intro same
    rw [same]
    exact ⟨decided.later action, settles_refl _⟩
  cases action with
  | advance i answer =>
      simp only [step] at moved
      split at moved
      · obtain ⟨r, callMoved, rfl⟩ := Option.map_eq_some_iff.mp moved
        cases stepCall_rows callMoved with
        | quiet same => exact unchanged same
        | @enqueued row pending fresh table =>
            simp only [table]
            refine ⟨?_, settles_append _ row⟩
            intro other member approved
            rcases (mem_snoc).mp member with old | rfl
            · exact decided.later _ other old approved
            · rw [pending] at approved
              cases approved
        | expired table =>
            simp only [table]
            exact ⟨(decided_expire decided _ _).later _, settles_updatePending _ _ _ (fun _ => rfl)⟩
      · cases moved
  | decide id operator status =>
      simp only [step] at moved
      split at moved
      · rename_i decides
        cases moved
        exact decided_decide decided decides
      · cases moved
        exact unchanged rfl
  | setApprovalTimeoutSecs secs =>
      cases moved
      apply unchanged
      unfold Guard.State.setApprovalTimeoutSecs
      split <;> rfl
  | _ =>
      cases moved
      exact unchanged rfl

/-- What the log of a run says about the approval table and about the calls. -/
structure Ledger (past : List Action) (w : World) : Prop where
  decided : Decided past w.guard.approvals
  stored : ∀ i row, .guard i (.enqueued row) ∈ w.log → ∃ kept ∈ w.guard.approvals, kept.id = row.id
  owner : ∀ i j row row', .guard i (.enqueued row) ∈ w.log → .guard j (.enqueued row') ∈ w.log →
    row.id = row'.id → i = j
  seen : ∀ i row, .guard i (.polled row) ∈ w.log → row.status = .approved → row ∈ w.guard.approvals
  started : ∀ i ∈ starts w.log, ∃ call, w.calls[i]? = some call ∧ behindDispatch call.phase = true
  once : (starts w.log).Nodup

theorem ledger_new : Ledger [] .new where
  decided := by simp [Decided, World.new, Guard.State.new]
  stored := by simp [World.new]
  owner := by simp [World.new]
  seen := by simp [World.new]
  started := by simp [World.new, starts]
  once := List.nodup_nil

theorem starts_append (log events : List Event) : starts (log ++ events) = starts log ++ starts events :=
  List.filterMap_append

/-- A step that logs nothing keeps the ledger when it keeps the phases of the calls. -/
theorem Ledger.quiet {past : List Action} {w w' : World} {action : Action} (ledger : Ledger past w)
    (moved : step b w action = some w') (log : w'.log = w.log)
    (calls : ∀ (i : Nat) (call : Call), w.calls[i]? = some call → w'.calls[i]? = some call) :
    Ledger (past ++ [action]) w' := by
  obtain ⟨decided, settles⟩ := step_table moved ledger.decided
  refine ⟨decided, ?_, ?_, ?_, ?_, ?_⟩ <;> rw [log]
  · intro i row logged
    obtain ⟨kept, member, same⟩ := ledger.stored i row logged
    obtain ⟨row', member', same'⟩ := settles.ids kept member
    exact ⟨row', member', same'.trans same⟩
  · exact ledger.owner
  · intro i row logged approved
    exact settles.approved row (ledger.seen i row logged approved) approved
  · intro i member
    obtain ⟨call, found, behind⟩ := ledger.started i member
    exact ⟨call, calls i call found, behind⟩
  · exact ledger.once

section
variable {past : List Action} {w : World} {call : Call}

/-- The id of a new row is not in the table, so no row that the log already tells of has it. -/
theorem Ledger.advance_owner (ledger : Ledger past w)
    (callMoved : stepCall b w.guard i call.req call.phase answer = some r) (j k : Nat) (row row' : ApprovalRecord)
    (logged : .guard j (.enqueued row) ∈ w.log ++ r.events) (logged' : .guard k (.enqueued row') ∈ w.log ++ r.events)
    (same : row.id = row'.id) : j = k := by
  have apart (j k : Nat) (old new : ApprovalRecord) (before : .guard j (.enqueued old) ∈ w.log)
      (now : .guard k (.enqueued new) ∈ r.events) : old.id ≠ new.id := by
    obtain ⟨kept, member, sameId⟩ := ledger.stored j old before
    cases stepCall_rows callMoved with
    | quiet _ silent => exact absurd now (silent k new)
    | enqueued pending fresh table events =>
        rw [events, List.mem_singleton] at now
        cases now
        exact sameId ▸ fresh kept member
    | expired table events => simp [events] at now
  rcases List.mem_append.mp logged with old | new <;> rcases List.mem_append.mp logged' with old' | new'
  · exact ledger.owner j k row row' old old' same
  · exact absurd same (apart j k row row' old new')
  · exact absurd same.symm (apart k j row' row old' new)
  · cases stepCall_rows callMoved with
    | quiet _ silent => exact absurd new (silent j row)
    | enqueued pending fresh table events =>
        rw [events, List.mem_singleton] at new new'
        cases new
        cases new'
        rfl
    | expired table events => simp [events] at new

theorem Ledger.advance_started (ledger : Ledger past w) (found : w.calls[i]? = some call)
    (callMoved : stepCall b w.guard i call.req call.phase answer = some r) (j : Nat)
    (member : j ∈ starts (w.log ++ r.events)) :
    ∃ c, (w.calls.set i { call with phase := r.phase })[j]? = some c ∧ behindDispatch c.phase = true := by
  have bound : i < w.calls.length := (List.getElem?_eq_some_iff.mp found).1
  have others (different : i ≠ j) (before : j ∈ starts w.log) :
      ∃ c, (w.calls.set i { call with phase := r.phase })[j]? = some c ∧ behindDispatch c.phase = true := by
    obtain ⟨old, at_j, behind⟩ := ledger.started j before
    exact ⟨old, (List.getElem?_set_ne different).trans at_j, behind⟩
  rw [starts_append] at member
  by_cases same : i = j
  · subst same
    refine ⟨_, List.getElem?_set_self bound, ?_⟩
    rcases stepCall_starts callMoved with ⟨none, stays⟩ | ⟨-, -, behind⟩
    · rw [none, List.append_nil] at member
      obtain ⟨old, at_i, oldBehind⟩ := ledger.started i member
      obtain rfl := Option.some.inj (found.symm.trans at_i)
      exact stays oldBehind
    · exact behind
  · apply others same
    rcases stepCall_starts callMoved with ⟨none, -⟩ | ⟨one, -⟩
    · rwa [none, List.append_nil] at member
    · rw [one] at member
      exact ((mem_snoc).mp member).resolve_right (Ne.symm same)

theorem Ledger.advance_once (ledger : Ledger past w) (found : w.calls[i]? = some call)
    (callMoved : stepCall b w.guard i call.req call.phase answer = some r) : (starts (w.log ++ r.events)).Nodup := by
  rw [starts_append]
  rcases stepCall_starts callMoved with ⟨none, -⟩ | ⟨one, ahead, -⟩
  · rw [none, List.append_nil]
    exact ledger.once
  · rw [one]
    apply List.nodup_append_comm.mp
    refine List.nodup_cons.mpr ⟨?_, ledger.once⟩
    intro before
    obtain ⟨c, at_i, behind⟩ := ledger.started i before
    obtain rfl := Option.some.inj (found.symm.trans at_i)
    rw [ahead] at behind
    cases behind

theorem Ledger.advance {w' : World} (ledger : Ledger past w) (found : w.calls[i]? = some call)
    (callMoved : stepCall b w.guard i call.req call.phase answer = some r)
    (next : w' = { guard := r.guard, calls := w.calls.set i { call with phase := r.phase }, log := w.log ++ r.events })
    (moved : step b w (.advance i answer) = some w') : Ledger (past ++ [.advance i answer]) w' := by
  obtain ⟨decided, settles⟩ := step_table moved ledger.decided
  have rows := stepCall_rows callMoved
  subst next
  refine ⟨decided, ?_, ledger.advance_owner callMoved, ?_, ledger.advance_started found callMoved,
    ledger.advance_once found callMoved⟩
  · intro j row logged
    rcases List.mem_append.mp logged with old | new
    · obtain ⟨kept, member, same⟩ := ledger.stored j row old
      obtain ⟨row', member', same'⟩ := settles.ids kept member
      exact ⟨row', member', same'.trans same⟩
    · cases rows with
      | quiet same silent => exact absurd new (silent j row)
      | enqueued pending fresh table events =>
          rw [events, List.mem_singleton] at new
          cases new
          exact ⟨row, by simp [table], rfl⟩
      | expired table events => simp [events] at new
  · intro j row logged approved
    rcases List.mem_append.mp logged with old | new
    · exact settles.approved row (ledger.seen j row old approved) approved
    · cases rows with
      | quiet same silent seen => exact settles.approved row (seen j row new) approved
      | enqueued pending fresh table events => simp [events] at new
      | expired table events => simp [events] at new

end

theorem step_ledger (b : Config) (past : List Action) (w : World) (action : Action) (w' : World)
    (ledger : Ledger past w) (moved : step b w action = some w') : Ledger (past ++ [action]) w' := by
  rcases step_cases moved with ⟨i, answer, call, r, rfl, found, callMoved, next⟩ | ⟨req, rfl, rfl⟩ |
    ⟨-, calls, log, -⟩
  · exact ledger.advance found callMoved next moved
  · apply ledger.quiet moved rfl
    intro i call found
    exact (List.getElem?_append_left (List.getElem?_eq_some_iff.mp found).1).trans found
  · apply ledger.quiet moved log
    intro i call found
    exact calls ▸ found

theorem run_ledger {actions : List Action} {w : World} (reached : run (step b) .new actions = some w) :
    Ledger actions w :=
  history_of_run (step_ledger b) ledger_new reached

/-! ## The statement -/

/-- `row`, about this call's own request, was enqueued by the call and approved by an operator among `actions`. -/
def PaidWith (actions : List Action) (w : World) (i : Nat) (row : ApprovalRecord) : Prop :=
  (∃ enqueued, .guard i (.enqueued enqueued) ∈ w.log ∧ enqueued.id = row.id) ∧
    row ∈ w.guard.approvals ∧ row.status = .approved ∧ ApprovedBy actions row ∧
    ∃ call, w.calls[i]? = some call ∧ row.subject = subjectOf call.req

theorem mem_starts {log : List Event} {i : Nat} (member : i ∈ starts log) :
    ∃ before after target op credential, log = before ++ .transportStarted i target op credential :: after := by
  obtain ⟨e, logged, isStart⟩ := List.mem_filterMap.mp member
  cases e with
  | guard call event => cases isStart
  | transportStarted call target op credential =>
      obtain rfl := Option.some.inj isStart
      obtain ⟨before, after, split⟩ := List.append_of_mem logged
      exact ⟨before, after, target, op, credential, split⟩

theorem started_paid {b : Config} {g : Guard.Config} {actions : List Action} {w : World}
    (reached : run (step (b.withGuard g)) .new actions = some w) (i : Nat) (member : i ∈ starts w.log)
    (needs : needsApproval g w i = true) : ∃ row, PaidWith actions w i row := by
  have ledger := run_ledger reached
  obtain ⟨before, after, target, op, credential, split⟩ := mem_starts member
  obtain ⟨call, found, -, gate⟩ := (run_gated b g reached).2 before after i target op credential split
  simp only [needsApproval, found, Bool.and_eq_true, Bool.not_eq_true', bne_iff_ne, ne_eq] at needs
  rcases gate with read | allowed | ⟨-, enqueued, seen, ordered, sameId, -, subject, approved⟩
  · rw [needs.1] at read
    cases read
  · exact absurd allowed needs.2
  · have logged := ordered.subset
    have old (e : Event) (is_before : e ∈ before) : e ∈ w.log := by simp [split, is_before]
    have enqueuedLogged := old _ (logged List.mem_cons_self)
    have kept := ledger.seen i seen (old _ (logged (List.mem_cons_of_mem _ (List.mem_singleton_self _)))) approved
    exact ⟨seen, ⟨enqueued, enqueuedLogged, sameId.symm⟩, kept, approved, ledger.decided seen kept approved,
      call, found, subject⟩

theorem PaidWith.apart {b : Config} {actions : List Action} {w : World}
    (reached : run (step b) .new actions = some w) {i j : Nat} {row row' : ApprovalRecord}
    (paid : PaidWith actions w i row) (paid' : PaidWith actions w j row') (same : row.id = row'.id) : i = j := by
  obtain ⟨⟨enqueued, logged, sameId⟩, -⟩ := paid
  obtain ⟨⟨enqueued', logged', sameId'⟩, -⟩ := paid'
  exact (run_ledger reached).owner i j enqueued enqueued' logged logged' (sameId.trans (same.trans sameId'.symm))

theorem PaidWith.approvedIds {actions : List Action} {w : World} {i : Nat} {row : ApprovalRecord}
    (paid : PaidWith actions w i row) : row.id ∈ approvedIds actions := by
  obtain ⟨-, -, -, ⟨operator, -, acted⟩, -⟩ := paid
  exact List.mem_filterMap.mpr ⟨_, acted, rfl⟩

theorem approvals_spent_once (b : Config) (g : Guard.Config) (actions : List Action) (w : World)
    (reached : run (step (b.withGuard g)) .new actions = some w) :
    (starts w.log).Nodup ∧
    (∃ spent : Nat → ApprovalRecord,
      (∀ i ∈ starts w.log, needsApproval g w i = true → PaidWith actions w i (spent i)) ∧
      ∀ i ∈ starts w.log, ∀ j ∈ starts w.log, needsApproval g w i = true → needsApproval g w j = true →
        (spent i).id = (spent j).id → i = j) ∧
    ((starts w.log).filter (needsApproval g w)).length ≤ (approvedIds actions).dedup.length := by
  have ledger := run_ledger reached
  have paid (i : Nat) : ∃ row, i ∈ starts w.log → needsApproval g w i = true → PaidWith actions w i row := by
    by_cases started : i ∈ starts w.log ∧ needsApproval g w i = true
    · obtain ⟨row, pays⟩ := started_paid reached i started.1 started.2
      exact ⟨row, fun _ _ => pays⟩
    · exact ⟨ApprovalTable.newRow 0 0 (subjectOf (.new "" ⟨""⟩ sampleOp)), fun member needs =>
        absurd ⟨member, needs⟩ started⟩
  choose spent pays using paid
  have apart (i : Nat) (started : i ∈ starts w.log) (j : Nat) (started' : j ∈ starts w.log)
      (needs : needsApproval g w i = true) (needs' : needsApproval g w j = true)
      (same : (spent i).id = (spent j).id) : i = j :=
    (pays i started needs).apart reached (pays j started' needs') same
  refine ⟨ledger.once, ⟨spent, pays, apart⟩, ?_⟩
  have distinct : (((starts w.log).filter (needsApproval g w)).map fun i => (spent i).id).Nodup := by
    apply List.Nodup.map_on ?_ (ledger.once.filter _)
    intro i gated j gated' same
    obtain ⟨started, needs⟩ := List.mem_filter.mp gated
    obtain ⟨started', needs'⟩ := List.mem_filter.mp gated'
    exact apart i started j started' needs needs' same
  have among : (((starts w.log).filter (needsApproval g w)).map fun i => (spent i).id) ⊆ (approvedIds actions).dedup := by
    intro id member
    obtain ⟨i, gated, rfl⟩ := List.mem_map.mp member
    obtain ⟨started, needs⟩ := List.mem_filter.mp gated
    exact List.mem_dedup.mpr (pays i started needs).approvedIds
  have bounded := (distinct.subperm among).length_le
  rwa [List.length_map] at bounded

def spentRun : List Action := park sampleRequest ++ approve ++ [.advance 0 .go]

theorem sample_approval_spent : ∃ w, run (step (sampleBroker.withGuard sampleGuard)) .new spentRun = some w ∧
    starts w.log = [0] ∧ needsApproval sampleGuard w 0 = true ∧
    ((starts w.log).filter (needsApproval sampleGuard w)).length ≤ (approvedIds spentRun).dedup.length := by
  have ran : (run (step (sampleBroker.withGuard sampleGuard)) .new spentRun).any (fun w =>
      starts w.log = [0] ∧ needsApproval sampleGuard w 0 = true) = true := by
    decide +kernel
  obtain ⟨w, reached, facts⟩ := (Option.any_eq_true _ _).mp ran
  obtain ⟨started, needed⟩ := of_decide_eq_true facts
  exact ⟨w, reached, started, needed, (approvals_spent_once sampleBroker sampleGuard spentRun w reached).2.2⟩

end Daimon.Proof.Broker
