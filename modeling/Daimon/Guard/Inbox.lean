import Daimon.Guard.PreFlight
import Daimon.Lib.Run

/-!
# Concurrent use of the inbox

Two systems over `public.approvals`. In the first any number of `enqueue`, `decide` and timed-out
waiters run their SQL statements in any order. In the second any number of `Guard::pre_flight` calls
run to their end, and operators decide between any two of their steps. Operators only ever approve
or deny: both surfaces that call `decide` pass one of the two.
-/

namespace Daimon.Guard
open Daimon.Core Lib

def ApprovalStatus.isDecision : ApprovalStatus → Bool
  | .approved => true
  | .denied => true
  | .pending => false
  | .expired => false

/-! ## Statements on the table -/

namespace Inbox

/-- How a statement ends for its caller: with its rows, refused by the database (a lost pool, an
operator who is no user), or carried out with the answer lost on the way back. -/
inductive Reply where
  | received
  | failed
  | lost
  deriving DecidableEq, Repr

/-- A finished `decide`: `updated` is the row its UPDATE changed, `result` the record it returned, and
`none` there is an `Err`. -/
structure DecideCall where
  id : Uuid
  operator : Uuid
  status : ApprovalStatus
  updated : Option ApprovalRecord
  result : Option ApprovalRecord
  deriving DecidableEq

structure State where
  now : Nat
  table : ApprovalTable
  decides : List DecideCall
  deriving DecidableEq

def State.new : State := { now := 0, table := [], decides := [] }

inductive Action where
  | enqueue (id : Uuid) (subject : ApprovalSubject)
  | decide (id operator : Uuid) (status : ApprovalStatus) (reply : Reply)
  | expireIfPending (id : Uuid)
  | elapse (millis : Nat)
  deriving DecidableEq

def decideStatement (s : State) (id operator : Uuid) (status : ApprovalStatus) (reply : Reply) : State :=
  match s.table.decide id operator status s.now, reply with
  | some (table, record), .received =>
      { s with table, decides := s.decides ++ [⟨id, operator, status, some record, some record⟩] }
  | some (table, record), .lost =>
      { s with table, decides := s.decides ++ [⟨id, operator, status, some record, none⟩] }
  | _, _ => { s with decides := s.decides ++ [⟨id, operator, status, none, none⟩] }

def step (s : State) : Action → Option State
  | .enqueue id subject => (s.table.enqueue id s.now subject).map fun table => { s with table }
  | .decide id operator status reply =>
      if status.isDecision then some (decideStatement s id operator status reply) else none
  | .expireIfPending id => some { s with table := s.table.expireIfPending id s.now }
  | .elapse millis => some { s with now := s.now + millis }

end Inbox

/-! ## Pre-flight calls -/

structure GuardCall where
  args : PreFlight
  row : Option Uuid
  progress : Outcome
  deriving DecidableEq

structure GuardWorld where
  state : State
  calls : List GuardCall
  deriving DecidableEq

def GuardWorld.new : GuardWorld := { state := .new, calls := [] }

inductive GuardAction where
  | submit (args : PreFlight)
  | advance (call : Nat) (answer : Answer)
  | decide (id operator : Uuid) (status : ApprovalStatus)
  | engage (reason : String)
  | release
  | setApprovalTimeoutSecs (secs : Nat)
  | setBus
  | elapse (millis : Nat)
  deriving DecidableEq

def enqueuedRow : List Event → Option Uuid
  | [] => none
  | .enqueued row :: _ => some row.id
  | _ :: events => enqueuedRow events

def GuardCall.after (call : GuardCall) (r : StepResult) : GuardCall :=
  { call with row := (enqueuedRow r.events).or call.row, progress := r.outcome }

def GuardWorld.step (g : Config) (w : GuardWorld) : GuardAction → Option GuardWorld
  | .submit args => some { w with calls := w.calls ++ [⟨args, none, .next .killCheck⟩] }
  | .advance i answer =>
      match w.calls[i]? with
      | some call =>
          match call.progress with
          | .next phase => (advance g w.state call.args phase answer).map fun r =>
              { state := r.state, calls := w.calls.set i (call.after r) }
          | _ => none
      | none => none
  | .decide id operator status =>
      if status.isDecision then
        match w.state.approvals.decide id operator status w.state.now with
        | some (table, _) => some { w with state := { w.state with approvals := table } }
        | none => some w
      else none
  | .engage reason => some { w with state := { w.state with kill := w.state.kill.engage reason } }
  | .release => some { w with state := { w.state with kill := w.state.kill.release } }
  | .setApprovalTimeoutSecs secs => some { w with state := w.state.setApprovalTimeoutSecs secs }
  | .setBus => some { w with state := { w.state with bus := true } }
  | .elapse millis => some { w with state := { w.state with now := w.state.now + millis } }

end Daimon.Guard
