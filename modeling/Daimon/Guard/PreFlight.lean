import Daimon.Guard.Policy
import Daimon.Guard.Approvals

/-!
# The guard's pre-flight

`Guard::pre_flight` (`daimon-guard/src/lib.rs`) as a machine: a phase names what the call does next,
and one step runs up to the next point at which another task can act. Every access to the shared
state (the kill flag, the live timeout, one SQL statement, the clock) is a step of its own, so any
interleaving of calls, operators and the kill switch is a sequence of steps.
-/

namespace Daimon.Guard
open Daimon.Core Lib

/-! ## Kill switch -/

structure KillState where
  engaged : Bool
  reason : String
  deriving DecidableEq, Repr

namespace KillState

def new : KillState := { engaged := false, reason := "" }

def engage (_ : KillState) (reason : String) : KillState := { engaged := true, reason }

def release (_ : KillState) : KillState := { engaged := false, reason := "" }

end KillState

/-! ## Guard -/

inductive Error where
  | pg (message : String)
  | killEngaged (reason : String)
  | policyDenied (reason : String)
  | approvalTimeout (id : String)
  deriving DecidableEq, Repr

/-- The fixed part of a guard: the loaded policy, and the platform's largest `Instant`. -/
structure Config where
  policy : PolicyEngine
  instantMax : Nat
  deriving DecidableEq, Repr

def defaultApprovalTimeoutSecs : Nat := 300

/-- The poll interval `pre_flight` passes to `wait_for_decision`, in milliseconds. -/
def pollInterval : Nat := 2000

structure State where
  now : Nat
  kill : KillState
  approvals : ApprovalTable
  approvalTimeoutSecs : Nat
  bus : Bool
  deriving DecidableEq

def State.new : State :=
  { now := 0, kill := .new, approvals := [], approvalTimeoutSecs := defaultApprovalTimeoutSecs, bus := false }

def State.setApprovalTimeoutSecs (s : State) (secs : Nat) : State :=
  if 0 < secs then { s with approvalTimeoutSecs := secs } else s

structure PreFlight where
  subject : ApprovalSubject
  isReadOnly : Bool
  deriving DecidableEq

inductive Phase where
  | killCheck
  | policy
  | enqueue
  | publish (id : Uuid)
  | startWait (id : Uuid)
  | poll (id : Uuid) (deadline : Nat)
  | checkDeadline (id : Uuid) (deadline : Nat)
  | expire (id : Uuid)
  | sleep (id : Uuid) (deadline wake : Nat)
  deriving DecidableEq, Repr

/-- What a step learns from outside: nothing, the id the database generated, or a failure of the
pool or of the statement. -/
inductive Answer where
  | go
  | inserted (id : Uuid)
  | failed (message : String)
  deriving DecidableEq, Repr

inductive Event where
  | enqueued (row : ApprovalRecord)
  | published (id : Uuid) (subject : ApprovalSubject)
  | polled (row : ApprovalRecord)
  deriving DecidableEq

inductive Outcome where
  | next (phase : Phase)
  | returned (result : Except Error Unit)
  | panicked
  deriving DecidableEq

structure StepResult where
  state : State
  events : List Event
  outcome : Outcome
  deriving DecidableEq

def readDecision (a : PreFlight) (id : Uuid) (row : ApprovalRecord) : Except Error Unit :=
  match row.status with
  | .approved => .ok ()
  | .denied => .error (.policyDenied
      ("operator denied approval " ++ id.hyphenated ++ " for `" ++ a.subject.capability ++ "`"))
  | _ => .error (.approvalTimeout id.hyphenated)

def advance (g : Config) (s : State) (a : PreFlight) : Phase → Answer → Option StepResult
  | .killCheck, .go =>
      some ⟨s, [], if s.kill.engaged then .returned (.error (.killEngaged s.kill.reason))
        else if a.isReadOnly then .returned (.ok ()) else .next .policy⟩
  | .policy, .go =>
      some ⟨s, [], match (g.policy.evaluate a.subject.capability).decision with
        | .allow => .returned (.ok ())
        | .deny => .returned (.error (.policyDenied
            ("policy denies capability `" ++ a.subject.capability ++ "`")))
        | .requireApproval => .next .enqueue⟩
  | .enqueue, .inserted id =>
      match s.approvals.enqueue id s.now a.subject with
      | some table => some ⟨{ s with approvals := table },
          [.enqueued (ApprovalTable.newRow id s.now a.subject)], .next (.publish id)⟩
      | none => some ⟨s, [], .returned (.error (.pg "duplicate key value violates unique constraint"))⟩
  | .enqueue, .failed message => some ⟨s, [], .returned (.error (.pg message))⟩
  -- The publish is fail-soft: without a bus, or when the send fails, the call still parks.
  | .publish id, .go =>
      some ⟨s, if s.bus then [.published id a.subject] else [], .next (.startWait id)⟩
  | .publish id, .failed _ => some ⟨s, [], .next (.startWait id)⟩
  -- `Instant::now() + timeout` panics past the platform's last instant.
  | .startWait id, .go =>
      let deadline := s.now + 1000 * s.approvalTimeoutSecs
      some ⟨s, [], if deadline ≤ g.instantMax then .next (.poll id deadline) else .panicked⟩
  | .poll id deadline, .go =>
      match s.approvals.get id with
      | some row =>
          some ⟨s, [.polled row], if row.status = .approved ∨ row.status = .denied
            then .returned (readDecision a id row) else .next (.checkDeadline id deadline)⟩
      | none => some ⟨s, [], .next (.checkDeadline id deadline)⟩
  | .poll _ _, .failed message => some ⟨s, [], .returned (.error (.pg message))⟩
  | .checkDeadline id deadline, .go =>
      some ⟨s, [], .next (if deadline ≤ s.now then .expire id
        else .sleep id deadline (s.now + pollInterval))⟩
  -- Whether or not the row could be marked expired, the call ends in a timeout.
  | .expire id, .go => some ⟨{ s with approvals := s.approvals.expireIfPending id s.now }, [],
      .returned (.error (.approvalTimeout id.hyphenated))⟩
  | .expire id, .failed _ => some ⟨s, [], .returned (.error (.approvalTimeout id.hyphenated))⟩
  | .sleep id deadline wake, .go =>
      if wake ≤ s.now then some ⟨s, [], .next (.poll id deadline)⟩ else none
  | _, _ => none

end Daimon.Guard
