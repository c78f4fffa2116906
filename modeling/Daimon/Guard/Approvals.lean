import Daimon.Core.Capability

/-!
# Approval inbox

`daimon-guard/src/approvals.rs` over `public.approvals`: the table is a list of rows, and each SQL
statement is one function on it. `now` is the database clock, in milliseconds.
-/

namespace Daimon.Guard
open Daimon.Core Lib

inductive ApprovalStatus where
  | pending
  | approved
  | denied
  | expired
  deriving DecidableEq, Repr

structure ApprovalRecord where
  id : Uuid
  actorId : String
  capability : String
  targetRef : Option String
  params : Json
  status : ApprovalStatus
  createdAt : Nat
  decidedAt : Option Nat
  decidedBy : Option Uuid
  deriving DecidableEq

structure ApprovalSubject where
  actorId : String
  capability : String
  targetRef : Option String
  params : Json
  deriving DecidableEq

def ApprovalRecord.subject (row : ApprovalRecord) : ApprovalSubject :=
  { actorId := row.actorId, capability := row.capability, targetRef := row.targetRef, params := row.params }

abbrev ApprovalTable := List ApprovalRecord

namespace ApprovalTable

def newRow (id : Uuid) (now : Nat) (subject : ApprovalSubject) : ApprovalRecord :=
  { id, actorId := subject.actorId, capability := subject.capability, targetRef := subject.targetRef,
    params := subject.params, status := .pending, createdAt := now, decidedAt := none, decidedBy := none }

/-- The INSERT of `enqueue` with the generated `id`; the primary key refuses an id in use. -/
def enqueue (table : ApprovalTable) (id : Uuid) (now : Nat) (subject : ApprovalSubject) :
    Option ApprovalTable :=
  if table.any (fun row => row.id == id) then none
  else some (table ++ [newRow id now subject])

def get (table : ApprovalTable) (id : Uuid) : Option ApprovalRecord :=
  table.find? fun row => row.id == id

/-- An UPDATE `WHERE id = .. AND status = 'pending'`. -/
def updatePending (table : ApprovalTable) (id : Uuid) (change : ApprovalRecord → ApprovalRecord) :
    ApprovalTable :=
  table.map fun row => if row.id = id ∧ row.status = .pending then change row else row

def decide (table : ApprovalTable) (id operator : Uuid) (status : ApprovalStatus) (now : Nat) :
    Option (ApprovalTable × ApprovalRecord) :=
  let change := fun row : ApprovalRecord =>
    { row with status := status, decidedAt := some now, decidedBy := some operator }
  match table.find? (fun row => row.id == id && row.status == .pending) with
  | some row => some (updatePending table id change, change row)
  | none => none

def expireIfPending (table : ApprovalTable) (id : Uuid) (now : Nat) : ApprovalTable :=
  updatePending table id fun row => { row with status := .expired, decidedAt := some now }

end ApprovalTable
end Daimon.Guard
