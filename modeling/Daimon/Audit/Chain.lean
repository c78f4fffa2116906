import Daimon.Audit.Event
import Daimon.Lib.HashChain
import Mathlib.Data.List.Sort

/-!
# The audit chain

The trigger that chains `audit.events` (`audit.compute_row_hash` of V008, one chain a tenant, and of V020, one
chain in all), `daimon-anchor verify` and `daimon-anchor snapshot`. `sha256` is a parameter.
-/

namespace Daimon.Audit
open Daimon.Core Lib

abbrev Digest := { bytes : Bytes // bytes.length = 32 }

def genesisPrevHash : Digest := ⟨List.replicate 32 0, rfl⟩

variable (sha256 : Bytes → Digest)

def computeRowHash (canonical : Bytes) (prevHash : Digest) : Digest := sha256 (canonical ++ prevHash.val)

/-! ## The table -/

/-- The order of `ORDER BY ts ASC, id ASC`. -/
def NewRow.le (a b : NewRow) : Prop := a.ts < b.ts ∨ (a.ts = b.ts ∧ a.id ≤ b.id)

instance : DecidableRel NewRow.le := fun _ _ => inferInstanceAs (Decidable (_ ∨ (_ ∧ _)))

def scan (table : List Event) : List Event := table.insertionSort fun a b => a.toNewRow.le b.toNewRow

/-- `ORDER BY ts DESC, id DESC LIMIT 1`. -/
def chainHead (table : List Event) : Option Event :=
  (table.insertionSort fun a b => b.toNewRow.le a.toNewRow).head?

/-! ## The trigger -/

def NewRow.chain (new : NewRow) (prev : Option Bytes) : Event :=
  let prev := prev.getD genesisPrevHash.val
  { new with
    prevHash := some prev
    rowHash := some (sha256 (utf8 new.canonicalText ++ prev)).val }

namespace V020

def computeRowHash (table : List Event) (new : NewRow) : Event :=
  new.chain sha256 ((chainHead table).bind Event.rowHash)

/-- An insert that runs from its trigger to its commit with no other one between. -/
def insert (table : List Event) (new : NewRow) : List Event := table ++ [computeRowHash sha256 table new]

end V020

namespace V008

/-- A row as it was before V019 dropped the column `tenant_id`. -/
structure TenantEvent where
  tenantId : Uuid
  event : Event
  deriving DecidableEq

def computeRowHash (table : List TenantEvent) (tenantId : Uuid) (new : NewRow) : TenantEvent :=
  let ofTenant := (table.filter fun row => row.tenantId == tenantId).map TenantEvent.event
  ⟨tenantId, new.chain sha256 ((chainHead ofTenant).bind Event.rowHash)⟩

def insert (table : List TenantEvent) (tenantId : Uuid) (new : NewRow) : List TenantEvent :=
  table ++ [computeRowHash sha256 table tenantId new]

end V008

/-- `ALTER TABLE audit.events DROP COLUMN tenant_id`. -/
def V019.migrate (table : List V008.TenantEvent) : List Event := table.map V008.TenantEvent.event

/-! ## Verification -/

inductive Panic where
  | wasNull (column : String)
  | valueTooLarge
  | sourceSliceLength (length : Nat)
  deriving DecidableEq, Repr

structure ChainBreak where
  eventId : Uuid
  ts : Timestamp
  expectedHex : String
  storedHex : String
  deriving DecidableEq, Repr

structure VerifyReport where
  rowsChecked : Nat
  breaks : List ChainBreak
  deriving DecidableEq, Repr

def hexEncode (bytes : Bytes) : String :=
  String.ofList (bytes.flatMap fun b => [Nat.digitChar (b.toNat / 16), Nat.digitChar (b.toNat % 16)])

/-- `Row::get` of the columns of one row, in the order of the loop. -/
def Event.read (r : Event) : Except Panic (AuditRow × Bytes) :=
  if r.ts.inDateTime then
    match r.prevHash, r.rowHash with
    | none, _ => .error (.wasNull "prev_hash")
    | some _, none => .error (.wasNull "row_hash")
    | some _, some stored => .ok (r.auditRow, stored)
  else .error .valueTooLarge

def copyFromSlice (source : Bytes) : Except Panic Digest :=
  if h : source.length = 32 then .ok ⟨source, h⟩ else .error (.sourceSliceLength source.length)

def verifyLoop : Digest → List ChainBreak → List Event → Except Panic (List ChainBreak)
  | _, breaks, [] => .ok breaks
  | expectedPrev, breaks, r :: rows => do
      let (row, storedHash) ← r.read
      let computed := computeRowHash sha256 (canonicalize row) expectedPrev
      let breaks :=
        if computed.val ≠ storedHash then
          breaks ++ [⟨r.id, r.ts, hexEncode computed.val, hexEncode storedHash⟩]
        else breaks
      let next ← copyFromSlice storedHash
      verifyLoop next breaks rows

def verifyRows (rows : List Event) : Except Panic VerifyReport := do
  let breaks ← verifyLoop sha256 genesisPrevHash [] rows
  return { rowsChecked := rows.length, breaks }

def verify (table : List Event) : Except Panic VerifyReport := verifyRows sha256 (scan table)

/-! ## Anchors -/

structure Anchor where
  asOfTs : Timestamp
  rowHash : Bytes
  rowCount : Nat
  daimonInstanceId : Uuid
  deriving DecidableEq, Repr

/-- The row that `snapshot` writes to `audit.anchors` and mirrors in a file. -/
def snapshot (table : List Event) (now : Timestamp) (instanceId : Uuid) : Except Panic Anchor :=
  match chainHead table with
  | some head =>
      if head.ts.inDateTime then
        match head.rowHash with
        | some h => .ok ⟨head.ts, h, table.length, instanceId⟩
        | none => .error (.wasNull "row_hash")
      else .error .valueTooLarge
  | none => .ok ⟨now, List.replicate 32 0, 0, instanceId⟩

end Daimon.Audit
