import Daimon.Audit.Chain
import Daimon.Lib.Run

/-!
# Concurrent audit writers

Transactions that each insert one row, as `PostgresAuditSink::append` does. The default of `ts` is `now()`, the start
of the transaction; the trigger of V020 takes the advisory lock, reads the head among the committed rows, and
the lock goes back when the transaction ends. Any number of them run interleaved.
-/

namespace Daimon.Audit
open Daimon.Core Lib

structure Clock where
  now : Timestamp
  inside : 1 ≤ now.civil.date.year ∧ now.civil.date.year ≤ 9999

inductive Transaction where
  | started (ts : Timestamp)
  | locked (new : NewRow)
  | inserted (row : Event)
  | committed
  | aborted
  deriving DecidableEq

structure Writers where
  clock : Clock
  lock : Option Nat
  transactions : List Transaction
  table : List Event

namespace Writers

def new (clock : Clock) : Writers := { clock, lock := none, transactions := [], table := [] }

/-- `lock` carries the columns of the insert, the random id among them. -/
inductive Action where
  | tick (later : Clock)
  | begin
  | lock (i : Nat) (columns : NewRow)
  | compute (i : Nat)
  | commit (i : Nat)
  | abort (i : Nat)

def set (w : Writers) (i : Nat) (t : Transaction) : Writers :=
  { w with transactions := w.transactions.set i t }

/-- The transaction ends, and with it the advisory lock if it holds it. -/
def finish (w : Writers) (i : Nat) (t : Transaction) : Writers :=
  { w.set i t with lock := if w.lock = some i then none else w.lock }

def step (sha256 : Bytes → Digest) (w : Writers) : Action → Option Writers
  | .tick later => if w.clock.now ≤ later.now then some { w with clock := later } else none
  | .begin => some { w with transactions := w.transactions ++ [.started w.clock.now] }
  | .lock i columns =>
      match w.transactions[i]?, w.lock with
      | some (.started ts), none => some { w.set i (.locked { columns with ts }) with lock := some i }
      | _, _ => none
  | .compute i =>
      match w.transactions[i]? with
      | some (.locked new) =>
          -- the primary key
          if w.table.any fun r => r.id == new.id then some (w.finish i .aborted)
          else some (w.set i (.inserted (V020.computeRowHash sha256 w.table new)))
      | _ => none
  | .commit i =>
      match w.transactions[i]? with
      | some (.inserted row) => some { w.finish i .committed with table := w.table ++ [row] }
      | _ => none
  | .abort i =>
      match w.transactions[i]? with
      | some (.started _) | some (.locked _) | some (.inserted _) => some (w.finish i .aborted)
      | _ => none

end Writers
end Daimon.Audit
