import Daimon.Audit.Event
import Daimon.Lib.Json
import Daimon.Lib.Like
import Mathlib.Data.List.Sort

/-!
# The audit sink

`PostgresAuditSink` of `daimon-audit/src/postgres_sink.rs` with the types of `event.rs`. Of the database there is what
its statements do: a text without a NUL is stored as it is, and so is the value of a `JSONB`; a statement reads its
parameters by their positions.
-/

namespace Daimon.Audit
open Daimon.Core Lib Lib.Like

inductive ActionKind where
  | brokerExecute
  | vaultResolve
  | vaultReveal
  | vaultCreate
  | vaultUpdate
  | vaultRename
  | vaultDelete
  | inventoryUpsert
  | inventoryRemove
  | inventoryResolve
  | transportDispatch
  | guardApprove
  | guardDeny
  | memoryIngest
  | memoryRetrieve
  | memoryWrite
  | other
  deriving DecidableEq, Repr

namespace ActionKind

def asStr : ActionKind → String
  | .brokerExecute => "broker.execute"
  | .vaultResolve => "vault.resolve"
  | .vaultReveal => "vault.reveal"
  | .vaultCreate => "vault.create"
  | .vaultUpdate => "vault.update"
  | .vaultRename => "vault.rename"
  | .vaultDelete => "vault.delete"
  | .inventoryUpsert => "inventory.upsert"
  | .inventoryRemove => "inventory.remove"
  | .inventoryResolve => "inventory.resolve"
  | .transportDispatch => "transport.dispatch"
  | .guardApprove => "guard.approve"
  | .guardDeny => "guard.deny"
  | .memoryIngest => "memory.ingest"
  | .memoryRetrieve => "memory.retrieve"
  | .memoryWrite => "memory.write"
  | .other => "other"

def fromStr : String → ActionKind
  | "broker.execute" => .brokerExecute
  | "vault.resolve" => .vaultResolve
  | "vault.reveal" => .vaultReveal
  | "vault.create" => .vaultCreate
  | "vault.update" => .vaultUpdate
  | "vault.rename" => .vaultRename
  | "vault.delete" => .vaultDelete
  | "inventory.upsert" => .inventoryUpsert
  | "inventory.remove" => .inventoryRemove
  | "inventory.resolve" => .inventoryResolve
  | "transport.dispatch" => .transportDispatch
  | "guard.approve" => .guardApprove
  | "guard.deny" => .guardDeny
  | "memory.ingest" => .memoryIngest
  | "memory.retrieve" => .memoryRetrieve
  | "memory.write" => .memoryWrite
  | _ => .other

end ActionKind

inductive AuditResult where
  | success
  | error
  | denied
  deriving DecidableEq, Repr

namespace AuditResult

def asStr : AuditResult → String
  | .success => "success"
  | .error => "error"
  | .denied => "denied"

def fromStr : String → AuditResult
  | "success" => .success
  | "error" => .error
  | "denied" => .denied
  | _ => .error

end AuditResult

inductive AuditError where
  | storage (message : String)
  deriving DecidableEq, Repr

/-- A `DateTime<Utc>`: nanoseconds since 2000-01-01T00:00:00Z. -/
abbrev DateTime := Int

/-- As a parameter it is cut to whole microseconds. -/
def DateTime.toSql (t : DateTime) : Timestamp := t.tdiv 1000

/-- The metadata stand in the order of their keys. -/
structure NewAuditEvent where
  actorId : String
  action : ActionKind
  targetRef : Option String
  credentialRef : Option String
  opSummary : Option String
  result : AuditResult
  latencyMs : Option UInt64
  metadata : List (String × String)
  deriving DecidableEq, Repr

structure AuditEvent where
  id : Uuid
  ts : DateTime
  actorId : String
  action : ActionKind
  targetRef : Option String
  credentialRef : Option String
  opSummary : Option String
  result : AuditResult
  latencyMs : Option UInt64
  metadata : List (String × String)
  deriving DecidableEq

structure AuditFilter where
  actorId : Option String
  action : Option ActionKind
  targetRef : Option String
  result : Option AuditResult
  since : Option DateTime
  upTo : Option DateTime
  deriving DecidableEq, Repr

/-- The columns that the sink writes and reads. -/
structure EventRow where
  id : Uuid
  ts : Timestamp
  actorId : String
  action : String
  targetRef : Option String
  credentialRef : Option String
  opSummary : Option String
  result : String
  latencyMs : Option Int32
  metadata : Json
  deriving DecidableEq

/-! ## What a column holds -/

/-- A text that the database takes. -/
def storable (text : String) : Bool := !text.toList.contains '\x00'

/-- A time that the database takes, from 4714 BC to 294276 AD. -/
def Timestamp.inRange (ts : Timestamp) : Bool := decide (-211813488000000000 ≤ ts) && decide (ts < 9223371331200000000)

def EventRow.texts (row : EventRow) : List String :=
  row.actorId :: row.action :: row.result ::
    (row.targetRef.toList ++ row.credentialRef.toList ++ row.opSummary.toList)

/-- What the columns' types and the check on `result` demand, of a time that a `DateTime` can hold. -/
structure EventRow.Valid (row : EventRow) : Prop where
  texts : ∀ text ∈ row.texts, storable text = true
  result : row.result ∈ ["success", "error", "denied"]
  range : Timestamp.inRange row.ts = true
  readable : Timestamp.inDateTime row.ts = true

/-! ## Writing and reading a row -/

/-- `n as i32`. -/
def asI32 (n : UInt64) : Int32 := n.toUInt32.toInt32

/-- `n as u64`. -/
def asU64 (n : Int32) : UInt64 := n.toInt64.toUInt64

def metadataValue (metadata : List (String × String)) : Json :=
  .object (metadata.map fun entry => (entry.1, .string entry.2))

def metadataFromValue : Json → Option (List (String × String))
  | .object fields => fields.mapM fun field => field.2.asStr?.map fun value => (field.1, value)
  | _ => none

def NewAuditEvent.texts (event : NewAuditEvent) : List String :=
  event.actorId :: (event.targetRef.toList ++ event.credentialRef.toList ++ event.opSummary.toList ++
    event.metadata.flatMap fun entry => [entry.1, entry.2])

def insertedRow (id : Uuid) (now : Timestamp) (event : NewAuditEvent) : EventRow where
  id := id
  ts := now
  actorId := event.actorId
  action := event.action.asStr
  targetRef := event.targetRef
  credentialRef := event.credentialRef
  opSummary := event.opSummary
  result := event.result.asStr
  latencyMs := event.latencyMs.map asI32
  metadata := metadataValue event.metadata

/-- The row that an insert writes, with the defaults of `id` and `ts`. -/
def append (dbError : String) (id : Uuid) (now : Timestamp) (event : NewAuditEvent) : Except AuditError EventRow :=
  if event.texts.all storable then .ok (insertedRow id now event) else .error (.storage ("append: " ++ dbError))

def rowToEvent (row : EventRow) : AuditEvent where
  id := row.id
  ts := 1000 * row.ts
  actorId := row.actorId
  action := ActionKind.fromStr row.action
  targetRef := row.targetRef
  credentialRef := row.credentialRef
  opSummary := row.opSummary
  result := AuditResult.fromStr row.result
  latencyMs := row.latencyMs.map asU64
  metadata := (metadataFromValue row.metadata).getD []

/-! ## Statements -/

inductive Param where
  | text (s : String)
  | timestamp (t : Timestamp)
  | bigint (n : Int)
  deriving DecidableEq, Repr

inductive TextColumn where
  | actorId
  | action
  | result
  deriving DecidableEq, Repr

namespace TextColumn

def name : TextColumn → String
  | .actorId => "actor_id"
  | .action => "action"
  | .result => "result"

def of (row : EventRow) : TextColumn → String
  | .actorId => row.actorId
  | .action => row.action
  | .result => row.result

end TextColumn

/-- A condition on a row, by the position of its parameter. -/
inductive Condition where
  | textIs (column : TextColumn) (n : Nat)
  | targetLike (n : Nat)
  | tsFrom (n : Nat)
  | tsBelow (n : Nat)
  deriving DecidableEq, Repr

def Condition.sql : Condition → String
  | .textIs column n => " AND " ++ column.name ++ " = $" ++ toString n
  | .targetLike n => " AND target_ref ILIKE $" ++ toString n
  | .tsFrom n => " AND ts >= $" ++ toString n
  | .tsBelow n => " AND ts < $" ++ toString n

structure Paging where
  limit : Nat
  offset : Nat
  deriving DecidableEq, Repr

inductive Target where
  | rows (paging : Option Paging)
  | count
  deriving DecidableEq, Repr

structure Statement where
  target : Target
  conditions : List Condition
  deriving DecidableEq, Repr

def Statement.sql (s : Statement) : String :=
  let conditions := String.join (s.conditions.map Condition.sql)
  match s.target with
  | .count => "SELECT COUNT(*) FROM audit.events WHERE 1=1" ++ conditions
  | .rows paging =>
      "SELECT id, ts, actor_id, action, target_ref, credential_ref, op_summary, result, latency_ms, metadata " ++
        "FROM audit.events WHERE 1=1" ++ conditions ++ " ORDER BY ts DESC, id DESC" ++
        match paging with
        | some p => " LIMIT $" ++ toString p.limit ++ " OFFSET $" ++ toString p.offset
        | none => ""

/-- The conditions pushed so far, with their parameters. -/
structure Clauses where
  conditions : List Condition
  params : List Param
  deriving DecidableEq, Repr

namespace Clauses

def push {α : Type} (clauses : Clauses) (condition : Nat → Condition) (param : α → Param) : Option α → Clauses
  | some value =>
      { conditions := clauses.conditions ++ [condition (clauses.params.length + 1)]
        params := clauses.params ++ [param value] }
  | none => clauses

def pushFilter (clauses : Clauses) (filter : AuditFilter) : Clauses :=
  let clauses := clauses.push (.textIs .actorId) .text filter.actorId
  let clauses := clauses.push (.textIs .action) (fun action => .text (ActionKind.asStr action)) filter.action
  let clauses := clauses.push .targetLike (fun t => .text ("%" ++ t ++ "%")) filter.targetRef
  let clauses := clauses.push (.textIs .result) (fun result => .text (AuditResult.asStr result)) filter.result
  let clauses := clauses.push .tsFrom (fun since => .timestamp (DateTime.toSql since)) filter.since
  clauses.push .tsBelow (fun upTo => .timestamp (DateTime.toSql upTo)) filter.upTo

end Clauses

def buildQuery (filter : AuditFilter) (paging : Option (UInt32 × UInt32)) : Statement × List Param :=
  let ⟨conditions, params⟩ := Clauses.pushFilter ⟨[], []⟩ filter
  match paging with
  | some (limit, offset) =>
      (⟨.rows (some ⟨params.length + 1, params.length + 2⟩), conditions⟩,
        params ++ [.bigint limit.toNat, .bigint offset.toNat])
  | none => (⟨.rows none, conditions⟩, params)

def buildCount (filter : AuditFilter) : Statement × List Param :=
  let ⟨conditions, params⟩ := Clauses.pushFilter ⟨[], []⟩ filter
  (⟨.count, conditions⟩, params)

/-! ## What the database does -/

def textAt (params : List Param) (n : Nat) : Option String :=
  match params[n - 1]? with
  | some (.text s) => some s
  | _ => none

def timestampAt (params : List Param) (n : Nat) : Option Timestamp :=
  match params[n - 1]? with
  | some (.timestamp t) => some t
  | _ => none

def bigintAt (params : List Param) (n : Nat) : Option Nat :=
  match params[n - 1]? with
  | some (.bigint n) => some n.toNat
  | _ => none

def Param.sendable : Param → Bool
  | .text s => storable s
  | .timestamp t => Timestamp.inRange t
  | .bigint _ => true

/-- The parameter has the type of its column; a pattern has no backslash at its end. -/
def Condition.wellTyped (params : List Param) : Condition → Bool
  | .textIs _ n => (textAt params n).isSome
  | .targetLike n => ((textAt params n).bind fun p => tokens p.toList).isSome
  | .tsFrom n | .tsBelow n => (timestampAt params n).isSome

/-- A comparison with `NULL` does not hold. -/
def Condition.holds (fold : Folding) (params : List Param) (row : EventRow) : Condition → Bool
  | .textIs column n => textAt params n == some (column.of row)
  | .targetLike n =>
      match row.targetRef, textAt params n with
      | some target, some pattern => ilike fold pattern.toList target.toList
      | _, _ => false
  | .tsFrom n => (timestampAt params n).any (· ≤ row.ts)
  | .tsBelow n => (timestampAt params n).any (row.ts < ·)

/-- The order of `ORDER BY ts DESC, id DESC`. -/
def EventRow.newer (a b : EventRow) : Prop := b.ts < a.ts ∨ (b.ts = a.ts ∧ b.id ≤ a.id)

instance : DecidableRel EventRow.newer := fun _ _ => inferInstanceAs (Decidable (_ ∨ (_ ∧ _)))

namespace Statement

def accepted (s : Statement) (params : List Param) : Bool :=
  s.conditions.all (Condition.wellTyped params) && params.all Param.sendable

def found (fold : Folding) (s : Statement) (params : List Param) (table : List EventRow) : List EventRow :=
  table.filter fun row => s.conditions.all (Condition.holds fold params row)

/-- The rows of a `SELECT`; none is an error. -/
def select (fold : Folding) (s : Statement) (params : List Param) (table : List EventRow) : Option (List EventRow) :=
  if s.accepted params then
    let rows := (s.found fold params table).insertionSort EventRow.newer
    match s.target with
    | .rows (some p) => do
        let limit ← bigintAt params p.limit
        let offset ← bigintAt params p.offset
        return (rows.drop offset).take limit
    | .rows none => some rows
    | .count => none
  else none

def selectCount (fold : Folding) (s : Statement) (params : List Param) (table : List EventRow) : Option Nat :=
  if s.accepted params then some (s.found fold params table).length else none

end Statement

/-! ## Queries -/

section Query
variable (fold : Folding) (dbError : String)

def query (table : List EventRow) (filter : AuditFilter) (limit offset : UInt32) :
    Except AuditError (List AuditEvent) :=
  let (statement, params) := buildQuery filter (some (limit, offset))
  match statement.select fold params table with
  | some rows => .ok (rows.map rowToEvent)
  | none => .error (.storage ("query: " ++ dbError))

def count (table : List EventRow) (filter : AuditFilter) : Except AuditError Nat :=
  let (statement, params) := buildCount filter
  match statement.selectCount fold params table with
  | some n => .ok n
  | none => .error (.storage ("count: " ++ dbError))

end Query

end Daimon.Audit
