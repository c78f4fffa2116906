import Daimon.Core.Capability
import Daimon.Lib.Calendar

/-!
# Audit events

A row of `audit.events` and its canonical text, as the trigger of the migrations V008 and V020 writes it
and as `daimon-anchor/src/canonical.rs` writes it again. The two share no code: the first is `to_char` and
`||` in the database, the second `chrono` and `join`.
-/

namespace Daimon.Audit
open Daimon.Core Lib

abbrev Bytes := List UInt8

def utf8 (text : String) : Bytes := text.toList.flatMap String.utf8EncodeChar

/-- A `TIMESTAMPTZ`: microseconds since 2000-01-01T00:00:00Z. The least and the greatest 64-bit
integer stand for the two infinities. -/
abbrev Timestamp := Int

namespace Timestamp

def isFinite (ts : Timestamp) : Bool := ts != -0x8000000000000000 && ts != 0x7fffffffffffffff

def civil (ts : Timestamp) : CivilTime := civilFromMicros (ts + 946684800000000)

/-- `to_char(ts AT TIME ZONE 'UTC', 'YYYY-MM-DD"T"HH24:MI:SS.US"Z"')`: `NULL` on an infinity, and a year
before the first by its number. -/
def toChar (ts : Timestamp) : Option String :=
  if ts.isFinite then
    let t := civil ts
    let year := if t.date.year ≤ 0 then 1 - t.date.year else t.date.year
    some (String.ofList (zeroPad 4 year.toNat ++ '-' :: zeroPad 2 t.date.month ++ '-' :: zeroPad 2 t.date.day ++
      'T' :: zeroPad 2 t.hour ++ ':' :: zeroPad 2 t.minute ++ ':' :: zeroPad 2 t.second ++
      '.' :: zeroPad 6 t.micro ++ ['Z']))
  else none

def writeHundreds (n : Nat) : List Char := [decimalDigit (n / 10), decimalDigit n]

/-- `DateTime::to_rfc3339_opts(SecondsFormat::Micros, true)`: a year of more than four digits, or before the
year 0, has its sign in front. -/
def toRfc3339 (ts : Timestamp) : String :=
  let t := civil ts
  let year :=
    if 0 ≤ t.date.year ∧ t.date.year ≤ 9999 then
      writeHundreds (t.date.year.toNat / 100) ++ writeHundreds (t.date.year.toNat % 100)
    else (if t.date.year < 0 then '-' else '+') :: zeroPad 4 t.date.year.natAbs
  String.ofList (year ++ '-' :: writeHundreds t.date.month ++ '-' :: writeHundreds t.date.day ++
    'T' :: writeHundreds t.hour ++ ':' :: writeHundreds t.minute ++ ':' :: writeHundreds t.second ++
    '.' :: zeroPad 6 t.micro ++ ['Z'])

def inDateTime (ts : Timestamp) : Bool :=
  decide (-262143 ≤ (civil ts).date.year) && decide ((civil ts).date.year ≤ 262142)

end Timestamp

/-- A `JSONB` value, by the text that the cast to `TEXT` gives. -/
structure Jsonb where
  text : String
  nonempty : text ≠ ""
  deriving DecidableEq

/-- What an `INSERT` gives for a row, the defaults of `id`, `ts` and `metadata` filled in. -/
structure NewRow where
  id : Uuid
  ts : Timestamp
  actorId : String
  action : String
  targetRef : Option String
  credentialRef : Option String
  opSummary : Option String
  result : String
  latencyMs : Option Int32
  metadata : Jsonb
  deriving DecidableEq

/-- A stored row: the columns of the insert and the two that the trigger fills in. -/
structure Event extends NewRow where
  prevHash : Option Bytes
  rowHash : Option Bytes
  deriving DecidableEq

/-! ## The canonical text in SQL -/

@[irreducible] def NewRow.canonicalText (new : NewRow) : String :=
  new.ts.toChar.getD "" ++ "|" ++ new.actorId ++ "|" ++ new.action ++ "|" ++ new.targetRef.getD "" ++ "|" ++
    new.credentialRef.getD "" ++ "|" ++ new.opSummary.getD "" ++ "|" ++ new.result ++ "|" ++
    (new.latencyMs.map fun n => toString n.toInt).getD "" ++ "|" ++ new.metadata.text

/-! ## The canonical text in Rust -/

structure AuditRow where
  ts : Timestamp
  actorId : String
  action : String
  targetRef : Option String
  credentialRef : Option String
  opSummary : Option String
  result : String
  latencyMs : Option Int64
  metadataJson : String
  deriving DecidableEq

@[irreducible] def canonicalize (row : AuditRow) : Bytes :=
  let latency := (row.latencyMs.map fun n => toString n.toInt).getD ""
  let parts := [row.ts.toRfc3339, row.actorId, row.action, row.targetRef.getD "", row.credentialRef.getD "",
    row.opSummary.getD "", row.result, latency, if row.metadataJson = "" then "{}" else row.metadataJson]
  utf8 (String.intercalate "|" parts)

def NewRow.auditRow (row : NewRow) : AuditRow where
  ts := row.ts
  actorId := row.actorId
  action := row.action
  targetRef := row.targetRef
  credentialRef := row.credentialRef
  opSummary := row.opSummary
  result := row.result
  latencyMs := row.latencyMs.map Int32.toInt64
  metadataJson := row.metadata.text

end Daimon.Audit
