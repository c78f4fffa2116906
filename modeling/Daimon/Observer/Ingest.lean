import Daimon.Core.Uuid
import Daimon.Driver.Reply

/-!
# The observer

One cycle of the loop of `daimon-observer/src/ingest.rs`, up to the anomalies it raises, with the thresholds of
`queries.rs` and the event of `event.rs`. The metric points of a cycle are left out. A floating-point number is a
rational number or one of the values without one.
-/

namespace Daimon.Observer
open Daimon.Core Lib
open Daimon.Driver (presentFields)
open Daimon.Driver.NetworkResponse (structFields decodeOptional)

inductive F64 where
  | finite (q : Rat)
  | infinite (negative : Bool)
  | nan
  deriving DecidableEq

namespace F64

def lt : F64 → F64 → Bool
  | .finite a, .finite b => a < b
  | .finite _, .infinite negative => !negative
  | .infinite negative, .finite _ => negative
  | .infinite a, .infinite b => a && !b
  | .nan, _ | _, .nan => false

def le : F64 → F64 → Bool
  | .nan, _ | _, .nan => false
  | a, b => a.lt b || a = b

/-- `serde_json` has no number for a value that is not finite. -/
def toValue : F64 → Json
  | .finite q => .number (.float q)
  | .infinite _ | .nan => .null

end F64

/-- `n as f64`, and how `{}` writes a finite number. -/
structure Floats where
  round : Int → Rat
  display : Rat → String

/-! ## Queries -/

inductive ThresholdOp where
  | gt
  | gte
  | lt
  | lte
  deriving DecidableEq, Repr

structure Threshold where
  op : ThresholdOp
  value : F64
  severity : String
  title : String
  deriving DecidableEq

def Threshold.breaches (t : Threshold) (v : F64) : Bool :=
  match t.op with
  | .gt => t.value.lt v
  | .gte => t.value.le v
  | .lt => v.lt t.value
  | .lte => v.le t.value

structure NamedQuery where
  name : String
  promql : String
  source : String
  sourceIdLabel : Option String
  metricName : String
  thresholds : List Threshold
  deriving DecidableEq

def NamedQueryLibrary.defaultLibrary : List NamedQuery := [
  { name := "node_cpu_saturation"
    promql := "100 - (avg by (instance)(rate(node_cpu_seconds_total\x7bmode=\"idle\"\x7d[5m])) * 100)"
    source := "prometheus"
    sourceIdLabel := some "instance"
    metricName := "node.cpu.saturation_pct"
    thresholds := [⟨.gt, .finite 90, "warning", "CPU saturation > 90%"⟩,
      ⟨.gt, .finite 98, "critical", "CPU saturation > 98%"⟩] },
  { name := "node_memory_pressure"
    promql := "(1 - (node_memory_MemAvailable_bytes / node_memory_MemTotal_bytes)) * 100"
    source := "prometheus"
    sourceIdLabel := some "instance"
    metricName := "node.memory.pressure_pct"
    thresholds := [⟨.gt, .finite 90, "warning", "Memory pressure > 90%"⟩] },
  { name := "node_disk_full"
    promql := "100 - ((node_filesystem_avail_bytes\x7bfstype!~\"tmpfs|overlay\"\x7d * 100) / " ++
      "node_filesystem_size_bytes\x7bfstype!~\"tmpfs|overlay\"\x7d)"
    source := "prometheus"
    sourceIdLabel := some "instance"
    metricName := "node.disk.used_pct"
    thresholds := [⟨.gt, .finite 85, "warning", "Disk usage > 85%"⟩] },
  { name := "node_nic_errors"
    promql := "rate(node_network_receive_errs_total[5m]) + rate(node_network_transmit_errs_total[5m])"
    source := "prometheus"
    sourceIdLabel := some "instance"
    metricName := "node.nic.error_rate"
    thresholds := [⟨.gt, .finite 1, "warning", "NIC error rate > 1/s"⟩] }]

structure InstantSample where
  metric : Json
  value : F64
  deriving DecidableEq

/-! ## Anomalies -/

structure AnomalyDetected where
  anomalyId : Uuid
  source : String
  sourceId : String
  severity : String
  title : String
  metricName : String
  metricValue : F64
  threshold : F64
  query : String
  targetRef : Option String
  deriving DecidableEq

namespace AnomalyDetected

def fields : List String :=
  ["anomaly_id", "source", "source_id", "severity", "title", "metric_name", "metric_value", "threshold", "query",
    "target_ref"]

def toValue (a : AnomalyDetected) : Json :=
  presentFields [("anomaly_id", some (.string a.anomalyId.hyphenated)), ("source", some (.string a.source)),
    ("source_id", some (.string a.sourceId)), ("severity", some (.string a.severity)),
    ("title", some (.string a.title)), ("metric_name", some (.string a.metricName)),
    ("metric_value", some a.metricValue.toValue), ("threshold", some a.threshold.toValue),
    ("query", some (.string a.query)), ("target_ref", a.targetRef.map .string)]

def decodeF64 (floats : Floats) : Json → Option F64
  | .number (.float q) => some (.finite q)
  | .number (.posInt n) => some (.finite (floats.round n.toNat))
  | .number (.negInt n) => some (.finite (floats.round n))
  | _ => none

def fromValue (uuids : UuidText) (floats : Floats) (value : Json) : Option AnomalyDetected :=
  match structFields fields value with
  | some [anomalyId, source, sourceId, severity, title, metricName, metricValue, threshold, query, targetRef] => do
      let anomalyId ← (anomalyId.bind Json.asStr?).bind uuids.parse
      let source ← source.bind Json.asStr?
      let sourceId ← sourceId.bind Json.asStr?
      let severity ← severity.bind Json.asStr?
      let title ← title.bind Json.asStr?
      let metricName ← metricName.bind Json.asStr?
      let metricValue ← metricValue.bind (decodeF64 floats)
      let threshold ← threshold.bind (decodeF64 floats)
      let query ← query.bind Json.asStr?
      let targetRef ← decodeOptional Json.asStr? targetRef
      return { anomalyId, source, sourceId, severity, title, metricName, metricValue, threshold, query, targetRef }
  | _ => none

end AnomalyDetected

def targetRefFromSourceId (sourceId : String) : Option String :=
  if sourceId = "" || sourceId = "default" then none
  else
    let host := String.ofList (sourceId.toList.takeWhile (· ≠ ':'))
    if host = "" then none else some ("target://" ++ host)

/-! ## One cycle -/

/-- A sample that breaches a threshold; the first threshold of the query counts. -/
structure Breach where
  query : NamedQuery
  threshold : Threshold
  sourceId : String
  value : F64
  deriving DecidableEq

def sourceIdOf (q : NamedQuery) (s : InstantSample) : String :=
  ((q.sourceIdLabel.bind fun label => s.metric.get? label).bind Json.asStr?).getD "default"

def breachOf (q : NamedQuery) (s : InstantSample) : Option Breach :=
  (q.thresholds.find? fun t => t.breaches s.value).map fun t => ⟨q, t, sourceIdOf q s, s.value⟩

/-- The breaches of a cycle, from the queries of the library with their answers; a query that fails has none. -/
def breaches (polled : List (NamedQuery × Option (List InstantSample))) : List Breach :=
  polled.flatMap fun (q, samples) => (samples.getD []).filterMap (breachOf q)

/-- What becomes of one anomaly: the id of its row, whether the row is stored, and whether its envelope is sent. -/
structure Raise where
  id : Uuid
  stored : Bool
  sent : Bool
  deriving DecidableEq

def Breach.event (b : Breach) (anomalyId : Uuid) : AnomalyDetected :=
  { anomalyId, source := b.query.source, sourceId := b.sourceId, severity := b.threshold.severity,
    title := b.threshold.title, metricName := b.query.metricName, metricValue := b.value,
    threshold := b.threshold.value, query := b.query.name, targetRef := targetRefFromSourceId b.sourceId }

def raiseAnomaly (b : Breach) (raise : Raise) : Option Json :=
  if raise.stored && raise.sent then some (b.event raise.id).toValue else none

/-- The ids of the rows a cycle stores, and the bodies of the envelopes it sends. It may stop between two anomalies. -/
def runOnce (polled : List (NamedQuery × Option (List InstantSample))) (raises : List Raise) : List Uuid × List Json :=
  let raised := (breaches polled).zip raises
  ((raised.filter fun r => r.2.stored).map fun r => r.2.id, raised.filterMap fun r => raiseAnomaly r.1 r.2)

end Daimon.Observer
