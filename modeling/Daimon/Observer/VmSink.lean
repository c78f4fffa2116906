import Daimon.Observer.Ingest

/-!
# The VictoriaMetrics sink

`VictoriaMetricsSink` (`daimon-observer/src/vm_sink.rs`) and the point that it takes (`sink.rs`). What the server
answers, and how other crates write JSON, is a parameter.
-/

namespace Daimon.Observer
open Lib

/-- A `DateTime<Utc>`, in nanoseconds from the epoch. Its milliseconds are an `i64`. -/
structure DateTime where
  nanos : Int
  inRange : -0x8000000000000000 ≤ nanos / 1000000 ∧ nanos / 1000000 < 0x8000000000000000

def DateTime.timestampMillis (t : DateTime) : Int := t.nanos / 1000000

structure MetricPoint where
  ts : DateTime
  source : String
  sourceId : String
  name : String
  value : F64
  labels : Json

/-! ## Rendering -/

def sanitizeMetricName (s : String) : String :=
  let out := s.toList.mapIdx fun i c =>
    let ok := c.isAlphanum || c == '_'
    let ok := if i = 0 then ok && !c.isDigit else ok
    if ok then c else '_'
  if out = [] then "unnamed" else String.ofList out

def sanitizeLabelName (s : String) : String := sanitizeMetricName s

def pushEscaped (out : String) (c : Char) : String :=
  match c with
  | '\\' => out ++ "\\\\"
  | '"' => out ++ "\\\""
  | '\n' => out ++ "\\n"
  | other => out.push other

def writeLabel (out key value : String) (first : Bool) : String :=
  let out := if first then out else out.push ','
  (value.toList.foldl pushEscaped (out ++ key ++ "=\"")).push '"'

section Render
variable (floats : Floats) (json : Json → String)

/-- The text of a label, or none where the field is passed over. -/
def labelValue : Json → Option String
  | .string s => some s
  | .null => none
  | other => some (json other)

def writeLabels (out : String) : Json → String
  | .object fields => fields.foldl (fun out field =>
      match labelValue json field.2 with
      | some v => writeLabel out (sanitizeLabelName field.1) v false
      | none => out) out
  | _ => out

def renderValue : F64 → String
  | .finite q => floats.display q
  | .nan => "NaN"
  | .infinite negative => if negative then "-Inf" else "+Inf"

def renderPoint (p : MetricPoint) (out : String) : String :=
  let out := (out ++ sanitizeMetricName p.name).push '{'
  let out := writeLabel out "source" p.source true
  let out := writeLabel out "source_id" p.sourceId false
  let out := ((writeLabels json out p.labels).push '}').push ' '
  let out := (out ++ renderValue floats p.value).push ' '
  (out ++ toString p.ts.timestampMillis).push '\n'

end Render

/-! ## Pushing -/

structure VictoriaMetricsSink where
  baseUrl : String
  deriving DecidableEq, Repr

structure IngestRequest where
  url : String
  contentType : String
  body : String
  deriving DecidableEq, Repr

/-- An answer of the server; its body may fail to arrive. -/
structure IngestResponse where
  status : Nat
  text : Option String
  deriving DecidableEq, Repr

namespace VictoriaMetricsSink

def new (baseUrl : String) : VictoriaMetricsSink where
  baseUrl := String.ofList (baseUrl.toList.reverse.dropWhile fun c => c == '/').reverse

def ingestUrl (sink : VictoriaMetricsSink) : String := sink.baseUrl ++ "/api/v1/import/prometheus"

/-- The request, if one is sent, and the result; an error is an `Error::Other`. -/
def pushBatch (floats : Floats) (json : Json → String) (sink : VictoriaMetricsSink)
    (send : IngestRequest → Except String IngestResponse) (points : List MetricPoint) :
    Option IngestRequest × Except String Unit :=
  if points = [] then (none, .ok ())
  else
    let body := points.foldl (fun body p => renderPoint floats json p body) ""
    let request : IngestRequest := { url := sink.ingestUrl, contentType := "text/plain; charset=utf-8", body }
    (some request, match send request with
      | .error e => .error ("vm ingest send: " ++ e)
      | .ok resp =>
          if 200 ≤ resp.status ∧ resp.status ≤ 299 then .ok ()
          else .error ("vm ingest " ++ toString resp.status ++ " from " ++ sink.ingestUrl ++ ": " ++
            String.ofList ((resp.text.getD "").toList.take 200)))

end VictoriaMetricsSink
end Daimon.Observer
