import Daimon.Lib.Run
import Daimon.Observer.Ingest

/-!
# The alert router

`spawn_alert_router` of `daimon-app/src/alert_router.rs` with a channel enabled, up to the call of `route`, and the
observer that feeds it. Envelopes reach the router in any order, and it may lose some; what it reads of an envelope is
the body. Times are in nanoseconds.
-/

namespace Daimon.App.AlertRouter
open Daimon.Core Lib Observer

structure AlertBody where
  title : String
  body : String
  deriving DecidableEq, Repr

inductive AlertClass where
  | anomaly
  | approval
  deriving DecidableEq, Repr

structure Alert where
  alertClass : AlertClass
  severity : String
  signature : String
  body : AlertBody
  deriving DecidableEq, Repr

def dedupTtl : Nat := 300 * 1000000000

section Classify
variable (uuids : UuidText) (floats : Floats)

def displayF64 : F64 → String
  | .finite q => floats.display q
  | .infinite negative => if negative then "-inf" else "inf"
  | .nan => "NaN"

def anomalyAlert (a : AnomalyDetected) : Alert :=
  { alertClass := .anomaly
    severity := a.severity
    signature := a.anomalyId.hyphenated
    body := {
      title := "⚠ anomaly · " ++ a.severity
      body := a.title ++ "\nmetric " ++ a.metricName ++ " = " ++ displayF64 floats a.metricValue ++ " (threshold " ++
        displayF64 floats a.threshold ++ ")\ntarget " ++ a.targetRef.getD a.sourceId } }

def classifyApproval (body : Json) : Option Alert :=
  match body with
  | .object _ =>
      let text (key : String) := (body.get? key).bind Json.asStr?
      if text "kind" ≠ some "awaiting_approval" then none
      else (text "approval_id").map fun approvalId =>
        { alertClass := .approval
          severity := "default"
          signature := approvalId
          body := {
            title := "🔐 approval required"
            body := (text "capability").getD "?" ++ " on " ++ (text "target_ref").getD "-" ++ " (requested by " ++
              (text "actor").getD "?" ++ ")\nReply `approve " ++ approvalId ++ "` or `deny " ++ approvalId ++
              "` to decide." } }
  | _ => none

def classify (body : Json) : Option Alert :=
  match AnomalyDetected.fromValue uuids floats body with
  | some a => some (anomalyAlert floats a)
  | none => classifyApproval body

end Classify

/-! ## Deduplication -/

abbrev DedupCache := List (String × Nat)

def DedupCache.admitSignature (seen : DedupCache) (now : Nat) (sig : String) : DedupCache × Bool :=
  let seen := seen.filter fun entry => now - entry.2 < dedupTtl
  match seen.lookup sig with
  | some t => if now - t < dedupTtl then (seen, false) else ((sig, now) :: seen, true)
  | none => ((sig, now) :: seen, true)

/-! ## The observer and the router -/

structure Reception where
  now : Nat
  body : Json
  alert : Alert
  routed : Bool
  deriving DecidableEq

structure World where
  /-- The ids of `observer.anomalies`. -/
  rows : List Uuid
  /-- The ids of the approvals that were announced. -/
  approvals : List String
  bus : List Json
  seen : DedupCache
  clock : Nat
  /-- The latest reception is first. -/
  log : List Reception

def World.new : World := ⟨[], [], [], [], 0, []⟩

inductive Label where
  | cycle (polled : List (NamedQuery × Option (List InstantSample))) (raises : List Raise)
  /-- An envelope of another sender, which is no anomaly. -/
  | announce (body : Json)
  | receive (i now : Nat)
  | lag (i : Nat)

section Step
variable (uuids : UuidText) (floats : Floats)

/-- The database gives a row an id that nothing else has. -/
def fresh (w : World) (ids : List Uuid) : Bool :=
  ids.Nodup && ids.all fun id => decide (id ∉ w.rows) && decide (id.hyphenated ∉ w.approvals)

def receive (w : World) (now : Nat) (body : Json) : World :=
  match classify uuids floats body with
  | none => w
  | some alert =>
      let (seen, routed) := w.seen.admitSignature now alert.signature
      { w with seen, log := ⟨now, body, alert, routed⟩ :: w.log }

def step (w : World) : Label → Option World
  | .cycle polled raises =>
      let (ids, sent) := runOnce polled raises
      if fresh w ids then some { w with rows := w.rows ++ ids, bus := w.bus ++ sent } else none
  | .announce body =>
      if AnomalyDetected.fromValue uuids floats body = none then
        match classifyApproval body with
        | none => some { w with bus := w.bus ++ [body] }
        | some alert =>
            if alert.signature ∈ w.rows.map Uuid.hyphenated then none
            else some { w with approvals := alert.signature :: w.approvals, bus := w.bus ++ [body] }
      else none
  | .receive i now =>
      match w.bus[i]? with
      | some body =>
          if w.clock ≤ now then some (receive uuids floats { w with bus := w.bus.eraseIdx i, clock := now } now body)
          else none
      | none => none
  | .lag i => if i < w.bus.length then some { w with bus := w.bus.eraseIdx i } else none

end Step
end Daimon.App.AlertRouter
