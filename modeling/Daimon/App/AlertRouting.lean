import Daimon.App.AlertRouter
import Daimon.App.Gateways

/-!
# Routing of alerts

`route`, `resolve_recipients`, `is_enrolled_active` and `record_delivery` of `daimon-app/src/alert_router.rs`. The router
routes one alert after the other; accounts and settings change between any two of its statements.
-/

namespace Daimon.App.AlertRouting
open Daimon.Core Lib
open Daimon.App.AlertRouter (Alert AlertClass)
open Daimon.App.Chat (optString)
open Daimon.App.Inbound (AlertDelivery)

structure Recipient where
  channel : String
  toHandle : String
  deriving DecidableEq, Repr

/-! ## Rules -/

def className : AlertClass → String
  | .anomaly => "anomaly"
  | .approval => "approval"

/-- `split_once(':')`. -/
def splitOnceColon (text : List Char) : Option (List Char × List Char) :=
  match text.dropWhile (· ≠ ':') with
  | [] => none
  | _ :: rest => some (text.takeWhile (· ≠ ':'), rest)

def routingRule (config : String → Option Json) (alert : Alert) : Option String :=
  (optString config ("channels.alerts." ++ className alert.alertClass ++ "." ++ alert.severity)).or
    (optString config "channels.alerts.default")

def ruleEntries (raw : String) : List String :=
  ((raw.toList.splitOn ',').map fun piece => trim (String.ofList piece)).filter (· ≠ "")

def entryRecipient (entry : String) : Option Recipient :=
  (splitOnceColon entry.toList).map fun (channel, handle) =>
    { channel := trim (String.ofList channel), toHandle := trim (String.ofList handle) }

def ruleRecipients (raw : String) : List Recipient := (ruleEntries raw).filterMap entryRecipient

/-- Whom the rule names, enrolled or not. -/
def namedRecipients (config : String → Option Json) (alert : Alert) : List Recipient :=
  match routingRule config alert with
  | none => []
  | some raw => ruleRecipients raw

/-- `query_opt` is an error where there is more than one row. -/
def isEnrolledActive (a : Accounts) (answered : Bool) (r : Recipient) : Except Unit Bool :=
  if !answered then .error ()
  else
    match a.enrolled r.channel r.toHandle with
    | [] => .ok false
    | [_] => .ok true
    | _ => .error ()

def isWelcome : Except Unit Bool → Bool
  | .ok true => true
  | _ => false

/-! ## Deliveries -/

/-- What `deliver_alert` gives back: the id of the sent message, or an error. -/
abbrev Answer := Except String (Option String)

structure DeliveryRow where
  alertClass : String
  severity : Option String
  signature : String
  channel : String
  recipient : String
  status : String
  detail : Option String
  providerMessageId : Option String
  deriving DecidableEq, Repr

def deliveryRow (alert : Alert) (r : Recipient) (answer : Answer) : DeliveryRow :=
  let (status, detail, providerMessageId) : String × Option String × Option String :=
    match answer with
    | .ok messageId => ("delivered", none, messageId)
    | .error e => ("failed", some e, none)
  { alertClass := className alert.alertClass
    severity := if alert.severity = "default" then none else some alert.severity
    signature := alert.signature
    channel := r.channel
    recipient := r.toHandle
    status, detail, providerMessageId }

/-- A row with the time of its insertion, as far as replies are looked up in it. -/
def correlationOf (row : DeliveryRow × Nat) : AlertDelivery :=
  { alertClass := row.1.alertClass, signature := row.1.signature, channel := row.1.channel,
    recipient := row.1.recipient, providerMessageId := row.1.providerMessageId, createdAt := row.2 }

/-! ## The router -/

inductive Phase where
  | resolving (todo found : List Recipient)
  | delivering (todo : List Recipient)
  | recording (row : DeliveryRow) (todo : List Recipient)
  deriving DecidableEq

/-- An alert on its way, with whom its rule named, how each was checked, and what was sent to whom. -/
structure Job where
  alert : Alert
  named : List Recipient
  checked : List (Recipient × Except Unit Bool)
  sent : List (Recipient × Answer)
  phase : Phase

structure World where
  accounts : Accounts
  config : String → Option Json
  deliveries : List (DeliveryRow × Nat)
  current : Option Job
  routed : List Job

def World.new (accounts : Accounts) (config : String → Option Json) : World :=
  { accounts, config, deliveries := [], current := none, routed := [] }

inductive Action where
  /-- The accounts become others in whatever way. -/
  | administer (accounts : Accounts)
  | configure (config : String → Option Json)
  | route (alert : Alert)
  | check (answered : Bool)
  | resolved
  /-- The adapter answers, where the channel has one. -/
  | deliver (answer : Answer)
  | record (now : Nat) (saved : Bool)
  | finish

section Step
variable (enabled : List String)

def Job.check (job : Job) (accounts : Accounts) (answered : Bool) : Option Job :=
  match job.phase with
  | .resolving (r :: todo) found =>
      let answer := isEnrolledActive accounts answered r
      let found := if isWelcome answer then found ++ [r] else found
      some { job with checked := job.checked ++ [(r, answer)], phase := .resolving todo found }
  | _ => none

def Job.resolved (job : Job) : Option Job :=
  match job.phase with
  | .resolving [] found => some { job with phase := .delivering found }
  | _ => none

def Job.deliver (job : Job) (answer : Answer) : Option Job :=
  match job.phase with
  | .delivering (r :: todo) =>
      if r.channel ∈ enabled then
        some { job with sent := job.sent ++ [(r, answer)], phase := .recording (deliveryRow job.alert r answer) todo }
      else some { job with phase := .delivering todo }
  | _ => none

/-- The row to insert, and the job after it. -/
def Job.recorded (job : Job) : Option (DeliveryRow × Job) :=
  match job.phase with
  | .recording row todo => some (row, { job with phase := .delivering todo })
  | _ => none

def step (w : World) : Action → Option World
  | .administer accounts => some { w with accounts }
  | .configure config => some { w with config }
  | .route alert =>
      match w.current with
      | none =>
          let named := namedRecipients w.config alert
          some { w with current := some ⟨alert, named, [], [], .resolving named []⟩ }
      | some _ => none
  | .check answered =>
      (w.current.bind fun job => job.check w.accounts answered).map fun job => { w with current := some job }
  | .resolved => (w.current.bind Job.resolved).map fun job => { w with current := some job }
  | .deliver answer => (w.current.bind fun job => job.deliver enabled answer).map fun job => { w with current := some job }
  | .record now saved =>
      (w.current.bind Job.recorded).map fun (row, job) =>
        { w with deliveries := if saved then w.deliveries ++ [(row, now)] else w.deliveries, current := some job }
  | .finish =>
      (w.current.filter fun job => job.phase = .delivering []).map fun job =>
        { w with current := none, routed := w.routed ++ [job] }

end Step
end Daimon.App.AlertRouting
