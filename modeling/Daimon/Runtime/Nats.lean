import Daimon.Core.Uuid
import Daimon.Driver.Reply
import Daimon.Lib.Serde
import Daimon.Runtime.Bus

/-!
# The NATS bus

Envelopes as `daimon-runtime/src/nats_bus.rs` puts them on the wire and its forwarder reads them, with the fields that
the in-process bus never looks at (`daimon-core/src/envelope.rs`). An internally tagged enum is written as an object
with its tag among the fields of the variant; a newtype variant around a string has no such object.
-/

namespace Daimon.Runtime.Nats
open Daimon.Core Lib
open Daimon.Driver (presentFields)
open Daimon.Driver.NetworkResponse (structFields decodeOptional)

structure AuditMetadata where
  ts : Int
  parentCorrelationId : Option Uuid
  deriving DecidableEq

structure Envelope (sv : Semver) extends AgentEnvelope sv where
  replyTo : Option AgentId
  audit : AuditMetadata
  deriving DecidableEq

variable {sv : Semver} {Text : Type} (texts : JsonText Text) (times : TimeText) (uuids : UuidText)

namespace Envelope

def reply (request : Envelope sv) (sender : AgentId) (body : Json) (now : Int) : Envelope sv :=
  { request.toAgentEnvelope.replyTo sender body with replyTo := none, audit := ⟨now, none⟩ }

/-! ## Writing -/

def recipientValue : Recipient sv → Except String Json
  | .direct _ => .error "cannot serialize tagged newtype variant Recipient::Direct containing a string"
  | .byCapability name versionReq =>
      .ok (Json.ofFields [("kind", .string "by_capability"), ("name", .string name),
        ("version_req", .string (sv.display versionReq))])

def auditValue (audit : AuditMetadata) : Json :=
  presentFields [("ts", some (.string (times.display audit.ts))),
    ("parent_correlation_id", audit.parentCorrelationId.map fun id => .string id.hyphenated)]

def toValue (env : Envelope sv) : Except String Json :=
  (recipientValue env.recipient).map fun recipient =>
    presentFields [("correlation_id", some (.string env.correlationId.hyphenated)),
      ("from", some (.string env.sender.name)), ("to", some recipient),
      ("reply_to", env.replyTo.map fun id => .string id.name), ("body", some env.body),
      ("audit", some (auditValue times env.audit))]

/-! ## Reading -/

def decodeUuid (value : Json) : Option Uuid := value.asStr?.bind uuids.parse

def byCapability (name versionReq : Option Json) : Option (Recipient sv) := do
  let name ← name.bind Json.asStr?
  let versionReq ← (versionReq.bind Json.asStr?).bind fun text => (sv.parse text).toOption
  return .byCapability name versionReq

/-- The variant `direct` wants a string where the tag has left an object or an array. -/
def decodeRecipient : Json → Option (Recipient sv)
  | .object fields =>
      if fields.lookup "kind" = some (.string "by_capability") then
        byCapability (fields.lookup "name") (fields.lookup "version_req")
      else none
  | .array [kind, name, versionReq] =>
      if kind = .string "by_capability" then byCapability (some name) (some versionReq) else none
  | _ => none

def decodeAudit (value : Json) : Option AuditMetadata :=
  match structFields ["ts", "parent_correlation_id"] value with
  | some [ts, parent] => do
      let ts ← (ts.bind Json.asStr?).bind times.parse
      let parentCorrelationId ← decodeOptional (decodeUuid uuids) parent
      return { ts, parentCorrelationId }
  | _ => none

def fromValue (value : Json) : Option (Envelope sv) :=
  match structFields ["correlation_id", "from", "to", "reply_to", "body", "audit"] value with
  | some [correlationId, sender, recipient, replyTo, body, audit] => do
      let correlationId ← correlationId.bind (decodeUuid uuids)
      let sender ← sender.bind Json.asStr?
      let recipient ← recipient.bind decodeRecipient
      let replyTo ← decodeOptional Json.asStr? replyTo
      let body ← body
      let audit ← audit.bind (decodeAudit times uuids)
      return { correlationId, sender := ⟨sender⟩, recipient, body, replyTo := replyTo.map AgentId.mk, audit }
  | _ => none

end Envelope

inductive CoreError where
  | busSend (message : String)
  deriving DecidableEq, Repr

/-- What `send` publishes on the subject. -/
def send (env : Envelope sv) : Except CoreError Text :=
  match env.toValue times with
  | .error e => .error (.busSend ("encode envelope: " ++ e))
  | .ok value => .ok (texts.encode value)

/-- What the forwarder puts on the mirror: a payload that does not decode is dropped. -/
def forward (payload : Text) : Option (Envelope sv) :=
  match texts.decode payload with
  | .error _ => none
  | .ok value => Envelope.fromValue times uuids value

/-- What the subscribers get of an envelope sent on this bus; on the in-process bus it is the envelope itself. -/
def delivered (env : Envelope sv) : Option (Envelope sv) :=
  (send texts times env).toOption.bind (forward texts times uuids)

end Daimon.Runtime.Nats
