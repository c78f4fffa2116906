import Daimon.App.Chat
import Daimon.Core.Uuid
import Daimon.Gateway.Message
import Daimon.Guard.Approvals

/-!
# Inbound messages

`AppInboundHandler` of `daimon-app/src/gw.rs`: who sent a message, whether it decides an approval, and otherwise the chat
turn it starts; with `resolve_approval_by_reply` of `daimon-app/src/db.rs`.
-/

namespace Daimon.App.Inbound
open Daimon.Core Lib Chat
open Daimon.Gateway (InboundMessage)
open Daimon.Guard (ApprovalStatus ApprovalTable)
open Daimon.Redis (ConvMessage)

structure GatewayActor where
  userId : Uuid
  username : String
  roles : List String
  deriving DecidableEq, Repr

structure AlertDelivery where
  alertClass : String
  signature : String
  channel : String
  /-- The chat the alert was sent to. -/
  recipient : String
  providerMessageId : Option String
  createdAt : Nat
  deriving DecidableEq, Repr

/-- Of the rows of one time the scan gives the first. -/
def newest : List AlertDelivery → Option AlertDelivery
  | [] => none
  | row :: rest =>
      match newest rest with
      | none => some row
      | some other => if row.createdAt < other.createdAt then some other else some row

def repliedTo (channel providerMessageId : String) (row : AlertDelivery) : Bool :=
  row.channel = channel && row.providerMessageId = some providerMessageId && row.alertClass = "approval"

def resolveApprovalByReply (uuids : UuidText) (deliveries : List AlertDelivery)
    (channel providerMessageId : String) : Option Uuid :=
  (newest (deliveries.filter (repliedTo channel providerMessageId))).bind fun row => uuids.parse row.signature

/-! ## Decisions in a text -/

def parseApprovalCommand (uuids : UuidText) (text : String) : Option (Bool × Uuid) := do
  let (verb, rest) ← splitOnceWhitespace (trim text).toList
  let approved ← match toAsciiLowercase (String.ofList verb) with
    | "approve" | "/approve" => some true
    | "deny" | "/deny" => some false
    | _ => none
  let id ← uuids.parse (trim (String.ofList rest))
  return (approved, id)

def parseBareDecision (text : String) : Option Bool := do
  let cleaned := [' '].intercalate ((lines text).filter fun l => (l.dropWhile isWhitespace).head? ≠ some '>')
  let first ← firstWord cleaned
  match toAsciiLowercase (String.ofList first) with
  | "approve" | "/approve" | "approved" => some true
  | "deny" | "/deny" | "denied" => some false
  | _ => none

/-! ## The handler -/

/-- What the databases, the guard and the turn answer while one message is handled. -/
structure InboundAnswers where
  identity : Except String (Option GatewayActor)
  /-- The lookup of the replied-to message reached the database. -/
  lookupReached : Bool
  guard : Bool
  /-- The database time of the decision; none if the statement failed. -/
  decidedAt : Option Nat
  turn : Answers
  historyOwner : Option Uuid
  recent : Except String (List ConvMessage)

structure Handled where
  effects : List Effect
  approvals : ApprovalTable

def GatewayActor.isApprover (actor : GatewayActor) : Bool := actor.roles.any fun r => r = "approver" || r = "admin"

def reply (sessionId text : String) : Effect := .emit (.tokenDelta sessionId text)

def decideOverChat (answers : InboundAnswers) (approvals : ApprovalTable) (actor : GatewayActor) (approved : Bool)
    (approvalId : Uuid) (sessionId : String) : Handled :=
  if !actor.isApprover then
    ⟨[reply sessionId "🚫 Not authorized: approving requires the `approver` or `admin` role."], approvals⟩
  else if !answers.guard then ⟨[reply sessionId "internal error: no guard configured"], approvals⟩
  else
    let status := if approved then ApprovalStatus.approved else .denied
    let call := Effect.decide approvalId actor.userId status
    match answers.decidedAt.bind fun now => approvals.decide approvalId actor.userId status now with
    | some (after, _) =>
        let verb := if approved then "✅ Approved" else "🛑 Denied"
        ⟨[call, reply sessionId (verb ++ " approval `" ++ approvalId.hyphenated ++ "`.")], after⟩
    | none =>
        ⟨[call, reply sessionId ("No pending approval `" ++ approvalId.hyphenated ++
          "` (already decided, expired, or unknown id).")], approvals⟩

def replyDecision (uuids : UuidText) (answers : InboundAnswers) (deliveries : List AlertDelivery)
    (msg : InboundMessage) : Option (Bool × Uuid) := do
  let replyId ← msg.replyToMessageId
  let approved ← parseBareDecision msg.text
  let approvalId ← if answers.lookupReached then resolveApprovalByReply uuids deliveries msg.channel replyId else none
  return (approved, approvalId)

def decision (uuids : UuidText) (answers : InboundAnswers) (deliveries : List AlertDelivery) (msg : InboundMessage) :
    Option (Bool × Uuid) :=
  match replyDecision uuids answers deliveries msg with
  | some decided => some decided
  | none => parseApprovalCommand uuids msg.text

def notEnrolled (channel : String) : String :=
  "Not authorized: your " ++ channel ++ " identity is not enrolled with daimon. Ask an admin to bind your handle."

def handle (uuids : UuidText) (answers : InboundAnswers) (deliveries : List AlertDelivery) (approvals : ApprovalTable)
    (msg : InboundMessage) : Handled :=
  match answers.identity with
  | .error _ => ⟨[.emit (.error "internal error resolving identity"), .finish], approvals⟩
  | .ok none => ⟨[.emit (.error (notEnrolled msg.channel)), .finish], approvals⟩
  | .ok (some actor) =>
      let actorId := "user:" ++ actor.username
      let sessionId := msg.correlation.sessionId msg.channel
      match decision uuids answers deliveries msg with
      | some (approved, approvalId) =>
          let decided := decideOverChat answers approvals actor approved approvalId sessionId
          { decided with effects := decided.effects ++ [.finish] }
      | none =>
          let send := { actorId, sessionId, userMessage := msg.text, model := none, effort := none }
          ⟨(handleChatSend answers.turn send answers.historyOwner answers.recent).effects, approvals⟩

end Daimon.App.Inbound
