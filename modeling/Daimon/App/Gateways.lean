import Daimon.App.Inbound
import Daimon.App.Users
import Daimon.Lib.Run

/-!
# Gateway identities

The bindings of platform handles to users (`gateway_identities`, with its statements in `daimon-app/src/db.rs` and the
admin pages of `daimon-app/src/admin_gateways.rs`), and the inbound pipeline over them: `AppInboundHandler::handle` of
`daimon-app/src/gw.rs` as a machine, so that admins change accounts and bindings between any two steps of any number of
messages.
-/

namespace Daimon.App
open Daimon.Core Lib

structure GatewayIdentity where
  id : Uuid
  channel : String
  platformHandle : String
  userId : Uuid
  enrolledBy : Option Uuid
  deriving DecidableEq, Repr

def GatewayIdentity.key (gi : GatewayIdentity) : String × String := (gi.channel, gi.platformHandle)

/-- The directory and the bindings beside it. -/
structure Accounts where
  db : Directory
  identities : List GatewayIdentity

namespace Accounts

/-- The join of the bindings of a handle with the active users. -/
def enrolled (a : Accounts) (channel platformHandle : String) : List User :=
  (a.identities.filter fun gi => gi.key = (channel, platformHandle)).flatMap fun gi =>
    a.db.users.filter fun u => u.id = gi.userId && u.status = .active

def resolveGatewayIdentity (a : Accounts) (channel platformHandle : String) : Option Inbound.GatewayActor :=
  (a.enrolled channel platformHandle).head?.map fun u =>
    { userId := u.id, username := u.username, roles := a.db.rolesOf u.id }

/-- The INSERT with the generated `id`: the primary key, the unique key and the two references to users. -/
def createGatewayIdentity (a : Accounts) (id : Uuid) (channel platformHandle : String) (userId : Uuid)
    (enrolledBy : Option Uuid) : Option Accounts :=
  if (a.identities.any fun gi => gi.id = id || gi.key = (channel, platformHandle)) || !a.db.hasUser userId ||
      !enrolledBy.all a.db.hasUser then none
  else some { a with identities := ⟨id, channel, platformHandle, userId, enrolledBy⟩ :: a.identities }

def deleteGatewayIdentity (a : Accounts) (id : Uuid) : Accounts :=
  { a with identities := a.identities.filter fun gi => gi.id ≠ id }

/-- `lower` is `str::to_lowercase`. -/
def addGatewayBinding (lower : String → String) (a : Accounts) (id : Uuid) (channel platformHandle username : String)
    (admin : Uuid) : Except String Accounts :=
  let channel := lower (trim channel)
  let platformHandle := trim platformHandle
  let username := trim username
  if channel = "" ∨ platformHandle = "" ∨ username = "" then
    .error "channel, platform handle, and username are all required"
  else
    match a.db.findUser username with
    | none => .error ("no such user: " ++ username)
    | some row =>
        match a.createGatewayIdentity id channel platformHandle row.user.id (some admin) with
        | some after => .ok after
        | none => .error "create_gateway_identity: create_gateway_identity"

end Accounts

/-! ## The pipeline -/

namespace Gateways
open Chat Inbound
open Daimon.Gateway (InboundMessage)
open Daimon.Guard (ApprovalStatus ApprovalSubject ApprovalTable)

inductive Turn where
  | received
  | resolved (actor : GatewayActor)
  | deciding (actor : GatewayActor) (approved : Bool) (approvalId : Uuid)
  /-- What the chat turn still has to do. -/
  | running (actor : GatewayActor) (todo : List Effect)
  | finished
  deriving DecidableEq

structure Message where
  msg : InboundMessage
  turn : Turn
  deriving DecidableEq

structure World where
  accounts : Accounts
  approvals : ApprovalTable
  deliveries : List AlertDelivery
  messages : List Message
  /-- What was done for which message. -/
  log : List (Nat × Effect)

def World.new (db : Directory) : World :=
  { accounts := ⟨db, []⟩, approvals := [], deliveries := [], messages := [], log := [] }

inductive Action where
  | insertUser (id : Uuid) (username passwordHash : String)
  | setUserStatus (id : Uuid) (status : String)
  | assignRole (id : Uuid) (slug : String)
  | revokeRole (id : Uuid) (slug : String)
  | addGatewayBinding (id : Uuid) (channel platformHandle username : String) (admin : Uuid)
  | deleteGatewayBinding (id : Uuid)
  | enqueue (id : Uuid) (now : Nat) (subject : ApprovalSubject)
  /-- A decision taken in the console. -/
  | decide (id operator : Uuid) (status : ApprovalStatus) (now : Nat)
  | deliver (row : AlertDelivery)
  | receive (msg : InboundMessage)
  /-- The identity of message `i` is looked up, unless the database fails. -/
  | resolve (i : Nat) (failed : Bool)
  | read (i : Nat) (answers : InboundAnswers)
  | settle (i : Nat) (answers : InboundAnswers)
  | perform (i : Nat)

section Step
variable (uuids : UuidText) (lower : String → String)

def World.withDb (w : World) (db : Directory) : World := { w with accounts := { w.accounts with db } }

def World.turnTo (w : World) (i : Nat) (m : Message) (turn : Turn) (effects : List Effect) : World :=
  { w with messages := w.messages.set i { m with turn }, log := w.log ++ effects.map fun e => (i, e) }

/-- The lookup of the sender: it fails, finds nobody, or finds who the handle is bound to. -/
def afterLookup (channel : String) : Except Unit (Option GatewayActor) → Turn × List Effect
  | .error _ => (.finished, [.emit (.error "internal error resolving identity"), .finish])
  | .ok none => (.finished, [.emit (.error (notEnrolled channel)), .finish])
  | .ok (some actor) => (.resolved actor, [])

def chatSend (actor : GatewayActor) (msg : InboundMessage) : ChatSend :=
  { actorId := "user:" ++ actor.username, sessionId := msg.correlation.sessionId msg.channel, userMessage := msg.text,
    model := none, effort := none }

def afterRead (answers : InboundAnswers) (deliveries : List AlertDelivery) (actor : GatewayActor)
    (msg : InboundMessage) : Turn :=
  match decision uuids answers deliveries msg with
  | some (approved, approvalId) => .deciding actor approved approvalId
  | none => .running actor
      (handleChatSend answers.turn (chatSend actor msg) answers.historyOwner answers.recent).effects

def step (w : World) : Action → Option World
  | .insertUser id username passwordHash => (w.accounts.db.insertUser id username passwordHash).map w.withDb
  | .setUserStatus id status => (w.accounts.db.setUserStatus id status).map w.withDb
  | .assignRole id slug => (w.accounts.db.assignRole id slug).map w.withDb
  | .revokeRole id slug => some (w.withDb (w.accounts.db.revokeRole id slug))
  | .addGatewayBinding id channel platformHandle username admin =>
      match w.accounts.addGatewayBinding lower id channel platformHandle username admin with
      | .ok accounts => some { w with accounts }
      | .error _ => some w
  | .deleteGatewayBinding id => some { w with accounts := w.accounts.deleteGatewayIdentity id }
  | .enqueue id now subject => (w.approvals.enqueue id now subject).map fun approvals => { w with approvals }
  | .decide id operator status now =>
      match w.approvals.decide id operator status now with
      | some (approvals, _) => some { w with approvals }
      | none => some w
  | .deliver row => some { w with deliveries := row :: w.deliveries }
  | .receive msg => some { w with messages := w.messages ++ [⟨msg, .received⟩] }
  | .resolve i failed =>
      match w.messages[i]? with
      | some ⟨msg, .received⟩ =>
          let found := if failed then .error () else
            .ok (w.accounts.resolveGatewayIdentity msg.channel msg.platformHandle)
          let (turn, effects) := afterLookup msg.channel found
          some (w.turnTo i ⟨msg, .received⟩ turn effects)
      | _ => none
  | .read i answers =>
      match w.messages[i]? with
      | some ⟨msg, .resolved actor⟩ =>
          some (w.turnTo i ⟨msg, .resolved actor⟩ (afterRead uuids answers w.deliveries actor msg) [])
      | _ => none
  | .settle i answers =>
      match w.messages[i]? with
      | some ⟨msg, .deciding actor approved approvalId⟩ =>
          let handled := decideOverChat answers w.approvals actor approved approvalId
            (msg.correlation.sessionId msg.channel)
          some { w.turnTo i ⟨msg, .deciding actor approved approvalId⟩ .finished (handled.effects ++ [.finish]) with
            approvals := handled.approvals }
      | _ => none
  | .perform i =>
      match w.messages[i]? with
      | some ⟨msg, .running actor (e :: todo)⟩ =>
          some (w.turnTo i ⟨msg, .running actor (e :: todo)⟩ (.running actor todo) [e])
      | some ⟨msg, .running actor []⟩ => some (w.turnTo i ⟨msg, .running actor []⟩ .finished [])
      | _ => none

example (db : Directory) (msg : InboundMessage) :
    (step uuids lower (.new db) (.receive msg)).map World.messages = some [⟨msg, .received⟩] := by
  simp only [step, World.new, Option.map_some, List.nil_append]

end Step
end Gateways
end Daimon.App
