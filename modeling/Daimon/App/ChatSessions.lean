import Daimon.App.Conversation
import Daimon.App.Iam

/-!
# Chat sessions

`load_chat_session` and `delete_chat_session` (`daimon-app/src/admin_chat_sessions.rs`) on the durable tables and on a
backend of the working memory, beside the writes of chat turns and the pruning of old sessions.
-/

namespace Daimon.App.Chat
open Daimon.Core Lib

/-! ## The durable tables -/

structure Tables where
  chatSessions : String → Option ChatSession
  chatTurns : List ChatTurn

def World.tables (w : World) : Tables := ⟨w.chatSessions, w.chatTurns⟩

namespace Tables

def new : Tables := ⟨fun _ => none, []⟩

def appendChatTurn (t : Tables) (outcome : Appended) (ownerId : Uuid) (turn : ChatTurn) : Tables :=
  let w : World := ⟨fun _ => none, fun _ => .new, t.chatSessions, t.chatTurns⟩
  (w.appendChatTurn outcome ownerId turn).tables

/-- The turns of a session go with it. -/
def deleteSession (t : Tables) (sessionId : String) : Tables where
  chatSessions := Function.update t.chatSessions sessionId none
  chatTurns := t.chatTurns.filter fun turn => turn.sessionId ≠ sessionId

/-- In the order of their ids. -/
def turnsOf (t : Tables) (sessionId : String) : List ChatTurn := t.chatTurns.filter fun turn => turn.sessionId = sessionId

end Tables

/-- What becomes of the statements of a call: a connection, the lookup of the owner, a connection, the call's own. -/
structure Statements where
  ownerPool : Except String Unit
  ownerLookup : Except String Unit
  pool : Except String Unit
  statement : Except String Unit

def failing (site : String) (result : Except String Unit) : Except String Unit := result.mapError (site ++ ·)

def sessionOwner (t : Tables) (db : Statements) (sessionId : String) : Except String (Option Uuid) := do
  failing "pool: " db.ownerPool
  failing "owner lookup: " db.ownerLookup
  return (t.chatSessions sessionId).map ChatSession.ownerId

/-! ## Loading -/

structure ChatTurnDto where
  role : String
  content : String
  toolUseId : Option String
  deriving DecidableEq, Repr

def ChatTurn.dto (turn : ChatTurn) : ChatTurnDto := ⟨turn.role, turn.content, turn.toolUseId⟩

def loadLimit : Nat := 500

def loadChatSession (t : Tables) (authenticated : Except String Claims) (db : Statements) (sessionId : String) :
    Except String (List ChatTurnDto) := do
  let claims ← authenticated
  match ← sessionOwner t db sessionId with
  | some owner =>
      let isOwner := owner = claims.userId
      let readOverride := claims.roles.any fun r => r = "admin" || r = "auditor"
      if ¬ isOwner ∧ ¬ readOverride then throw "not authorized for this session"
      failing "pool: " db.pool
      failing "load turns: " db.statement
      return ((t.turnsOf sessionId).take loadLimit).map ChatTurn.dto
  | none => return []

/-! ## Deleting -/

/-- A backend of the working memory: an operation at a time. -/
abbrev Memory (σ : Type) := σ → Nat → Redis.Op → σ × Redis.Answer

structure Tiers (σ : Type) where
  memory : σ
  tables : Tables

section Tiers
variable {σ : Type} (memory : Memory σ)

/-- The wipe of the hot copy is tried at a time, if the working memory can be reached then; its outcome is ignored. -/
def deleteChatSession (tiers : Tiers σ) (authenticated : Except String Claims) (db : Statements) (wipe : Option Nat)
    (sessionId : String) : Tiers σ × Except String Unit :=
  let checked : Except String Unit := do
    let claims ← authenticated
    if let some owner := ← sessionOwner tiers.tables db sessionId then
      let isOwner := owner = claims.userId
      let isAdmin := claims.roles.any fun r => r = "admin"
      if ¬ isOwner ∧ ¬ isAdmin then throw "not authorized to delete this session"
    failing "pool: " db.pool
    failing "delete session: " db.statement
  match checked with
  | .error e => (tiers, .error e)
  | .ok () =>
      let wiped := match wipe with
        | some now => (memory tiers.memory now (.kvDelete "chat" sessionId)).1
        | none => tiers.memory
      (⟨wiped, tiers.tables.deleteSession sessionId⟩, .ok ())

/-- What happens to the tiers, by any component. -/
inductive Change where
  | memory (now : Nat) (op : Redis.Op)
  | append (outcome : Appended) (ownerId : Uuid) (turn : ChatTurn)
  | delete (authenticated : Except String Claims) (db : Statements) (wipe : Option Nat) (sessionId : String)
  /-- `prune_chat_history` finds a session too old. -/
  | prune (sessionId : String)

def Tiers.change (tiers : Tiers σ) : Change → Tiers σ
  | .memory now op => { tiers with memory := (memory tiers.memory now op).1 }
  | .append outcome ownerId turn => { tiers with tables := tiers.tables.appendChatTurn outcome ownerId turn }
  | .delete authenticated db wipe sessionId => (deleteChatSession memory tiers authenticated db wipe sessionId).1
  | .prune sessionId => { tiers with tables := tiers.tables.deleteSession sessionId }

end Tiers
end Daimon.App.Chat
