import Daimon.App.Chat

/-!
# Conversations

The two tiers that a chat turn writes to: the working memory of `daimon-redis`, keyed by session, and the durable history
of `chat_sessions` and `chat_turns` (`daimon-app/src/db.rs`), where a session has an owner. A turn reads the working
memory once, before it writes, so a turn is `handleChatSend` followed by the writes it names, in their order.
-/

namespace Daimon.App.Chat
open Daimon.Core Lib
open Daimon.Redis (ConvMessage)

/-! ## Working memory -/

/-- Where the working memory is kept: Redis gives a conversation a deadline at each push, and does not bring back what it
has dropped; the in-process map keeps everything. -/
structure Backend where
  expires : Bool
  gone : (deadline now : Nat) → Bool
  kept : ∀ {deadline now}, now < deadline → gone deadline now = false
  lasting : ∀ {deadline now later}, now ≤ later → gone deadline now = true → gone deadline later = true

namespace Backend

def inProc : Backend := ⟨false, fun _ _ => false, fun _ => rfl, fun _ => id⟩

def redis (server : Redis.Server)
    (lasting : ∀ {deadline now later}, now ≤ later → server.gone deadline now = true →
      server.gone deadline later = true) : Backend :=
  ⟨true, server.gone, server.kept, lasting⟩

end Backend

structure Conversation where
  messages : List ConvMessage
  deadline : Option Nat
  deriving DecidableEq, Repr

/-- What became of the two commands of a push. -/
inductive Pushed where
  | stored
  /-- The message is stored, but the deadline is not renewed. -/
  | unrenewed
  | lost
  deriving DecidableEq, Repr

namespace Conversation
variable (backend : Backend)

def new : Conversation := ⟨[], none⟩

def current (now : Nat) (c : Conversation) : Conversation :=
  if c.deadline.any fun deadline => backend.gone deadline now then new else c

def convRecent (now n : Nat) (c : Conversation) : List ConvMessage :=
  let list := (c.current backend now).messages
  list.drop (list.length - n)

def convPush (now : Nat) (msg : ConvMessage) (c : Conversation) : Pushed → Conversation
  | .lost => c
  | .unrenewed =>
      let c := c.current backend now
      ⟨c.messages ++ [msg], c.deadline⟩
  | .stored =>
      let c := c.current backend now
      ⟨c.messages ++ [msg], if backend.expires then some (now + 86400 * 1000000000) else c.deadline⟩

end Conversation

/-! ## Durable history -/

structure ChatSession where
  ownerId : Uuid
  title : String
  deriving DecidableEq, Repr

structure ChatTurn where
  sessionId : String
  role : String
  content : String
  toolUseId : Option String
  deriving DecidableEq, Repr

/-- What became of the two statements of `append_chat_turn`. -/
inductive Appended where
  | done
  /-- The session is written, the turn is not. -/
  | sessionOnly
  | lost
  deriving DecidableEq, Repr

structure World where
  users : String → Option Uuid
  working : String → Conversation
  chatSessions : String → Option ChatSession
  chatTurns : List ChatTurn

def World.new (users : String → Option Uuid) : World := ⟨users, fun _ => .new, fun _ => none, []⟩

def userIdForActor (users : String → Option Uuid) (actorId : String) : Option Uuid :=
  let username := if "user:".toList.isPrefixOf actorId.toList then String.ofList (actorId.toList.drop 5) else actorId
  users username

namespace World

def insertTurn (w : World) (turn : ChatTurn) : Appended → World
  | .done => { w with chatTurns := w.chatTurns ++ [turn] }
  | .sessionOnly | .lost => w

/-- A new session takes its title from a turn of the user; the session of another user refuses the turn. -/
def appendChatTurn (w : World) (outcome : Appended) (ownerId : Uuid) (turn : ChatTurn) : World :=
  if outcome = .lost then w
  else
    match w.chatSessions turn.sessionId with
    | none =>
        let title := if turn.role = "user" then String.ofList (turn.content.toList.take 60) else ""
        { w with chatSessions := Function.update w.chatSessions turn.sessionId (some ⟨ownerId, title⟩) }
          |>.insertTurn turn outcome
    | some session => if session.ownerId = ownerId then w.insertTurn turn outcome else w

end World

/-! ## Turns -/

structure Moment where
  now : Nat
  ts : Int
  pushed : Pushed
  appended : Appended
  deriving DecidableEq, Repr

/-- The stores during one turn: whether the lookup of the user is answered, when the conversation is read, and a moment
for each effect. -/
structure Stores where
  userAnswered : Bool
  readAt : Nat
  readError : Option String
  moments : Nat → Moment
  ordered : ∀ i, readAt ≤ (moments i).now

namespace World
variable (backend : Backend)

def perform (sessionId : String) (w : World) (moment : Moment) : Effect → World
  | .append owner role content toolUseId =>
      w.appendChatTurn moment.appended owner ⟨sessionId, role, content, toolUseId⟩
  | .push role content toolUseId =>
      let msg := ⟨role, content, toolUseId, moment.ts⟩
      let pushed := (w.working sessionId).convPush backend moment.now msg moment.pushed
      { w with working := Function.update w.working sessionId pushed }
  | _ => w

def performAll (sessionId : String) (moments : Nat → Moment) : Nat → World → List Effect → World
  | _, w, [] => w
  | i, w, effect :: rest => performAll sessionId moments (i + 1) (w.perform backend sessionId (moments i) effect) rest

def recent (w : World) (send : ChatSend) (stores : Stores) : Except String (List ConvMessage) :=
  match stores.readError with
  | some e => .error e
  | none => .ok ((w.working send.sessionId).convRecent backend stores.readAt 64)

def historyOwner (w : World) (send : ChatSend) (stores : Stores) : Option Uuid :=
  if stores.userAnswered then userIdForActor w.users send.actorId else none

def turn (w : World) (send : ChatSend) (answers : Answers) (stores : Stores) : Outcome :=
  handleChatSend answers send (w.historyOwner send stores) (w.recent backend send stores)

end World

inductive Event where
  | chatSend (send : ChatSend) (answers : Answers) (stores : Stores)
  /-- `delete_chat_session` and `prune_chat_history`; the turns of a session go with it. -/
  | forget (sessionId : String)

def step (backend : Backend) (w : World) : Event → Option World
  | .chatSend send answers stores =>
      some (w.performAll backend send.sessionId stores.moments 0 (w.turn backend send answers stores).effects)
  | .forget sessionId => some { w with
      chatSessions := Function.update w.chatSessions sessionId none
      chatTurns := w.chatTurns.filter fun turn => turn.sessionId ≠ sessionId }

end Daimon.App.Chat
