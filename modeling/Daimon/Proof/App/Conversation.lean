import Daimon.App.Conversation
import Daimon.Lib.Run
import Daimon.Proof.App.Turn
import Daimon.Proof.Redis.Substitution

/-!
# Turns on the stores

That both backends of the working memory keep conversations as the model says, and what the effects of a turn leave in
them.
-/

namespace Daimon.Proof.App
open Daimon.Core Daimon.App.Chat Lib
open Daimon.Redis (ConvMessage Server Keyspace Stored)
open Daimon.Redis.RedisWorkingMemory (convKey)

/-! ## The backends -/

section Backends
variable {Text : Type} {texts : JsonText Text} {times : TimeText} {now : Nat} {sessionId : String} {c : Conversation}

theorem inProc_recent (inner : Redis.Inner) (held : inner.conv sessionId = c.messages) (n : UInt64) :
    (Redis.InProc.step inner now (.convRecent sessionId n)).2 =
      .messages (c.convRecent .inProc now n.toNat) := by
  have kept : c.current .inProc now = c := by simp [Conversation.current, Backend.inProc]
  simp [Redis.InProc.step, Conversation.convRecent, kept, held]

theorem inProc_push (inner : Redis.Inner) (held : inner.conv sessionId = c.messages) (msg : ConvMessage) :
    (Redis.InProc.step inner now (.convPush sessionId msg)).1.conv sessionId =
      (c.convPush .inProc now msg .stored).messages := by
  have kept : c.current .inProc now = c := by simp [Conversation.current, Backend.inProc]
  simp [Redis.InProc.step, Conversation.convPush, kept, held]

/-- The keyspace holds a conversation as a list under its key, and no list for no messages. -/
def Holds (texts : JsonText Text) (times : TimeText) (ks : Keyspace Text) (sessionId : String) (c : Conversation) : Prop :=
  ks (convKey sessionId) =
    if c.messages = [] then none
    else some ⟨.list (c.messages.map fun m => texts.encode (m.toValue times)), c.deadline⟩

variable {server : Server}
  {lasting : ∀ {deadline now later}, now ≤ later → server.gone deadline now = true → server.gone deadline later = true}

theorem lookup_of_holds {ks : Keyspace Text} (holds : Holds texts times ks sessionId c) :
    server.lookup ks now (convKey sessionId) =
      if (c.current (.redis server lasting) now).messages = [] then none
      else some ⟨.list ((c.current (.redis server lasting) now).messages.map fun m => texts.encode (m.toValue times)),
        (c.current (.redis server lasting) now).deadline⟩ := by
  have alive : (c.deadline.all fun deadline => !server.gone deadline now) =
      !c.deadline.any fun deadline => server.gone deadline now := by cases c.deadline <;> simp
  rw [Server.lookup, holds]
  cases gone : c.deadline.any fun deadline => server.gone deadline now with
  | true =>
      have dropped : c.current (.redis server lasting) now = .new := by
        simp [Conversation.current, Backend.redis, gone]
      rw [dropped]
      split <;> simp [Conversation.new, alive, gone]
  | false =>
      have kept : c.current (.redis server lasting) now = c := by
        simp [Conversation.current, Backend.redis, gone]
      rw [kept]
      split <;> simp [alive, gone]

theorem current_alive : ((c.current (.redis server lasting) now).deadline.all fun d => !server.gone d now) = true := by
  cases gone : c.deadline.any fun deadline => server.gone deadline now with
  | true => simp [Conversation.current, Backend.redis, gone, Conversation.new]
  | false => cases deadline : c.deadline <;> simp_all [Conversation.current, Backend.redis]

theorem redis_push {ks : Keyspace Text} (holds : Holds texts times ks sessionId c)
    (msg : ConvMessage) :
    Holds texts times (Redis.RedisWorkingMemory.step server texts times ks now (.convPush sessionId msg)).1 sessionId
      (c.convPush (.redis server lasting) now msg .stored) := by
  have found := @lookup_of_holds _ _ _ now _ _ server lasting _ holds
  have alive := @current_alive now c server lasting
  simp only [Redis.RedisWorkingMemory.step, Server.rpush, found, Holds]
  by_cases none : (c.current (.redis server lasting) now).messages = []
  · simp only [none, if_true]
    rw [Redis.expire_update _ rfl]
    simpa [Conversation.convPush, Backend.redis] using none
  · simp only [none, if_false]
    rw [Redis.expire_update _ alive]
    simp [Conversation.convPush, Backend.redis]

theorem redis_recent {ks : Keyspace Text} (holds : Holds texts times ks sessionId c) (few : c.messages.length < 0x100000000)
    {n : UInt64} (positive : n.toNat < 0x8000000000000000) :
    (Redis.RedisWorkingMemory.step server texts times ks now (.convRecent sessionId n)).2 =
      .messages (c.convRecent (.redis server lasting) now n.toNat) := by
  have found := @lookup_of_holds _ _ _ now _ _ server lasting _ holds
  by_cases none : (c.current (.redis server lasting) now).messages = []
  · rw [if_pos none] at found
    rw [Redis.redis_recent_absent found]
    simp [Conversation.convRecent, none]
  · rw [if_neg none] at found
    have shorter : (c.current (.redis server lasting) now).messages.length ≤ c.messages.length := by
      unfold Conversation.current
      split <;> simp [Conversation.new]
    have decoded := Redis.decodeConv_encode_all texts times (c.convRecent (.redis server lasting) now n.toNat)
    simp only [Conversation.convRecent] at decoded ⊢
    simp only [Redis.RedisWorkingMemory.step, Redis.RedisWorkingMemory.convRecent, Server.llen, Server.lrange, found, bind,
      Except.bind, List.length_map, Redis.start_eq (shorter.trans_lt few) positive, ← List.map_drop, decoded]

end Backends

/-! ## The stores after a turn -/

section Stores
variable (backend : Backend) {sessionId : String} {moments : Nat → Moment}

def pushAll (moments : Nat → Moment) : Nat → Conversation → List Effect → Conversation
  | _, c, [] => c
  | i, c, .push role content toolUseId :: rest =>
      pushAll moments (i + 1)
        (c.convPush backend (moments i).now ⟨role, content, toolUseId, (moments i).ts⟩ (moments i).pushed) rest
  | i, c, _ :: rest => pushAll moments (i + 1) c rest

theorem insertTurn_working (w : World) (turn : ChatTurn) (outcome : Appended) :
    (w.insertTurn turn outcome).working = w.working := by cases outcome <;> rfl

theorem appendChatTurn_working (w : World) (outcome : Appended) (ownerId : Uuid) (turn : ChatTurn) :
    (w.appendChatTurn outcome ownerId turn).working = w.working := by
  unfold World.appendChatTurn
  split
  · rfl
  · split
    · rw [insertTurn_working]
    · split
      · rw [insertTurn_working]
      · rfl

theorem insertTurn_chatTurns (w : World) (turn : ChatTurn) (outcome : Appended) :
    (w.insertTurn turn outcome).chatTurns = if outcome = .done then w.chatTurns ++ [turn] else w.chatTurns := by
  cases outcome <;> rfl

theorem appendChatTurn_chatTurns (w : World) (outcome : Appended) (ownerId : Uuid) (turn : ChatTurn) :
    (w.appendChatTurn outcome ownerId turn).chatTurns =
      if outcome = .done ∧ ∀ session ∈ w.chatSessions turn.sessionId, session.ownerId = ownerId
      then w.chatTurns ++ [turn] else w.chatTurns := by
  unfold World.appendChatTurn
  by_cases lost : outcome = .lost
  · simp [lost]
  · rw [if_neg lost]
    cases row : w.chatSessions turn.sessionId with
    | none => simp [insertTurn_chatTurns]
    | some session =>
        by_cases own : session.ownerId = ownerId
        · simp [own, insertTurn_chatTurns]
        · simp [own]

theorem performAll_working (effects : List Effect) (i : Nat) (w : World) :
    (w.performAll backend sessionId moments i effects).working =
      Function.update w.working sessionId (pushAll backend moments i (w.working sessionId) effects) := by
  induction effects generalizing i w with
  | nil => simp [World.performAll, pushAll]
  | cons effect rest ih =>
      rw [World.performAll, ih]
      cases effect with
      | append owner role content toolUseId => simp [World.perform, appendChatTurn_working, pushAll]
      | push role content toolUseId => simp [World.perform, pushAll]
      | emit | finish | request | capture | dispatch | decide => rfl

end Stores
end Daimon.Proof.App
