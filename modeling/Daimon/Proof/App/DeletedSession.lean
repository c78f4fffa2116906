import Daimon.App.ChatSessions
import Daimon.Lib.JsonLeaves
import Daimon.Proof.App.Conversation

/-!
# Deleted chat sessions

The durable rows of a session go with its deletion. The wipe of the working memory deletes a value under a key of its
own, and the conversation stays where the next turn reads it.
-/

namespace Daimon.Proof.App
open Daimon.Core Daimon.App.Chat Lib
open Daimon.App (Claims)
open Daimon.Lib.Json (bind_ok)
open Daimon.Redis (ConvMessage Server Keyspace InProc.step RedisWorkingMemory.step)
open Daimon.Redis.RedisWorkingMemory (convKey)
open Daimon.Proof.Redis (convEntry day)

section Changes
variable {σ : Type} (memory : Memory σ) (sessionId : String)

def changeAll (tiers : Tiers σ) (changes : List Change) : Tiers σ := changes.foldl (Tiers.change memory) tiers

/-- The turns that were to be appended to the session. -/
def appended (changes : List Change) : List ChatTurn :=
  changes.filterMap fun
    | .append _ _ turn => if turn.sessionId = sessionId then some turn else none
    | _ => none

/-- The messages that were pushed to the session, and when. -/
def spokenTo (changes : List Change) : List (Nat × ConvMessage) :=
  changes.filterMap fun
    | .memory now (.convPush s msg) => if s = sessionId then some (now, msg) else none
    | _ => none

/-! ## The durable tables -/

theorem turnsOf_append (t : Tables) (outcome : Appended) (ownerId : Uuid) (turn : ChatTurn) :
    ((t.appendChatTurn outcome ownerId turn).turnsOf sessionId).Sublist
      (t.turnsOf sessionId ++ appended sessionId [.append outcome ownerId turn]) := by
  rw [Tables.turnsOf, Tables.appendChatTurn, World.tables, appendChatTurn_chatTurns]
  split
  · by_cases own : turn.sessionId = sessionId <;> simp [Tables.turnsOf, appended, own]
  · exact List.sublist_append_left _ _

theorem turnsOf_delete (t : Tables) (other : String) :
    ((t.deleteSession other).turnsOf sessionId).Sublist (t.turnsOf sessionId) :=
  List.filter_sublist.filter _

@[simp] theorem turnsOf_deleted (t : Tables) : (t.deleteSession sessionId).turnsOf sessionId = [] := by
  simp [Tables.turnsOf, Tables.deleteSession]

theorem turnsOf_change (tiers : Tiers σ) (change : Change) :
    ((tiers.change memory change).tables.turnsOf sessionId).Sublist
      (tiers.tables.turnsOf sessionId ++ appended sessionId [change]) := by
  cases change with
  | memory now op => exact List.sublist_append_left _ _
  | append outcome ownerId turn => exact turnsOf_append sessionId _ _ _ _
  | prune other => exact (turnsOf_delete sessionId _ other).trans (List.sublist_append_left _ _)
  | delete authenticated db wipe other =>
      refine List.Sublist.trans ?_ (List.sublist_append_left _ _)
      simp only [Tiers.change, deleteChatSession]
      split
      · exact List.Sublist.refl _
      · exact turnsOf_delete sessionId _ other

theorem turnsOf_changeAll (tiers : Tiers σ) (changes : List Change) :
    ((changeAll memory tiers changes).tables.turnsOf sessionId).Sublist
      (tiers.tables.turnsOf sessionId ++ appended sessionId changes) := by
  induction changes generalizing tiers with
  | nil => simp [changeAll, appended]
  | cons change rest ih =>
      have whole : appended sessionId (change :: rest) = appended sessionId [change] ++ appended sessionId rest :=
        List.filterMap_append (l := [change])
      rw [whole, ← List.append_assoc]
      exact (ih _).trans ((turnsOf_change memory sessionId tiers change).append_right _)

/-! ## The working memory -/

variable {memory} {sessionId} {holds : σ → List (Nat × ConvMessage) → Prop}

/-- What every operation keeps, given the messages pushed to the session so far, holds after all changes. -/
theorem holds_changeAll
    (pushed : ∀ m sent now msg, holds m sent → holds (memory m now (.convPush sessionId msg)).1 (sent ++ [(now, msg)]))
    (other : ∀ m sent now op, holds m sent → (∀ msg, op ≠ .convPush sessionId msg) → holds (memory m now op).1 sent)
    (tiers : Tiers σ) (changes : List Change) (sent : List (Nat × ConvMessage)) (start : holds tiers.memory sent) :
    holds (changeAll memory tiers changes).memory (sent ++ spokenTo sessionId changes) := by
  induction changes generalizing tiers sent with
  | nil => simpa [changeAll, spokenTo] using start
  | cons change rest ih =>
      have whole : spokenTo sessionId (change :: rest) = spokenTo sessionId [change] ++ spokenTo sessionId rest :=
        List.filterMap_append (l := [change])
      rw [whole, ← List.append_assoc]
      apply ih
      cases change with
      | append outcome ownerId turn => simpa [Tiers.change, spokenTo] using start
      | prune other => simpa [Tiers.change, spokenTo] using start
      | delete authenticated db wipe s =>
          simp only [spokenTo, List.filterMap_cons, List.filterMap_nil, List.append_nil, Tiers.change, deleteChatSession]
          split
          · exact start
          · cases wipe with
            | none => exact start
            | some now => exact other _ _ _ _ start (by simp)
      | memory now op =>
          cases op with
          | convPush s msg =>
              by_cases own : s = sessionId
              · subst own
                simpa [Tiers.change, spokenTo] using pushed _ _ now msg start
              · simpa [Tiers.change, spokenTo, own] using other _ _ now (.convPush s msg) start (by simp [own])
          | convRecent | kvSet | kvGet | kvDelete =>
              simpa [Tiers.change, spokenTo] using other _ _ now _ start (by simp)

end Changes

/-! ## The backends -/

section Backends
variable {Text : Type} {server : Server} {texts : JsonText Text} {times : TimeText} {sessionId : String}

def HoldsInProc (sessionId : String) (inner : Redis.Inner) (sent : List (Nat × ConvMessage)) : Prop :=
  inner.conv sessionId = sent.map Prod.snd

theorem inProc_pushed (inner : Redis.Inner) (sent : List (Nat × ConvMessage)) (now : Nat) (msg : ConvMessage)
    (holds : HoldsInProc sessionId inner sent) :
    HoldsInProc sessionId (InProc.step inner now (.convPush sessionId msg)).1 (sent ++ [(now, msg)]) := by
  simpa [HoldsInProc, InProc.step] using holds

theorem inProc_other (inner : Redis.Inner) (sent : List (Nat × ConvMessage)) (now : Nat) (op : Redis.Op)
    (holds : HoldsInProc sessionId inner sent) (other : ∀ msg, op ≠ .convPush sessionId msg) :
    HoldsInProc sessionId (InProc.step inner now op).1 sent := by
  cases op with
  | convPush s msg =>
      have apart : sessionId ≠ s := fun same => other msg (by rw [same])
      simpa [HoldsInProc, InProc.step, Function.update_of_ne apart] using holds
  | kvSet agentId key value ttl =>
      simp only [InProc.step]
      split_ifs <;> exact holds
  | convRecent | kvGet | kvDelete => exact holds

/-- Redis has some of the messages, the last one at least, until a day after that one. -/
def HoldsRedis (texts : JsonText Text) (times : TimeText) (sessionId : String) (ks : Keyspace Text)
    (sent : List (Nat × ConvMessage)) : Prop :=
  ∃ kept, kept <:+ sent ∧ (sent ≠ [] → kept ≠ []) ∧ ks (convKey sessionId) = convEntry texts times kept sent

theorem redis_pushed (ks : Keyspace Text) (sent : List (Nat × ConvMessage)) (now : Nat) (msg : ConvMessage)
    (holds : HoldsRedis texts times sessionId ks sent) :
    HoldsRedis texts times sessionId (RedisWorkingMemory.step server texts times ks now (.convPush sessionId msg)).1
      (sent ++ [(now, msg)]) := by
  obtain ⟨kept, suffix, -, entry⟩ := holds
  obtain ⟨kept', still, keyspace⟩ := Redis.convPush_keyspace server now msg entry
  refine ⟨kept' ++ [(now, msg)], ?_, by simp, by rw [keyspace, Function.update_self]⟩
  apply List.suffix_append_self_iff.mpr
  rcases still with rfl | ⟨rfl, -⟩
  · exact suffix
  · exact List.nil_suffix

theorem redis_other_key (ks : Keyspace Text) (now : Nat) (op : Redis.Op)
    (other : ∀ msg, op ≠ .convPush sessionId msg) :
    (RedisWorkingMemory.step server texts times ks now op).1 (convKey sessionId) = ks (convKey sessionId) := by
  cases op with
  | convPush s msg =>
      have apart : convKey sessionId ≠ convKey s := fun same => other msg (by rw [Redis.conv_inj.mp same])
      simp only [RedisWorkingMemory.step, Server.rpush]
      split
      · rfl
      · rename_i ks' pushed
        have before : ks' (convKey sessionId) = ks (convKey sessionId) := by
          split at pushed <;> cases pushed <;> exact Function.update_of_ne apart _ _
        rw [← before, Server.expire]
        split
        · rfl
        · exact Function.update_of_ne apart _ _
  | kvSet agentId key value ttl =>
      simp only [RedisWorkingMemory.step, Server.setEx]
      split
      · rfl
      · rename_i ks' set
        split at set <;> cases set
        have apart := Redis.conv_ne_kv sessionId (Redis.InProc.kvKey agentId key)
        rw [← Redis.redis_kvKey] at apart
        simp [Function.update_of_ne apart]
  | kvDelete agentId key =>
      have apart := Redis.conv_ne_kv sessionId (Redis.InProc.kvKey agentId key)
      rw [← Redis.redis_kvKey] at apart
      simp [RedisWorkingMemory.step, Server.del, Function.update_of_ne apart]
  | convRecent | kvGet => rw [Redis.redis_read server ks now rfl]

theorem redis_other (ks : Keyspace Text) (sent : List (Nat × ConvMessage)) (now : Nat) (op : Redis.Op)
    (holds : HoldsRedis texts times sessionId ks sent) (other : ∀ msg, op ≠ .convPush sessionId msg) :
    HoldsRedis texts times sessionId (RedisWorkingMemory.step server texts times ks now op).1 sent := by
  obtain ⟨kept, suffix, nonempty, entry⟩ := holds
  exact ⟨kept, suffix, nonempty, (redis_other_key ks now op other).trans entry⟩

theorem inProc_forgets_iff {inner : Redis.Inner} {sent : List (Nat × ConvMessage)}
    (holds : HoldsInProc sessionId inner sent) (now : Nat) :
    (InProc.step inner now (.convRecent sessionId 64)).2 = .messages [] ↔ sent = [] := by
  rw [HoldsInProc] at holds
  simp only [InProc.step, holds, Redis.Answer.messages.injEq, List.drop_eq_nil_iff, List.length_map]
  constructor
  · intro short
    have window : (64 : UInt64).toNat = 64 := rfl
    rw [window] at short
    exact List.length_eq_zero_iff.mp (by omega)
  · rintro rfl
    simp

theorem redis_forgets_iff {ks : Keyspace Text} {sent : List (Nat × ConvMessage)}
    (holds : HoldsRedis texts times sessionId ks sent) (few : sent.length < 0x100000000) (now : Nat) :
    (RedisWorkingMemory.step server texts times ks now (.convRecent sessionId 64)).2 = .messages [] ↔
      ∀ last ∈ sent.getLast?, server.gone (last.1 + day) now = true := by
  obtain ⟨kept, suffix, nonempty, entry⟩ := holds
  cases final : sent.getLast? with
  | none =>
      have absent : server.lookup ks now (convKey sessionId) = none := by
        simp [Server.lookup, entry, convEntry, final]
      rw [Redis.redis_recent_absent absent]
      simp
  | some last =>
      cases gone : server.gone (last.1 + day) now with
      | true =>
          have absent : server.lookup ks now (convKey sessionId) = none := by
            simp [Server.lookup, entry, convEntry, final, gone]
          rw [Redis.redis_recent_absent absent]
          simp [gone]
      | false =>
          have present : server.lookup ks now (convKey sessionId) =
              some ⟨.list (kept.map fun m => texts.encode (m.2.toValue times)), some (last.1 + day)⟩ := by
            simp [Server.lookup, entry, convEntry, final, gone]
          have spoken : sent ≠ [] := by
            rintro rfl
            cases final
          have some_kept : 0 < kept.length := List.length_pos_iff.mpr (nonempty spoken)
          have shorter := suffix.length_le
          have window : (64 : UInt64).toNat = 64 := rfl
          rw [Redis.redis_recent_present present, Redis.start_eq (by omega) (by rw [window]; omega), window]
          simp only [Redis.Answer.messages.injEq, List.map_eq_nil_iff, List.drop_eq_nil_iff, Option.mem_some_iff,
            forall_eq', gone, Bool.false_eq_true, iff_false, not_le]
          omega

end Backends

/-! ## The deletion -/

/-- The next turn of the session is given no history, and whatever is loaded was appended since the deletion. -/
def Forgotten {σ : Type} (memory : Memory σ) (tiers : Tiers σ) (sessionId : String) (since : List Change) (now : Nat) :
    Prop :=
  (memory tiers.memory now (.convRecent sessionId 64)).2 = .messages [] ∧
    ∀ authenticated db turns, loadChatSession tiers.tables authenticated db sessionId = .ok turns →
      turns.Sublist ((appended sessionId since).map ChatTurn.dto)

theorem loadChatSession_ok {t : Tables} {authenticated : Except String Claims} {db : Statements} {sessionId : String}
    {turns : List ChatTurnDto} (loaded : loadChatSession t authenticated db sessionId = .ok turns) :
    turns = if (t.chatSessions sessionId).isSome then ((t.turnsOf sessionId).take loadLimit).map ChatTurn.dto else [] := by
  unfold loadChatSession at loaded
  obtain ⟨claims, -, loaded⟩ := bind_ok loaded
  obtain ⟨owner, found, loaded⟩ := bind_ok loaded
  unfold sessionOwner at found
  obtain ⟨-, -, found⟩ := bind_ok found
  obtain ⟨-, -, found⟩ := bind_ok found
  obtain rfl := Except.ok.inj found
  cases row : t.chatSessions sessionId with
  | none =>
      rw [row] at loaded
      exact (Except.ok.inj loaded).symm
  | some session =>
      rw [row] at loaded
      simp only [Option.map_some] at loaded
      split_ifs at loaded
      · cases loaded
      · obtain ⟨-, -, loaded⟩ := bind_ok loaded
        obtain ⟨-, -, loaded⟩ := bind_ok loaded
        exact (Except.ok.inj loaded).symm

theorem loadChatSession_sublist {t : Tables} {authenticated : Except String Claims} {db : Statements} {sessionId : String}
    {turns : List ChatTurnDto} (loaded : loadChatSession t authenticated db sessionId = .ok turns) :
    turns.Sublist ((t.turnsOf sessionId).map ChatTurn.dto) := by
  rw [loadChatSession_ok loaded]
  split
  · exact (List.take_sublist _ _).map _
  · exact List.nil_sublist _

theorem deleteChatSession_ok {σ : Type} {memory : Memory σ} {tiers : Tiers σ} {authenticated : Except String Claims}
    {db : Statements} {wipe : Option Nat} {sessionId : String}
    (ok : (deleteChatSession memory tiers authenticated db wipe sessionId).2 = .ok ()) :
    (deleteChatSession memory tiers authenticated db wipe sessionId).1.tables = tiers.tables.deleteSession sessionId := by
  simp only [deleteChatSession] at ok ⊢
  split
  · rename_i failed
    rw [failed] at ok
    cases ok
  · rfl

/-- A deletion among what happens to the tiers. -/
structure Deletion where
  sessionId : String
  authenticated : Except String Claims
  db : Statements
  wipe : Option Nat
  before : List Change
  after : List Change

namespace Deletion
variable {σ : Type} (d : Deletion) (memory : Memory σ) (fresh : σ)

def deleted : Tiers σ × Except String Unit :=
  deleteChatSession memory (changeAll memory ⟨fresh, .new⟩ d.before) d.authenticated d.db d.wipe d.sessionId

def left : Tiers σ := changeAll memory (d.deleted memory fresh).1 d.after

def changes : List Change := d.before ++ .delete d.authenticated d.db d.wipe d.sessionId :: d.after

theorem left_eq : d.left memory fresh = changeAll memory ⟨fresh, .new⟩ d.changes := by
  simp [left, deleted, changes, changeAll, Tiers.change]

theorem spokenTo_changes (silent : spokenTo d.sessionId d.after = []) :
    spokenTo d.sessionId d.changes = spokenTo d.sessionId d.before := by
  simp only [spokenTo, changes, List.filterMap_append, List.filterMap_cons] at silent ⊢
  rw [silent, List.append_nil]

variable {d memory fresh}

/-- What a later load gives is of after the deletion. -/
theorem left_turns (ok : (d.deleted memory fresh).2 = .ok ()) {reader : Except String Claims} {later : Statements}
    {turns : List ChatTurnDto}
    (loaded : loadChatSession (d.left memory fresh).tables reader later d.sessionId = .ok turns) :
    turns.Sublist ((appended d.sessionId d.after).map ChatTurn.dto) := by
  have since := turnsOf_changeAll memory d.sessionId (d.deleted memory fresh).1 d.after
  rw [deleted, deleteChatSession_ok ok, turnsOf_deleted, List.nil_append] at since
  exact (loadChatSession_sublist loaded).trans (since.map _)

theorem left_holds {holds : σ → List (Nat × ConvMessage) → Prop} (silent : spokenTo d.sessionId d.after = [])
    (pushed : ∀ m sent now msg, holds m sent →
      holds (memory m now (.convPush d.sessionId msg)).1 (sent ++ [(now, msg)]))
    (other : ∀ m sent now op, holds m sent → (∀ msg, op ≠ .convPush d.sessionId msg) → holds (memory m now op).1 sent)
    (start : holds fresh []) : holds (d.left memory fresh).memory (spokenTo d.sessionId d.before) := by
  rw [left_eq, ← d.spokenTo_changes silent]
  exact holds_changeAll pushed other ⟨fresh, .new⟩ d.changes [] start

end Deletion

def anaClaims : Claims := ⟨"user:ana", 1, "operator", ["operator"], 0, "login"⟩

def answering : Statements := ⟨.ok (), .ok (), .ok (), .ok ()⟩

def anaDeletes : Deletion where
  sessionId := "s"
  authenticated := .ok anaClaims
  db := answering
  wipe := some 2
  before := [.append .done 1 ⟨"s", "user", "status?", none⟩, .memory 1 (.convPush "s" Redis.question)]
  after := []

end Daimon.Proof.App
