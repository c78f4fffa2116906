import Daimon.App.Gateways
import Daimon.Proof.App.Revocation
import Daimon.Proof.App.Turn

/-!
# Authority over a gateway

A handle acts only as the active user it was bound to when its message was looked up, with the roles of that moment. Once
a binding or its user is revoked, no message that is looked up later gets further than the refusal.
-/

namespace Daimon.Proof.App
open Daimon.Core Daimon.App Lib
open Daimon.App.Chat (Answers ChatSend ChatMessage Effect Reply ToolCall handleChatSend runTool runTools turnLoop maxLoops)
open Daimon.App.Inbound (GatewayActor InboundAnswers AlertDelivery decideOverChat notEnrolled)
open Daimon.App.Gateways

/-! ## What a turn does for its actor -/

/-- What is dispatched carries the actor's id, and a chat turn decides nothing. -/
def ChatFor (actorId : String) : Effect → Prop
  | .dispatch actor _ => actor = actorId
  | .decide _ _ _ => False
  | _ => True

section Turn
variable (answers : Answers) (send : ChatSend) (owner : Option Uuid)

theorem mirror_chatFor (actorId role content : String) (id : Option String) :
    ∀ effect ∈ Chat.mirror owner role content id, ChatFor actorId effect := by
  cases owner <;> simp [Chat.mirror, ChatFor]

theorem runTool_chatFor (history : List ChatMessage) (call : ToolCall) :
    ∀ effect ∈ (runTool answers send owner history call).effects, ChatFor send.actorId effect := by
  unfold runTool
  split
  · intro effect member
    simp only [List.mem_append, List.mem_singleton, or_assoc] at member
    rcases member with captured | rfl | appended | rfl
    · obtain ⟨kind, record, rfl⟩ := memoryOutput_captures answers history call effect captured
      trivial
    · trivial
    · exact mirror_chatFor owner _ _ _ _ effect appended
    · trivial
  · simp [ChatFor]

theorem runTools_chatFor (history : List ChatMessage) (calls : List ToolCall) :
    ∀ effect ∈ (runTools answers send owner history calls).effects, ChatFor send.actorId effect := by
  induction calls generalizing history with
  | nil => simp [runTools]
  | cons call rest ih =>
      intro effect member
      rcases List.mem_append.mp member with now | later
      · exact runTool_chatFor answers send owner history call effect now
      · exact ih _ effect later

theorem spoken_chatFor (actorId : String) (history : List ChatMessage) (reply : Reply) :
    ∀ effect ∈ spoken answers send owner history reply, ChatFor actorId effect := by
  intro effect member
  simp only [spoken, List.cons_append, List.mem_cons, List.mem_append, List.mem_map, List.not_mem_nil, or_false,
    or_assoc] at member
  rcases member with rfl | ⟨event, -, rfl⟩ | appended | rfl
  · trivial
  · trivial
  · exact mirror_chatFor owner _ _ _ _ effect appended
  · trivial

theorem turnLoop_chatFor (left : Nat) (history : List ChatMessage) :
    ∀ effect ∈ (turnLoop answers send owner left history).effects, ChatFor send.actorId effect := by
  induction left, history using turnLoop_induction answers send owner with
  | exhausted history => simp [turnLoop, ChatFor]
  | failed left history e failed => simp [turnLoop_failed failed, ChatFor]
  | broken left history stream reply e completed read =>
      rw [turnLoop_broken completed read]
      intro effect member
      simp only [List.cons_append, List.mem_cons, List.mem_append, List.mem_map, List.not_mem_nil, or_false] at member
      rcases member with rfl | ⟨event, -, rfl⟩ | rfl <;> trivial
  | closed left history stream reply completed read stopped =>
      rw [turnLoop_closed completed read stopped]
      intro effect member
      rcases List.mem_append.mp member with first | last
      · exact spoken_chatFor answers send owner _ history reply effect first
      · rw [List.mem_singleton.mp last]
        trivial
  | again left history stream reply completed read stop ih =>
      rw [turnLoop_again completed read stop]
      intro effect member
      simp only [List.mem_append, or_assoc] at member
      rcases member with first | tools | later
      · exact spoken_chatFor answers send owner _ history reply effect first
      · exact runTools_chatFor answers send owner _ _ effect tools
      · exact ih effect later

theorem handleChatSend_chatFor (recent : Except String (List Redis.ConvMessage)) :
    ∀ effect ∈ (handleChatSend answers send owner recent).effects, ChatFor send.actorId effect := by
  by_cases opens : Opens answers send ∧ ∃ list, recent = .ok list
  · obtain ⟨opens, list, rfl⟩ := opens
    rw [handleChatSend_opened opens]
    intro effect member
    simp only [List.mem_append, List.mem_singleton, or_assoc] at member
    rcases member with first | rfl | later | rfl
    · exact mirror_chatFor owner _ _ _ _ effect first
    · trivial
    · exact turnLoop_chatFor answers send owner _ _ effect later
    · trivial
  · have closed : Opens answers send → ∃ e, recent = .error e := by
      intro checked
      cases recent with
      | error e => exact ⟨e, rfl⟩
      | ok list => exact absurd ⟨checked, list, rfl⟩ opens
    obtain ⟨message, refused⟩ := @handleChatSend_refused answers send owner recent closed
    simp [refused, Chat.refuse, ChatFor]

end Turn

/-- What may be done in the name of an actor. -/
def ActsFor (actor : GatewayActor) : Effect → Prop
  | .dispatch actorId _ => actorId = "user:" ++ actor.username
  | .decide _ operator _ => operator = actor.userId ∧ actor.isApprover = true
  | _ => True

theorem actsFor_of_chatFor {actor : GatewayActor} {effect : Effect} (chat : ChatFor ("user:" ++ actor.username) effect) :
    ActsFor actor effect := by
  cases effect with
  | dispatch actorId req => exact chat
  | decide id operator status => exact chat.elim
  | _ => trivial

theorem decideOverChat_actsFor (answers : InboundAnswers) (approvals : Guard.ApprovalTable) (actor : GatewayActor)
    (approved : Bool) (id : Uuid) (sessionId : String) :
    ∀ effect ∈ (decideOverChat answers approvals actor approved id sessionId).effects, ActsFor actor effect := by
  unfold decideOverChat
  split
  · simp [Inbound.reply, ActsFor]
  · rename_i approver
    simp only [Bool.not_eq_true', Bool.not_eq_false] at approver
    split
    · simp [Inbound.reply, ActsFor]
    · dsimp only
      split <;> simp [Inbound.reply, ActsFor, approver]

/-! ## Who a handle is -/

theorem mem_enrolled {a : Accounts} {channel platformHandle : String} {u : User} :
    u ∈ a.enrolled channel platformHandle ↔ ∃ gi ∈ a.identities, gi.key = (channel, platformHandle) ∧
      u ∈ a.db.users ∧ u.id = gi.userId ∧ u.status = .active := by
  simp only [Accounts.enrolled, List.mem_flatMap, List.mem_filter, decide_eq_true_eq, Bool.and_eq_true, and_assoc]

theorem resolve_eq_some {a : Accounts} {channel platformHandle : String} {actor : GatewayActor}
    (found : a.resolveGatewayIdentity channel platformHandle = some actor) :
    ∃ gi ∈ a.identities, gi.key = (channel, platformHandle) ∧ ∃ u ∈ a.db.users, u.id = gi.userId ∧ u.status = .active ∧
      actor = { userId := u.id, username := u.username, roles := a.db.rolesOf u.id } := by
  obtain ⟨u, first, rfl⟩ := Option.map_eq_some_iff.mp found
  obtain ⟨gi, member, key, isUser, same, active⟩ := (mem_enrolled).mp (List.mem_of_head? first)
  exact ⟨gi, member, key, u, isUser, same, active, rfl⟩

theorem resolve_eq_none {a : Accounts} {channel platformHandle : String} :
    a.resolveGatewayIdentity channel platformHandle = none ↔
      ∀ gi ∈ a.identities, gi.key = (channel, platformHandle) → a.db.isActive gi.userId = false := by
  rw [Accounts.resolveGatewayIdentity, Option.map_eq_none_iff, List.head?_eq_none_iff, List.eq_nil_iff_forall_not_mem]
  simp only [mem_enrolled, ← Bool.not_eq_true, isActive_iff]
  constructor
  · rintro nobody gi member key ⟨u, isUser, same, active⟩
    exact nobody u ⟨gi, member, key, isUser, same, active⟩
  · rintro inactive u ⟨gi, member, key, isUser, same, active⟩
    exact inactive gi member key ⟨u, isUser, same, active⟩

/-! ## What a step can do -/

section Run
variable {uuids : UuidText} {lower : String → String} {w w' : World} {action : Gateways.Action}

/-- What a step makes of the turn of a message, and what it does for it. -/
inductive Moved (a : Accounts) : Message → Turn → List Effect → Prop
  | refused {msg : Gateway.InboundMessage} {error : String}
      (why : error = "internal error resolving identity" ∨ error = notEnrolled msg.channel) :
      Moved a ⟨msg, .received⟩ .finished [.emit (.error error), .finish]
  | found {msg : Gateway.InboundMessage} {actor : GatewayActor}
      (resolved : a.resolveGatewayIdentity msg.channel msg.platformHandle = some actor) :
      Moved a ⟨msg, .received⟩ (.resolved actor) []
  | decides {msg : Gateway.InboundMessage} {actor : GatewayActor} {approved : Bool} {id : Uuid} :
      Moved a ⟨msg, .resolved actor⟩ (.deciding actor approved id) []
  | chats {msg : Gateway.InboundMessage} {actor : GatewayActor} {todo : List Effect}
      (own : ∀ effect ∈ todo, ActsFor actor effect) : Moved a ⟨msg, .resolved actor⟩ (.running actor todo) []
  | settled {msg : Gateway.InboundMessage} {actor : GatewayActor} {approved : Bool} {id : Uuid} {effects : List Effect}
      (own : ∀ effect ∈ effects, ActsFor actor effect) :
      Moved a ⟨msg, .deciding actor approved id⟩ .finished effects
  | performed {msg : Gateway.InboundMessage} {actor : GatewayActor} {effect : Effect} {todo : List Effect} :
      Moved a ⟨msg, .running actor (effect :: todo)⟩ (.running actor todo) [effect]
  | ended {msg : Gateway.InboundMessage} {actor : GatewayActor} :
      Moved a ⟨msg, .running actor []⟩ .finished []

/-- What a step does to the accounts. -/
inductive Administered (lower : String → String) (a : Accounts) : Gateways.Action → Accounts → Prop
  | inserted {id : Uuid} {username passwordHash : String} {db : Directory}
      (inserted : a.db.insertUser id username passwordHash = some db) :
      Administered lower a (.insertUser id username passwordHash) { a with db }
  | status {id : Uuid} {status : String} {db : Directory} (written : a.db.setUserStatus id status = some db) :
      Administered lower a (.setUserStatus id status) { a with db }
  | granted {id : Uuid} {slug : String} {db : Directory} (assigned : a.db.assignRole id slug = some db) :
      Administered lower a (.assignRole id slug) { a with db }
  | revoked {id : Uuid} {slug : String} :
      Administered lower a (.revokeRole id slug) { a with db := a.db.revokeRole id slug }
  | bound {id : Uuid} {channel platformHandle username : String} {admin userId : Uuid} {after : Accounts}
      (created : a.createGatewayIdentity id (lower (trim channel)) (trim platformHandle) userId (some admin) =
        some after) : Administered lower a (.addGatewayBinding id channel platformHandle username admin) after
  | unbound {id : Uuid} : Administered lower a (.deleteGatewayBinding id) (a.deleteGatewayIdentity id)
  | other {action : Gateways.Action} : Administered lower a action a

theorem addGatewayBinding_ok {a after : Accounts} {id admin : Uuid} {channel platformHandle username : String}
    (added : a.addGatewayBinding lower id channel platformHandle username admin = .ok after) :
    ∃ userId, a.createGatewayIdentity id (lower (trim channel)) (trim platformHandle) userId (some admin) = some after := by
  unfold Accounts.addGatewayBinding at added
  dsimp only at added
  split at added
  · cases added
  · split at added
    · cases added
    · split at added
      · cases added
        exact ⟨_, ‹_›⟩
      · cases added

theorem lookup_moved (a : Accounts) (failed : Bool) (msg : Gateway.InboundMessage) :
    let found := if failed then .error () else .ok (a.resolveGatewayIdentity msg.channel msg.platformHandle)
    Moved a ⟨msg, .received⟩ (afterLookup msg.channel found).1 (afterLookup msg.channel found).2 := by
  intro found
  cases failed with
  | true => exact .refused (Or.inl rfl)
  | false =>
      cases resolved : a.resolveGatewayIdentity msg.channel msg.platformHandle with
      | none =>
          have nobody : found = .ok none := congrArg Except.ok resolved
          rw [nobody]
          exact .refused (Or.inr rfl)
      | some actor =>
          have somebody : found = .ok (some actor) := congrArg Except.ok resolved
          rw [somebody]
          exact .found resolved

theorem gateway_step_cases (moved : step uuids lower w action = some w') :
    (∃ i m turn effects, w.messages[i]? = some m ∧ Moved w.accounts m turn effects ∧
      w'.messages = w.messages.set i { m with turn } ∧ w'.log = w.log ++ effects.map (fun e => (i, e)) ∧
      w'.accounts = w.accounts) ∨
    (∃ msg, w'.messages = w.messages ++ [⟨msg, .received⟩] ∧ w'.log = w.log ∧ w'.accounts = w.accounts) ∨
    (w'.messages = w.messages ∧ w'.log = w.log ∧ Administered lower w.accounts action w'.accounts) := by
  cases action with
  | insertUser id username passwordHash =>
      obtain ⟨db, inserted, rfl⟩ := Option.map_eq_some_iff.mp moved
      exact Or.inr (Or.inr ⟨rfl, rfl, .inserted inserted⟩)
  | setUserStatus id status =>
      obtain ⟨db, written, rfl⟩ := Option.map_eq_some_iff.mp moved
      exact Or.inr (Or.inr ⟨rfl, rfl, .status written⟩)
  | assignRole id slug =>
      obtain ⟨db, assigned, rfl⟩ := Option.map_eq_some_iff.mp moved
      exact Or.inr (Or.inr ⟨rfl, rfl, .granted assigned⟩)
  | revokeRole id slug =>
      cases moved
      exact Or.inr (Or.inr ⟨rfl, rfl, .revoked⟩)
  | addGatewayBinding id channel platformHandle username admin =>
      simp only [step] at moved
      split at moved
      · rename_i accounts added
        obtain ⟨userId, created⟩ := addGatewayBinding_ok added
        cases moved
        exact Or.inr (Or.inr ⟨rfl, rfl, .bound created⟩)
      · cases moved
        exact Or.inr (Or.inr ⟨rfl, rfl, .other⟩)
  | deleteGatewayBinding id =>
      cases moved
      exact Or.inr (Or.inr ⟨rfl, rfl, .unbound⟩)
  | enqueue id now subject =>
      obtain ⟨approvals, -, rfl⟩ := Option.map_eq_some_iff.mp moved
      exact Or.inr (Or.inr ⟨rfl, rfl, .other⟩)
  | decide id operator status now =>
      simp only [step] at moved
      split at moved <;> cases moved <;> exact Or.inr (Or.inr ⟨rfl, rfl, .other⟩)
  | deliver row =>
      cases moved
      exact Or.inr (Or.inr ⟨rfl, rfl, .other⟩)
  | receive msg =>
      cases moved
      exact Or.inr (Or.inl ⟨msg, rfl, rfl, rfl⟩)
  | resolve i failed =>
      simp only [step] at moved
      split at moved
      · rename_i msg there
        cases moved
        exact Or.inl ⟨i, _, _, _, there, lookup_moved w.accounts failed msg, rfl, rfl, rfl⟩
      · cases moved
  | read i answers =>
      simp only [step] at moved
      split at moved
      · rename_i msg actor there
        cases moved
        refine Or.inl ⟨i, _, _, _, there, ?_, rfl, rfl, rfl⟩
        unfold afterRead
        split
        · exact .decides
        · exact .chats fun effect member => actsFor_of_chatFor (handleChatSend_chatFor _ _ _ _ effect member)
      · cases moved
  | settle i answers =>
      simp only [step] at moved
      split at moved
      · rename_i msg actor approved id there
        cases moved
        refine Or.inl ⟨i, _, _, _, there, .settled ?_, rfl, rfl, rfl⟩
        intro effect member
        rcases List.mem_append.mp member with done | last
        · exact decideOverChat_actsFor _ _ _ _ _ _ effect done
        · rw [List.mem_singleton.mp last]
          trivial
      · cases moved
  | perform i =>
      simp only [step] at moved
      split at moved
      · rename_i there
        cases moved
        exact Or.inl ⟨i, _, _, _, there, .performed, rfl, rfl, rfl⟩
      · rename_i there
        cases moved
        exact Or.inl ⟨i, _, _, _, there, .ended, rfl, rfl, rfl⟩
      · cases moved

/-! ## A message that nothing interrupts -/

section Alone
variable {i : Nat} {msg : Gateway.InboundMessage} {actor : GatewayActor}

theorem getElem?_turnTo {m : Message} (turn : Turn) (effects : List Effect) (there : w.messages[i]? = some m) :
    (w.turnTo i m turn effects).messages[i]? = some { m with turn } :=
  List.getElem?_set_self (List.getElem?_eq_some_iff.mp there).1

theorem step_resolve (there : w.messages[i]? = some ⟨msg, .received⟩) :
    step uuids lower w (.resolve i false) = some (w.turnTo i ⟨msg, .received⟩
      (afterLookup msg.channel (.ok (w.accounts.resolveGatewayIdentity msg.channel msg.platformHandle))).1
      (afterLookup msg.channel (.ok (w.accounts.resolveGatewayIdentity msg.channel msg.platformHandle))).2) := by
  simp [step, there]

theorem step_read (answers : InboundAnswers) (there : w.messages[i]? = some ⟨msg, .resolved actor⟩) :
    step uuids lower w (.read i answers) =
      some (w.turnTo i ⟨msg, .resolved actor⟩ (afterRead uuids answers w.deliveries actor msg) []) := by
  simp [step, there]

theorem step_perform {e : Effect} {todo : List Effect} (there : w.messages[i]? = some ⟨msg, .running actor (e :: todo)⟩) :
    step uuids lower w (.perform i) = some (w.turnTo i ⟨msg, .running actor (e :: todo)⟩ (.running actor todo) [e]) := by
  simp [step, there]

theorem perform_all {todo : List Effect} (there : w.messages[i]? = some ⟨msg, .running actor todo⟩) :
    ∃ after, run (step uuids lower) w (List.replicate todo.length (.perform i)) = some after ∧
      after.log = w.log ++ todo.map (fun e => (i, e)) ∧ after.approvals = w.approvals := by
  induction todo generalizing w with
  | nil => exact ⟨w, rfl, by simp, rfl⟩
  | cons e todo ih =>
      obtain ⟨after, performed, log, same⟩ := ih (getElem?_turnTo _ _ there)
      refine ⟨after, (run_cons).mpr ⟨_, step_perform there, performed⟩, ?_, same⟩
      rw [log]
      simp [World.turnTo]

theorem settle_all {approved : Bool} {id : Uuid} (answers : InboundAnswers)
    (there : w.messages[i]? = some ⟨msg, .deciding actor approved id⟩) :
    let handled := decideOverChat answers w.approvals actor approved id (msg.correlation.sessionId msg.channel)
    ∃ after, run (step uuids lower) w [.settle i answers] = some after ∧
      after.log = w.log ++ (handled.effects ++ [Effect.finish]).map (fun e => (i, e)) ∧
      after.approvals = handled.approvals := by
  intro handled
  have settled : step uuids lower w (.settle i answers) =
      some { w.turnTo i ⟨msg, .deciding actor approved id⟩ .finished (handled.effects ++ [.finish]) with
        approvals := handled.approvals } := by
    simp only [step, there]
    rfl
  exact ⟨_, (run_cons).mpr ⟨_, settled, rfl⟩, rfl, rfl⟩

/-- Its steps do what the handler does. -/
theorem run_handle (answers : InboundAnswers) (there : w.messages[i]? = some ⟨msg, .received⟩)
    (identity : answers.identity = .ok (w.accounts.resolveGatewayIdentity msg.channel msg.platformHandle)) :
    ∃ actions after, run (step uuids lower) w actions = some after ∧
      after.log = w.log ++ (Inbound.handle uuids answers w.deliveries w.approvals msg).effects.map (fun e => (i, e)) ∧
      after.approvals = (Inbound.handle uuids answers w.deliveries w.approvals msg).approvals := by
  have first := @step_resolve uuids lower w i msg there
  cases resolved : w.accounts.resolveGatewayIdentity msg.channel msg.platformHandle with
  | none =>
      rw [resolved] at identity first
      refine ⟨[.resolve i false], _, (run_cons).mpr ⟨_, first, rfl⟩, ?_⟩
      simp [Inbound.handle, identity, World.turnTo, afterLookup]
  | some actor =>
      rw [resolved] at identity first
      have found := getElem?_turnTo (.resolved actor) [] there
      have second := @step_read uuids lower _ i msg actor answers found
      have next := getElem?_turnTo (afterRead uuids answers w.deliveries actor msg) [] found
      cases decided : Inbound.decision uuids answers w.deliveries msg with
      | some command =>
          obtain ⟨approved, id⟩ := command
          simp only [afterRead, decided] at next
          obtain ⟨after, settled, log, approvals⟩ := @settle_all uuids lower _ i msg actor approved id answers next
          refine ⟨.resolve i false :: .read i answers :: [.settle i answers], after,
            (run_cons).mpr ⟨_, first, (run_cons).mpr ⟨_, second, ?_⟩⟩, ?_, ?_⟩
          · simpa only [afterRead, World.turnTo, decided] using settled
          · simp [log, Inbound.handle, identity, decided, World.turnTo]
          · simp [approvals, Inbound.handle, identity, decided, World.turnTo]
      | none =>
          simp only [afterRead, decided] at next
          obtain ⟨after, performed, log, approvals⟩ := @perform_all uuids lower _ i msg actor _ next
          let todo := (handleChatSend answers.turn (chatSend actor msg) answers.historyOwner answers.recent).effects
          refine ⟨.resolve i false :: .read i answers :: List.replicate todo.length (.perform i), after,
            (run_cons).mpr ⟨_, first, (run_cons).mpr ⟨_, second, ?_⟩⟩, ?_, ?_⟩
          · simpa only [afterRead, World.turnTo, decided] using performed
          · simp [log, Inbound.handle, identity, decided, World.turnTo, chatSend]
          · simp [approvals, Inbound.handle, identity, decided, World.turnTo]

end Alone

/-! ## Who vouches for an effect -/

variable {start : World} {past : List Gateways.Action}

/-- In some state of the run so far the handle of the message was bound to an active user, who is the actor. -/
def Vouched (uuids : UuidText) (lower : String → String) (start : World) (past : List Gateways.Action)
    (msg : Gateway.InboundMessage) (actor : GatewayActor) : Prop :=
  ∃ earlier later v, past = earlier ++ later ∧ run (step uuids lower) start earlier = some v ∧
    v.accounts.resolveGatewayIdentity msg.channel msg.platformHandle = some actor

theorem Vouched.later {msg : Gateway.InboundMessage} {actor : GatewayActor}
    (vouched : Vouched uuids lower start past msg actor) (actions : List Gateways.Action) :
    Vouched uuids lower start (past ++ actions) msg actor := by
  obtain ⟨earlier, later, v, rfl, reached, resolved⟩ := vouched
  exact ⟨earlier, later ++ actions, v, List.append_assoc _ _ _, reached, resolved⟩

def actor? : Turn → Option GatewayActor
  | .resolved actor | .deciding actor _ _ | .running actor _ => some actor
  | .received | .finished => none

structure Vouches (uuids : UuidText) (lower : String → String) (start : World) (past : List Gateways.Action)
    (w : World) : Prop where
  reached : run (step uuids lower) start past = some w
  turns : ∀ (i : Nat) (m : Message) actor, w.messages[i]? = some m → actor? m.turn = some actor →
    Vouched uuids lower start past m.msg actor
  todo : ∀ (i : Nat) (m : Message) actor todo, w.messages[i]? = some m → m.turn = .running actor todo →
    ∀ e ∈ todo, ActsFor actor e
  log : ∀ i e, (i, e) ∈ w.log → e.sinkCall? = none →
    ∃ (m : Message) (actor : GatewayActor), w.messages[i]? = some m ∧
      Vouched uuids lower start past m.msg actor ∧ ActsFor actor e

/-- A message keeps its place and its text. -/
theorem set_message {i j : Nat} {m m' : Message} (turn : Turn) (at_i : w.messages[i]? = some m)
    (at_j : w.messages[j]? = some m') :
    ∃ turn', (w.messages.set i { m with turn })[j]? = some { m' with turn := turn' } := by
  by_cases same : i = j
  · subst same
    obtain rfl := Option.some.inj (at_i.symm.trans at_j)
    exact ⟨turn, List.getElem?_set_self (List.getElem?_eq_some_iff.mp at_i).1⟩
  · exact ⟨m'.turn, (List.getElem?_set_ne same).trans at_j⟩

theorem moved_actor {a : Accounts} {m : Message} {turn : Turn} {effects : List Effect} {actor : GatewayActor}
    (moved : Moved a m turn effects) (acts : actor? turn = some actor) :
    actor? m.turn = some actor ∨ a.resolveGatewayIdentity m.msg.channel m.msg.platformHandle = some actor := by
  cases moved with
  | found resolved =>
      cases acts
      exact Or.inr resolved
  | decides | chats | performed =>
      cases acts
      exact Or.inl rfl
  | refused | settled | ended => cases acts

theorem moved_todo {a : Accounts} {m : Message} {turn : Turn} {effects : List Effect} {actor : GatewayActor}
    {todo : List Effect} (moved : Moved a m turn effects) (runs : turn = .running actor todo)
    (before : ∀ todo, m.turn = .running actor todo → ∀ e ∈ todo, ActsFor actor e) : ∀ e ∈ todo, ActsFor actor e := by
  cases moved with
  | chats own =>
      cases runs
      exact own
  | performed =>
      cases runs
      exact fun e member => before _ rfl e (List.mem_cons_of_mem _ member)
  | refused | found | decides | settled | ended => cases runs

theorem moved_effects {a : Accounts} {m : Message} {turn : Turn} {effects : List Effect} {e : Effect}
    (moved : Moved a m turn effects) (member : e ∈ effects) (silent : e.sinkCall? = none)
    (before : ∀ actor todo, m.turn = .running actor todo → ∀ e ∈ todo, ActsFor actor e) :
    ∃ actor, actor? m.turn = some actor ∧ ActsFor actor e := by
  cases moved with
  | refused =>
      simp only [List.mem_cons, List.not_mem_nil, or_false] at member
      rcases member with rfl | rfl <;> cases silent
  | settled own => exact ⟨_, rfl, own e member⟩
  | performed =>
      obtain rfl := List.mem_singleton.mp member
      exact ⟨_, rfl, before _ _ rfl e List.mem_cons_self⟩
  | found | decides | chats | ended => cases member

theorem step_vouches (past : List Gateways.Action) (w : World) (action : Gateways.Action) (w' : World)
    (inv : Vouches uuids lower start past w) (moved : step uuids lower w action = some w') :
    Vouches uuids lower start (past ++ [action]) w' := by
  have reached : run (step uuids lower) start (past ++ [action]) = some w' := by
    rw [run_append inv.reached, run, moved]
    rfl
  have now {msg : Gateway.InboundMessage} {actor : GatewayActor}
      (resolved : w.accounts.resolveGatewayIdentity msg.channel msg.platformHandle = some actor) :
      Vouched uuids lower start (past ++ [action]) msg actor := ⟨past, [action], w, rfl, inv.reached, resolved⟩
  rcases gateway_step_cases moved with ⟨i, m, turn, effects, there, move, messages, log, -⟩ | ⟨msg, messages, log, -⟩ |
    ⟨messages, log, -⟩
  · refine ⟨reached, ?_, ?_, ?_⟩ <;> rw [messages]
    · intro j m' actor at_j acts
      rcases set_cases at_j with ⟨rfl, rfl⟩ | ⟨-, old⟩
      · rcases moved_actor move acts with held | resolved
        · exact (inv.turns j m actor there held).later _
        · exact now resolved
      · exact (inv.turns j m' actor old acts).later _
    · intro j m' actor todo at_j runs
      rcases set_cases at_j with ⟨rfl, rfl⟩ | ⟨-, old⟩
      · exact moved_todo move runs fun todo => inv.todo j m actor todo there
      · exact inv.todo j m' actor todo old runs
    · intro j e logged silent
      rw [log] at logged
      rcases List.mem_append.mp logged with before | new
      · obtain ⟨m', actor, at_j, vouched, acts⟩ := inv.log j e before silent
        obtain ⟨turn', after⟩ := set_message turn there at_j
        exact ⟨_, actor, after, vouched.later _, acts⟩
      · obtain ⟨e', member, same⟩ := List.mem_map.mp new
        cases same
        obtain ⟨actor, held, acts⟩ := moved_effects move member silent fun actor todo => inv.todo i m actor todo there
        obtain ⟨turn', after⟩ := set_message turn there there
        exact ⟨_, actor, after, (inv.turns i m actor there held).later _, acts⟩
  · refine ⟨reached, ?_, ?_, ?_⟩ <;> rw [messages]
    · intro j m' actor at_j acts
      rcases snoc_cases at_j with old | ⟨-, rfl⟩
      · exact (inv.turns j m' actor old acts).later _
      · cases acts
    · intro j m' actor todo at_j runs
      rcases snoc_cases at_j with old | ⟨-, rfl⟩
      · exact inv.todo j m' actor todo old runs
      · cases runs
    · intro j e logged silent
      rw [log] at logged
      obtain ⟨m', actor, at_j, vouched, acts⟩ := inv.log j e logged silent
      exact ⟨m', actor, (List.getElem?_append_left (List.getElem?_eq_some_iff.mp at_j).1).trans at_j,
        vouched.later _, acts⟩
  · refine ⟨reached, ?_, ?_, ?_⟩ <;> rw [messages]
    · intro j m' actor at_j acts
      exact (inv.turns j m' actor at_j acts).later _
    · exact inv.todo
    · intro j e logged silent
      rw [log] at logged
      obtain ⟨m', actor, at_j, vouched, acts⟩ := inv.log j e logged silent
      exact ⟨m', actor, at_j, vouched.later _, acts⟩

theorem run_vouches {actions : List Gateways.Action} {db : Directory}
    (reached : run (step uuids lower) (.new db) actions = some w) : Vouches uuids lower (.new db) actions w := by
  have fresh : Vouches uuids lower (.new db) [] (.new db) := by
    refine ⟨rfl, ?_, ?_, ?_⟩ <;> simp [World.new]
  exact history_of_run step_vouches fresh reached

def staff : Directory where
  users := []
  ids := List.nodup_nil
  usernames := List.nodup_nil
  roles := ["approver"]
  grants := []
  sessions := []

def enrolled : List Gateways.Action :=
  [.insertUser 9 "ana" "", .assignRole 9 "approver", .addGatewayBinding 5 " telegram" "42" "ana" 9]

def inboundAnswers : InboundAnswers where
  identity := .error ""
  lookupReached := true
  guard := true
  decidedAt := some 3
  turn := ⟨fun _ => none, .error "no key", ⟨"", true⟩, fun _ => .error "", fun _ => none, fun _ => .ok (),
    fun _ _ => .error "", fun _ _ => .error "", fun _ => ""⟩
  historyOwner := none
  recent := .ok []

def fromAna (text : String) : Gateway.InboundMessage := ⟨"telegram", "42", text, ⟨none, "42"⟩, none⟩

def approvalRun : List Gateways.Action :=
  enrolled ++ [.enqueue 1 0 ⟨"user:bob", "net.reboot", none, .null⟩, .receive (fromAna ("approve " ++ Uuid.hyphenated 1)),
    .resolve 0 false, .read 0 inboundAnswers, .settle 0 inboundAnswers]

/-- The references and the unique key of the bindings. -/
structure Kept (a : Accounts) : Prop where
  users : ∀ gi ∈ a.identities, a.db.hasUser gi.userId = true
  keys : (a.identities.map GatewayIdentity.key).Nodup

variable {a after : Accounts} {channel platformHandle : String}

theorem hasUser_iff {db : Directory} {id : Uuid} : db.hasUser id = true ↔ id ∈ db.users.map User.id := by
  simp [Directory.hasUser]

theorem Kept.withUsers {db : Directory} (kept : Kept a) (users : ∀ id, a.db.hasUser id = true → db.hasUser id = true) :
    Kept { a with db } :=
  ⟨fun gi member => users _ (kept.users gi member), kept.keys⟩

theorem createGatewayIdentity_some {id userId : Uuid} {enrolledBy : Option Uuid}
    (created : a.createGatewayIdentity id channel platformHandle userId enrolledBy = some after) :
    after = { a with identities := ⟨id, channel, platformHandle, userId, enrolledBy⟩ :: a.identities } ∧
      (channel, platformHandle) ∉ a.identities.map GatewayIdentity.key ∧ a.db.hasUser userId = true := by
  unfold Accounts.createGatewayIdentity at created
  split at created
  · cases created
  · rename_i allowed
    cases created
    simp only [Bool.or_eq_true, not_or, Bool.not_eq_true, Bool.not_eq_false'] at allowed
    refine ⟨rfl, ?_, allowed.1.2⟩
    intro taken
    obtain ⟨gi, member, key⟩ := List.mem_map.mp taken
    have free := List.any_eq_false.mp allowed.1.1 gi member
    simp [key] at free

theorem setUserStatus_hasUser {db db' : Directory} {target : Uuid} {text : String}
    (written : db.setUserStatus target text = some db') (id : Uuid) : db'.hasUser id = db.hasUser id := by
  have same (status : Status) : ((db.updateStatus target status).deleteSessionsOf target).hasUser id = db.hasUser id := by
    simp [Directory.hasUser, Directory.updateStatus, Directory.deleteSessionsOf, List.any_map, Function.comp_def]
  unfold Directory.setUserStatus at written
  split at written
  · cases written
    exact same _
  · split at written
    · cases written
    · cases written
      rfl

theorem Kept.administered (kept : Kept a) (change : Administered lower a action after) : Kept after := by
  cases change with
  | inserted inserted =>
      apply kept.withUsers
      intro id known
      rw [hasUser_iff, (insertUser_spec inserted).1]
      exact List.mem_cons_of_mem _ ((hasUser_iff).mp known)
  | status written => exact kept.withUsers fun id known => (setUserStatus_hasUser written id).trans known
  | granted assigned =>
      apply kept.withUsers
      intro id known
      rw [hasUser_iff, (assignRole_spec assigned).1]
      exact (hasUser_iff).mp known
  | revoked => exact kept.withUsers fun _ known => known
  | bound created =>
      obtain ⟨rfl, fresh, known⟩ := createGatewayIdentity_some created
      refine ⟨?_, List.nodup_cons.mpr ⟨fresh, kept.keys⟩⟩
      intro gi member
      rcases List.mem_cons.mp member with rfl | old
      · exact known
      · exact kept.users gi old
  | unbound =>
      exact ⟨fun gi member => kept.users gi (List.mem_of_mem_filter member),
        kept.keys.sublist (List.filter_sublist.map _)⟩
  | other => exact kept

/-- The action binds the handle, or makes the user active that it is bound to. -/
def reopens (lower : String → String) (channel platformHandle : String) (w : World) : Gateways.Action → Bool
  | .addGatewayBinding _ c h _ _ => (lower (trim c), trim h) = (channel, platformHandle)
  | .setUserStatus id status =>
      status = "active" && w.accounts.identities.any fun gi => gi.key = (channel, platformHandle) && gi.userId = id
  | _ => false

theorem unresolved_administered (kept : Kept w.accounts) (still : reopens lower channel platformHandle w action = false)
    (change : Administered lower w.accounts action after)
    (closed : w.accounts.resolveGatewayIdentity channel platformHandle = none) :
    after.resolveGatewayIdentity channel platformHandle = none := by
  rw [resolve_eq_none] at closed ⊢
  cases change with
  | @inserted id username passwordHash db inserted =>
      intro gi member key
      rw [isActive_cons (insertUser_spec inserted).1, closed gi member key, Bool.or_false]
      have different : id ≠ gi.userId := by
        rintro rfl
        have known := (hasUser_iff).mp (kept.users gi member)
        unfold Directory.insertUser at inserted
        split at inserted
        · rename_i fresh
          exact fresh.1 known
        · cases inserted
      simp [different]
  | @status id status db written =>
      intro gi member key
      apply setUserStatus_inactive written (closed gi member key)
      rintro rfl active
      have isActive := (ofText?_eq_active).mp active
      simp only [reopens, isActive, decide_true, Bool.true_and, List.any_eq_false] at still
      exact still gi member (by simp [key])
  | granted assigned =>
      intro gi member key
      rw [isActive_eq (assignRole_spec assigned).1]
      exact closed gi member key
  | revoked => exact closed
  | @bound id c h username admin userId after created =>
      obtain ⟨rfl, -, -⟩ := createGatewayIdentity_some created
      intro gi member key
      rcases List.mem_cons.mp member with rfl | old
      · simp only [reopens, decide_eq_false_iff_not] at still
        exact absurd key still
      · exact closed gi old key
  | unbound => exact fun gi member => closed gi (List.mem_of_mem_filter member)
  | other => exact closed

/-! ## Refusals -/

def effectsOf (w : World) (i : Nat) : List Effect := (w.log.filter fun entry => entry.1 = i).map Prod.snd

/-- Nothing was done for a message that was not looked up yet. -/
def Untouched (w : World) : Prop :=
  ∀ i, (∀ m, w.messages[i]? = some m → m.turn = .received) → effectsOf w i = []

theorem effectsOf_append {log : List (Nat × Effect)} (same : w'.log = w.log ++ log) (i : Nat) :
    effectsOf w' i = effectsOf w i ++ (log.filter fun entry => entry.1 = i).map Prod.snd := by
  rw [effectsOf, same, List.filter_append, List.map_append]
  rfl

theorem effectsOf_moved {i : Nat} {effects : List Effect} (log : w'.log = w.log ++ effects.map fun e => (i, e)) (j : Nat) :
    effectsOf w' j = if j = i then effectsOf w j ++ effects else effectsOf w j := by
  rw [effectsOf_append log j]
  split_ifs with same
  · subst same
    simp [List.filter_map, Function.comp_def]
  · have none : (effects.map fun e => (i, e)).filter (fun entry => entry.1 = j) = [] := by
      simp [List.filter_map, Function.comp_def, Ne.symm same]
    rw [none, List.map_nil, List.append_nil]

/-- The message was not looked up when the run was in state `w`, or came later. -/
def Waiting (w : World) (i : Nat) : Prop := ∀ m, w.messages[i]? = some m → m.turn = .received

def refusals (channel : String) : List (List Effect) :=
  [[.emit (.error (notEnrolled channel)), .finish], [.emit (.error "internal error resolving identity"), .finish]]

structure Barred (w : World) (channel platformHandle : String) (v : World) : Prop where
  kept : Kept v.accounts
  closed : v.accounts.resolveGatewayIdentity channel platformHandle = none
  untouched : Untouched v
  refused : ∀ (i : Nat) (m : Message), v.messages[i]? = some m → m.msg.channel = channel →
    m.msg.platformHandle = platformHandle → Waiting w i →
      m.turn = .received ∨ m.turn = .finished ∧ effectsOf v i ∈ refusals channel

theorem moved_not_received {m : Message} {turn : Turn} {effects : List Effect} (moved : Moved a m turn effects) :
    turn ≠ .received := by
  cases moved <;> nofun

theorem step_kept (kept : Kept w.accounts) (moved : step uuids lower w action = some w') : Kept w'.accounts := by
  rcases gateway_step_cases moved with ⟨i, m, turn, effects, -, -, -, -, same⟩ | ⟨msg, -, -, same⟩ | ⟨-, -, change⟩
  · exact same ▸ kept
  · exact same ▸ kept
  · exact kept.administered change

theorem step_untouched (untouched : Untouched w) (moved : step uuids lower w action = some w') : Untouched w' := by
  intro j waiting
  rcases gateway_step_cases moved with ⟨i, m, turn, effects, there, move, messages, log, -⟩ | ⟨msg, messages, log, -⟩ |
    ⟨messages, log, -⟩
  · have other : j ≠ i := by
      rintro rfl
      have after : w'.messages[j]? = some { m with turn } := by
        rw [messages]
        exact List.getElem?_set_self (List.getElem?_eq_some_iff.mp there).1
      exact moved_not_received move (waiting _ after)
    rw [effectsOf_moved log j, if_neg other]
    apply untouched
    intro m' at_j
    exact waiting m' (by rw [messages, List.getElem?_set_ne (Ne.symm other), at_j])
  · rw [effectsOf, log]
    apply untouched
    intro m' at_j
    apply waiting m'
    rw [messages]
    exact (List.getElem?_append_left (List.getElem?_eq_some_iff.mp at_j).1).trans at_j
  · rw [effectsOf, log]
    apply untouched
    intro m' at_j
    exact waiting m' (by rw [messages, at_j])

theorem step_barred (start v : World) (action : Gateways.Action) (v' : World)
    (still : reopens lower channel platformHandle v action = false) (barred : Barred start channel platformHandle v)
    (moved : step uuids lower v action = some v') : Barred start channel platformHandle v' := by
  have kept := step_kept barred.kept moved
  have untouched := step_untouched barred.untouched moved
  rcases gateway_step_cases moved with ⟨i, m, turn, effects, there, move, messages, log, same⟩ |
    ⟨msg, messages, log, same⟩ | ⟨messages, log, change⟩
  · refine ⟨kept, by rw [same, barred.closed], untouched, ?_⟩
    intro j m' at_j channel_eq handle_eq waiting
    rw [messages] at at_j
    rw [effectsOf_moved log j]
    rcases set_cases at_j with ⟨rfl, rfl⟩ | ⟨other, old⟩
    · apply Or.inr
      rw [if_pos rfl]
      have source := barred.refused j m there channel_eq handle_eq waiting
      cases move with
      | @refused msg error why =>
          rw [barred.untouched j fun m' at_j => (Option.some.inj (there.symm.trans at_j)) ▸ rfl, List.nil_append]
          refine ⟨rfl, ?_⟩
          obtain rfl : msg.channel = channel := channel_eq
          rcases why with rfl | rfl <;> simp [refusals]
      | found resolved =>
          obtain rfl : _ = channel := channel_eq
          obtain rfl : _ = platformHandle := handle_eq
          rw [barred.closed] at resolved
          cases resolved
      | decides | chats | settled | performed | ended => simp at source
    · rw [if_neg other]
      exact barred.refused j m' old channel_eq handle_eq waiting
  · refine ⟨kept, by rw [same, barred.closed], untouched, ?_⟩
    intro j m' at_j channel_eq handle_eq waiting
    rw [messages] at at_j
    rw [effectsOf, log]
    rcases snoc_cases at_j with old | ⟨-, rfl⟩
    · exact barred.refused j m' old channel_eq handle_eq waiting
    · exact Or.inl rfl
  · refine ⟨kept, unresolved_administered barred.kept still change barred.closed, untouched, ?_⟩
    intro j m' at_j channel_eq handle_eq waiting
    rw [messages] at at_j
    rw [effectsOf, log]
    exact barred.refused j m' at_j channel_eq handle_eq waiting

theorem deleted_unresolved (kept : Kept a) {gi : GatewayIdentity} (member : gi ∈ a.identities) :
    (a.deleteGatewayIdentity gi.id).resolveGatewayIdentity gi.channel gi.platformHandle = none := by
  rw [resolve_eq_none]
  intro other listed key
  obtain ⟨listed, different⟩ := List.mem_filter.mp listed
  have same := List.inj_on_of_nodup_map kept.keys listed member key
  simp [same] at different

theorem disabled_unresolved (kept : Kept a) {gi : GatewayIdentity} (member : gi ∈ a.identities) {status : String}
    {db : Directory} (written : a.db.setUserStatus gi.userId status = some db) (disables : status ≠ "active") :
    ({ a with db } : Accounts).resolveGatewayIdentity gi.channel gi.platformHandle = none := by
  rw [resolve_eq_none]
  intro other listed key
  have same := List.inj_on_of_nodup_map kept.keys listed member key
  subst same
  unfold Directory.setUserStatus at written
  split at written
  · rename_i parsed
    cases written
    rw [← Bool.not_eq_true, isActive_updateStatus, if_pos rfl]
    rintro ⟨-, rfl⟩
    exact disables ((ofText?_eq_active).mp parsed)
  · rw [if_pos (kept.users other member)] at written
    cases written

/-- Deleting a binding, or disabling its user, closes the handle, and from then on its messages are refused, except those
that were looked up before. -/
theorem revoked_handle_refused (uuids : UuidText) (lower : String → String) (db : Directory)
    (past : List Gateways.Action) (w : World) (reached : run (step uuids lower) (.new db) past = some w) :
    (∀ gi ∈ w.accounts.identities,
      (w.accounts.deleteGatewayIdentity gi.id).resolveGatewayIdentity gi.channel gi.platformHandle = none ∧
      ∀ status db', w.accounts.db.setUserStatus gi.userId status = some db' → status ≠ "active" →
        ({ w.accounts with db := db' } : Accounts).resolveGatewayIdentity gi.channel gi.platformHandle = none) ∧
    ∀ channel platformHandle later w', w.accounts.resolveGatewayIdentity channel platformHandle = none →
      run (step uuids lower) w later = some w' →
      AllSteps (step uuids lower) (fun v action => reopens lower channel platformHandle v action = false) w later →
      ∀ (i : Nat) (m : Message), w'.messages[i]? = some m → m.msg.channel = channel →
        m.msg.platformHandle = platformHandle → Waiting w i → effectsOf w' i ∈ [] :: refusals channel := by
  have kept : Kept w.accounts := by
    refine invariant_of_run (fun _ _ _ kept moved => step_kept kept moved) ⟨?_, ?_⟩ reached
    · simp [World.new]
    · exact List.nodup_nil
  have untouched : Untouched w :=
    invariant_of_run (fun _ _ _ untouched moved => step_untouched untouched moved) (fun _ _ => rfl) reached
  refine ⟨fun gi member => ⟨deleted_unresolved kept member, fun status db' written disables =>
    disabled_unresolved kept member written disables⟩, ?_⟩
  intro channel platformHandle later w' closed continued still i m there channel_eq handle_eq waiting
  have now : Barred w channel platformHandle w :=
    ⟨kept, closed, untouched, fun i m there _ _ waiting => Or.inl (waiting m there)⟩
  have barred := invariant_of_allSteps (step_barred w) still now continued
  rcases barred.refused i m there channel_eq handle_eq waiting with fresh | ⟨-, refused⟩
  · rw [barred.untouched i fun m' at_i => (Option.some.inj (there.symm.trans at_i)) ▸ fresh]
    exact List.mem_cons_self
  · exact List.mem_cons_of_mem _ refused

end Run

/-! Ana is disabled before her next message is looked up. -/

def disabledRun : List Gateways.Action := enrolled ++ [.setUserStatus 9 "disabled"]

def afterwards : List Gateways.Action := [.receive (fromAna "status"), .resolve 0 false, .assignRole 9 "approver"]

theorem sample_revoked_handle : ∃ w w', run (step .hex toAsciiLowercase) (.new staff) disabledRun = some w ∧
    run (step .hex toAsciiLowercase) w afterwards = some w' ∧ effectsOf w' 0 ≠ [] ∧
    effectsOf w' 0 ∈ [] :: refusals "telegram" := by
  have reaches : (run (step .hex toAsciiLowercase) (.new staff) disabledRun).any (fun w =>
      w.accounts.resolveGatewayIdentity "telegram" "42" = none && w.messages = [] &&
      decide (AllSteps (step .hex toAsciiLowercase)
        (fun v action => reopens toAsciiLowercase "telegram" "42" v action = false) w afterwards) &&
      (run (step .hex toAsciiLowercase) w afterwards).any fun w' =>
        w'.messages.map Message.msg = [fromAna "status"] && effectsOf w' 0 ≠ []) = true := by decide +kernel
  obtain ⟨w, reached, now⟩ := (Option.any_eq_true _ _).mp reaches
  simp only [Bool.and_eq_true, decide_eq_true_eq] at now
  obtain ⟨⟨⟨closed, empty⟩, still⟩, next⟩ := now
  obtain ⟨w', continued, after⟩ := (Option.any_eq_true _ _).mp next
  simp only [Bool.and_eq_true, decide_eq_true_eq] at after
  obtain ⟨messages, answered⟩ := after
  refine ⟨w, w', reached, continued, answered, ?_⟩
  obtain ⟨m, there, same⟩ := List.map_eq_singleton_iff.mp messages
  have at_0 : w'.messages[0]? = some m := by rw [there]; rfl
  exact (revoked_handle_refused .hex toAsciiLowercase staff disabledRun w reached).2 "telegram" "42" afterwards w' closed
    continued still 0 m at_0 (by rw [same]; rfl) (by rw [same]; rfl) (by simp [Waiting, empty])

end Daimon.Proof.App
