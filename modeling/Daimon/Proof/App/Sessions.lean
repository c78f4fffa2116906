import Daimon.Proof.App.History

/-!
# Whose session it is

The durable tier refuses a turn on the session of another user, the working memory does not. A turn on the session of
another user is kept apart from it exactly if it ends before it reads the conversation, or finds nothing there and
leaves nothing.
-/

namespace Daimon.Proof.App
open Daimon.Core Daimon.App.Chat Lib
open Daimon.Redis (ConvMessage)

section Sessions
variable (backend : Backend)

/-- A turn of the user `a` on a session that belongs to another. -/
def intrudes (a : Uuid) (sessionId : String) (w : World) : Event → Bool
  | .chatSend send _ _ => send.sessionId = sessionId && userIdForActor w.users send.actorId = some a &&
      (w.chatSessions sessionId).any fun session => session.ownerId ≠ a
  | .forget _ => false

/-- If the turn reads the conversation, it finds nothing and all its pushes are lost. -/
def LeavesNothing (w : World) : Event → Prop
  | .chatSend send answers stores => Loads send.sessionId (.chatSend send answers stores) →
      window backend w send.sessionId (.chatSend send answers stores) = [] ∧
        ∀ i role content id, (w.turn backend send answers stores).effects[i]? = some (.push role content id) →
          (stores.moments i).pushed = .lost
  | .forget _ => True

def emptied (w : World) (sessionId : String) : World :=
  { w with working := Function.update w.working sessionId .new }

/-- The event does what it does on an empty conversation, and leaves the session alone in both tiers. -/
structure Isolated (w : World) (sessionId : String) (event : Event) : Prop where
  blind : (outcome backend w event).effects = (outcome backend (emptied w sessionId) event).effects
  working : ∀ w', step backend w event = some w' → w'.working sessionId = w.working sessionId
  session : ∀ w', step backend w event = some w' → w'.chatSessions sessionId = w.chatSessions sessionId
  turns : ∀ w', step backend w event = some w' →
    (w'.chatTurns.filter fun turn => turn.sessionId = sessionId) =
      w.chatTurns.filter fun turn => turn.sessionId = sessionId

/-! ## The durable tier -/

variable {backend} {w : World} {send : ChatSend} {answers : Answers} {stores : Stores} {a : Uuid} {sessionId : String}

/-- The session belongs to a user who is not the owner of any of these turns. -/
def Refuses (w : World) (sessionId : String) (effects : List Effect) : Prop :=
  ∃ session, w.chatSessions sessionId = some session ∧
    ∀ owner role content id, .append owner role content id ∈ effects → session.ownerId ≠ owner

theorem performAll_refused {effects : List Effect} {moments : Nat → Moment} {i : Nat}
    (refuses : Refuses w sessionId effects) :
    w.performAll backend sessionId moments i effects =
      { w with working := (w.performAll backend sessionId moments i effects).working } := by
  induction effects generalizing w i with
  | nil => rfl
  | cons effect rest ih =>
      obtain ⟨session, row, others⟩ := refuses
      have later : ∀ owner role content id, .append owner role content id ∈ rest → session.ownerId ≠ owner :=
        fun owner role content id member => others owner role content id (List.mem_cons_of_mem _ member)
      rw [World.performAll]
      cases effect with
      | append owner role content id =>
          have same : w.perform backend sessionId (moments i) (.append owner role content id) = w := by
            simp [World.perform, World.appendChatTurn, row, others owner role content id List.mem_cons_self]
          rw [same]
          exact ih ⟨session, row, later⟩
      | push role content id =>
          rw [ih ⟨session, by simpa [World.perform] using row, later⟩]
          simp [World.perform]
      | emit | finish | request | capture | dispatch | decide => exact ih ⟨session, row, later⟩

theorem owner_of_turn {o : Uuid} {role content : String} {id : Option String}
    (member : .append o role content id ∈ (w.turn backend send answers stores).effects) :
    w.historyOwner send stores = some o := by
  by_cases loads : Loads send.sessionId (.chatSend send answers stores)
  · obtain ⟨-, opens, read⟩ := loads
    rw [turn_loaded read, handleChatSend_opened opens] at member
    simp only [List.mem_append, List.mem_singleton, reduceCtorEq, or_false] at member
    rcases member with first | later
    · exact mirror_answering _ _ _ _ _ first
    · exact (turnLoop_speaking _ _ _ _ _ _ later).appended
  · obtain ⟨message, refused⟩ := @turn_refused backend w _ _ _ loads
    simp [refused, refuse] at member

theorem intrusion_refused (intrusion : intrudes a sessionId w (.chatSend send answers stores) = true) :
    Refuses w send.sessionId (w.turn backend send answers stores).effects := by
  simp only [intrudes, Bool.and_eq_true, decide_eq_true_eq] at intrusion
  obtain ⟨⟨rfl, user⟩, owned⟩ := intrusion
  obtain ⟨session, row, other⟩ := (Option.any_eq_true _ _).mp owned
  refine ⟨session, row, fun owner role content id member => ?_⟩
  have same := owner_of_turn member
  simp only [World.historyOwner, user] at same
  split at same
  · rw [← Option.some.inj same]
    exact of_decide_eq_true other
  · cases same

/-! ## The working memory -/

theorem pushAll_lost {effects : List Effect} {moments : Nat → Moment} {i : Nat} {c : Conversation}
    (lost : ∀ j role content id, effects[j]? = some (.push role content id) → (moments (i + j)).pushed = .lost) :
    pushAll backend moments i c effects = c := by
  induction effects generalizing i c with
  | nil => rfl
  | cons effect rest ih =>
      have later : ∀ j role content id, rest[j]? = some (.push role content id) →
          (moments (i + 1 + j)).pushed = .lost := by
        intro j role content id found
        have same : i + 1 + j = i + (j + 1) := by omega
        rw [same]
        exact lost (j + 1) role content id (by simpa using found)
      cases effect with
      | push role content id =>
          have first : (moments i).pushed = .lost := lost 0 role content id rfl
          rw [pushAll, first]
          exact ih later
      | emit | finish | request | append | capture | dispatch | decide => exact ih later

theorem pushAll_invariant {effects : List Effect} {moments : Nat → Moment} {i : Nat} {c : Conversation}
    {holds : Conversation → Prop}
    (kept : ∀ c j role content id, holds c →
      holds (c.convPush backend (moments j).now ⟨role, content, id, (moments j).ts⟩ (moments j).pushed))
    (start : holds c) : holds (pushAll backend moments i c effects) := by
  induction effects generalizing i c with
  | nil => exact start
  | cons effect rest ih =>
      cases effect with
      | push role content id => exact ih (kept c i role content id start)
      | emit | finish | request | append | capture | dispatch | decide => exact ih start

/-- What the first push that is not lost brings about, and every push keeps. -/
theorem pushAll_reaches {effects : List Effect} {moments : Nat → Moment} {i j : Nat} {c : Conversation}
    {holds : Conversation → Prop} {role content : String} {id : Option String}
    (made : ∀ j role content id, (moments j).pushed ≠ .lost →
      holds (c.convPush backend (moments j).now ⟨role, content, id, (moments j).ts⟩ (moments j).pushed))
    (kept : ∀ c j role content id, holds c →
      holds (c.convPush backend (moments j).now ⟨role, content, id, (moments j).ts⟩ (moments j).pushed))
    (found : effects[j]? = some (.push role content id)) (stored : (moments (i + j)).pushed ≠ .lost) :
    holds (pushAll backend moments i c effects) := by
  induction effects generalizing i j with
  | nil => simp at found
  | cons effect rest ih =>
      cases j with
      | zero =>
          obtain rfl : effect = .push role content id := by simpa using found
          rw [pushAll]
          exact pushAll_invariant kept (made i role content id stored)
      | succ j =>
          have later : rest[j]? = some (.push role content id) := by simpa using found
          have same : i + (j + 1) = i + 1 + j := by omega
          rw [same] at stored
          cases effect with
          | push role' content' id' =>
              by_cases lost : (moments i).pushed = .lost
              · rw [pushAll, lost]
                exact ih later stored
              · rw [pushAll]
                exact pushAll_invariant kept (made i role' content' id' lost)
          | emit | finish | request | append | capture | dispatch | decide => exact ih later stored

theorem convRecent_eq_nil {now : Nat} {c : Conversation} (none : c.convRecent backend now 64 = []) :
    (c.current backend now).messages = [] := by
  have length := length_convRecent backend now 64 c
  rw [none] at length
  refine List.length_eq_zero_iff.mp ?_
  simp only [List.length_nil] at length
  omega

theorem convPush_deadline {readAt now : Nat} {msg : ConvMessage} {pushed : Pushed} {c : Conversation}
    (after : readAt ≤ now) (stored : pushed ≠ .lost)
    (before : ∀ deadline ∈ (c.current backend now).deadline, readAt < deadline) :
    ∀ deadline ∈ (c.convPush backend now msg pushed).deadline, readAt < deadline := by
  cases pushed with
  | lost => exact absurd rfl stored
  | unrenewed => exact before
  | stored =>
      intro deadline has
      simp only [Conversation.convPush] at has
      split at has
      · obtain rfl := Option.some.inj has
        omega
      · exact before deadline has

/-- A push on a conversation of which nothing is there shows: in its messages, or in its deadline. -/
theorem all_lost_of_unchanged {effects : List Effect} {c : Conversation}
    (none : c.convRecent backend stores.readAt 64 = [])
    (unchanged : pushAll backend stores.moments 0 c effects = c) :
    ∀ i role content id, effects[i]? = some (.push role content id) → (stores.moments i).pushed = .lost := by
  intro i role content id found
  by_contra stored
  have stored : (stores.moments (0 + i)).pushed ≠ .lost := by rwa [Nat.zero_add]
  by_cases gone : (c.deadline.any fun deadline => backend.gone deadline stores.readAt) = true
  · obtain ⟨old, has, past⟩ := (Option.any_eq_true _ _).mp gone
    have fresh : ∀ deadline ∈ c.deadline, stores.readAt < deadline := by
      have later := @pushAll_reaches backend effects stores.moments 0 i c
        (fun c => ∀ deadline ∈ c.deadline, stores.readAt < deadline) role content id ?_ ?_ found stored
      · rwa [unchanged] at later
      · intro j role content id stored
        have dropped : c.current backend (stores.moments j).now = .new := by
          simp [Conversation.current, has, backend.lasting (stores.ordered j) past]
        exact convPush_deadline (stores.ordered j) stored (by simp [dropped, Conversation.new])
      · intro c j role content id before
        by_cases lost : (stores.moments j).pushed = .lost
        · rw [lost]
          exact before
        · refine convPush_deadline (stores.ordered j) lost fun deadline kept => before deadline ?_
          unfold Conversation.current at kept
          split at kept
          · cases kept
          · exact kept
    rw [backend.kept (fresh old (by simp [has]))] at past
    cases past
  · have present : c.current backend stores.readAt = c := by simp [Conversation.current, gone]
    have empty := present ▸ convRecent_eq_nil none
    have some := @pushAll_reaches backend effects stores.moments 0 i c (fun c => c.messages ≠ []) role content id
      ?_ ?_ found stored
    · rw [unchanged] at some
      exact some empty
    · intro j role content id stored
      simp [convPush_messages backend stored]
    · intro c j role content id before
      by_cases lost : (stores.moments j).pushed = .lost
      · rw [lost]
        exact before
      · simp [convPush_messages backend lost]

/-! ## Intrusions -/

theorem intrusion_world (intrusion : intrudes a sessionId w (.chatSend send answers stores) = true) :
    step backend w (.chatSend send answers stores) = some { w with
      working := Function.update w.working send.sessionId (pushAll backend stores.moments 0 (w.working send.sessionId)
        (w.turn backend send answers stores).effects) } := by
  rw [step, performAll_refused (intrusion_refused intrusion), performAll_working]

theorem leavesNothing_unchanged (intrusion : intrudes a sessionId w (.chatSend send answers stores) = true)
    (nothing : LeavesNothing backend w (.chatSend send answers stores)) :
    step backend w (.chatSend send answers stores) = some w := by
  have same : pushAll backend stores.moments 0 (w.working send.sessionId)
      (w.turn backend send answers stores).effects = w.working send.sessionId := by
    by_cases loads : Loads send.sessionId (.chatSend send answers stores)
    · exact pushAll_lost fun i role content id found => by
        rw [Nat.zero_add]
        exact (nothing loads).2 i role content id found
    · obtain ⟨message, refused⟩ := @turn_refused backend w _ _ _ loads
      rw [refused]
      rfl
  rw [intrusion_world intrusion, same, Function.update_eq_self]

theorem turn_congr {w' : World} (users : w.users = w'.users)
    (same : window backend w send.sessionId (.chatSend send answers stores) =
      window backend w' send.sessionId (.chatSend send answers stores)) :
    w.turn backend send answers stores = w'.turn backend send answers stores := by
  have recent : w.recent backend send stores = w'.recent backend send stores := by
    unfold World.recent
    split
    · rfl
    · exact congrArg Except.ok same
  simp only [World.turn, World.historyOwner, recent, users]

theorem turn_aside {w' : World} (users : w.users = w'.users)
    (aside : ¬ Loads send.sessionId (.chatSend send answers stores)) :
    w.turn backend send answers stores = w'.turn backend send answers stores := by
  cases read : stores.readError with
  | some e => simp only [World.turn, World.recent, read, World.historyOwner, users]
  | none =>
      simp only [World.turn, World.historyOwner, users]
      exact handleChatSend_closed (fun opens => aside ⟨rfl, opens, read⟩) _ _

theorem emptied_window (event : Event) : window backend (emptied w sessionId) sessionId event = [] := by
  cases event with
  | forget => rfl
  | chatSend => simp [window, emptied, Conversation.convRecent, Conversation.current, Conversation.new]

theorem isolated_iff {event : Event} (intrusion : intrudes a sessionId w event = true) :
    Isolated backend w sessionId event ↔ LeavesNothing backend w event := by
  cases event with
  | forget => cases intrusion
  | chatSend send answers stores =>
      have session : send.sessionId = sessionId := by
        simp only [intrudes, Bool.and_eq_true, decide_eq_true_eq] at intrusion
        exact intrusion.1.1
      subst session
      constructor
      · rintro ⟨blind, working, -, -⟩ loads
        have none : window backend w send.sessionId (.chatSend send answers stores) = [] := by
          obtain ⟨-, opens, read⟩ := loads
          simp only [outcome, turn_loaded read] at blind
          obtain ⟨later, first⟩ := @opened_requests answers send (w.historyOwner send stores) opens
            (window backend w send.sessionId (.chatSend send answers stores))
          obtain ⟨later', first'⟩ := @opened_requests answers send (w.historyOwner send stores) opens
            (window backend (emptied w send.sessionId) send.sessionId (.chatSend send answers stores))
          have heads := (List.cons.inj (first.symm.trans ((congrArg requests blind).trans first'))).1
          have messages := congrArg CompletionRequest.messages heads
          simpa [completionRequest, emptied_window] using messages
        refine ⟨none, all_lost_of_unchanged none ?_⟩
        have kept := working _ (intrusion_world intrusion)
        simpa using kept
      · intro nothing
        have unchanged := leavesNothing_unchanged intrusion nothing
        refine ⟨?_, ?_, ?_, ?_⟩
        · by_cases loads : Loads send.sessionId (.chatSend send answers stores)
          · have same := (nothing loads).1.trans
              (@emptied_window backend w send.sessionId (.chatSend send answers stores)).symm
            exact congrArg Outcome.effects (@turn_congr backend w _ _ _ (emptied w send.sessionId) rfl same)
          · exact congrArg Outcome.effects (@turn_aside backend w _ _ _ (emptied w send.sessionId) rfl loads)
        all_goals
          intro w' taken
          rw [Option.some.inj (taken.symm.trans unchanged)]

/-! ## Runs -/

variable (backend)

def next (w : World) (event : Event) : World := (step backend w event).getD w

def withoutIntrusions (a : Uuid) (sessionId : String) : World → List Event → List Event
  | _, [] => []
  | w, event :: rest =>
      let later := withoutIntrusions a sessionId (next backend w event) rest
      if intrudes a sessionId w event then later else event :: later

def outcomes : World → List Event → List Outcome
  | _, [] => []
  | w, event :: rest => outcome backend w event :: outcomes (next backend w event) rest

def otherOutcomes (a : Uuid) (sessionId : String) : World → List Event → List Outcome
  | _, [] => []
  | w, event :: rest =>
      let later := otherOutcomes a sessionId (next backend w event) rest
      if intrudes a sessionId w event then later else outcome backend w event :: later

def NoTrace (a : Uuid) (sessionId : String) (w : World) (event : Event) : Prop :=
  intrudes a sessionId w event = true → LeavesNothing backend w event

variable {backend}

theorem step_eq_next (w : World) (event : Event) : step backend w event = some (next backend w event) := by
  cases event <;> rfl

theorem noTrace_unnoticed {events : List Event} (met : AllSteps (step backend) (NoTrace backend a sessionId) w events) :
    otherOutcomes backend a sessionId w events = outcomes backend w (withoutIntrusions backend a sessionId w events) ∧
      run (step backend) w events = run (step backend) w (withoutIntrusions backend a sessionId w events) := by
  induction events generalizing w with
  | nil => exact ⟨rfl, rfl⟩
  | cons event rest ih =>
      obtain ⟨first, later⟩ := (allSteps_cons (step_eq_next w event)).mp met
      obtain ⟨told, reached⟩ := ih later
      simp only [otherOutcomes, withoutIntrusions, run, step_eq_next, Option.bind_some]
      by_cases intrusion : intrudes a sessionId w event = true
      · have same : next backend w event = w := by
          cases event with
          | forget => cases intrusion
          | chatSend send answers stores =>
              simp [next, leavesNothing_unchanged intrusion (first intrusion)]
        rw [same] at told reached ⊢
        simp only [intrusion, if_true]
        exact ⟨told, reached⟩
      · simp only [intrusion, Bool.false_eq_true, if_false, outcomes, run, step_eq_next, Option.bind_some]
        exact ⟨congrArg _ told, reached⟩

/-- A turn on the session of another user is isolated from it exactly if it ends before it reads the conversation, or
finds nothing and leaves nothing. In every run whose turns of this kind are so, all the other turns are as they are
without them. -/
theorem chat_sessions_isolated (backend : Backend) (a : Uuid) (sessionId : String) :
    (∀ w event, intrudes a sessionId w event = true →
      (Isolated backend w sessionId event ↔ LeavesNothing backend w event)) ∧
    ∀ w events, AllSteps (step backend) (NoTrace backend a sessionId) w events →
      AllSteps (step backend) (fun w event => intrudes a sessionId w event = true → Isolated backend w sessionId event)
        w events ∧
      otherOutcomes backend a sessionId w events = outcomes backend w (withoutIntrusions backend a sessionId w events) ∧
      run (step backend) w events = run (step backend) w (withoutIntrusions backend a sessionId w events) := by
  refine ⟨fun w event intrusion => isolated_iff intrusion, fun w events met => ⟨?_, noTrace_unnoticed met⟩⟩
  exact met.imp fun w event noTrace intrusion => (isolated_iff intrusion).mpr (noTrace intrusion)

def twoUsers : String → Option Uuid
  | "ana" => some 1
  | "bob" => some 2
  | _ => none

def saying (actorId userMessage : String) (model : Option String) : Event :=
  .chatSend ⟨actorId, "s1", userMessage, model, none⟩ talkAnswers storing

def anaRefused : Event := saying "user:ana" "what was said here?" (some "opus")

theorem refused_unnoticed :
    otherOutcomes .inProc 1 "s1" (World.new twoUsers) [saying "user:bob" "hi" none, anaRefused] =
      outcomes .inProc (World.new twoUsers) [saying "user:bob" "hi" none] := by
  have quiet : ∀ w, NoTrace .inProc 1 "s1" w anaRefused := fun w _ loads => nomatch loads.2.1.1
  have own : NoTrace .inProc 1 "s1" (World.new twoUsers) (saying "user:bob" "hi" none) := nofun
  exact ((chat_sessions_isolated .inProc 1 "s1").2 _ [saying "user:bob" "hi" none, anaRefused]
    ⟨own, quiet _, trivial⟩).2.1

/-- The LLM is given what the owner said for the turn of another user, and what the other user said for the next turn of
the owner. -/
theorem session_shared :
    ∃ w w', run (step .inProc) (World.new twoUsers) [saying "user:bob" "the code is 7" none] = some w ∧
      step .inProc w (saying "user:ana" "what was said here?" none) = some w' ∧
      intrudes 1 "s1" w (saying "user:ana" "what was said here?" none) = true ∧
      ¬ Isolated .inProc w "s1" (saying "user:ana" "what was said here?" none) ∧
      (∃ req ∈ requests (outcome .inProc w (saying "user:ana" "what was said here?" none)).effects,
        .user "the code is 7" ∈ req.messages) ∧
      ∃ req ∈ requests (outcome .inProc w' (saying "user:bob" "thanks" none)).effects,
        .user "what was said here?" ∈ req.messages :=
  ⟨_, _, rfl, rfl, by decide, fun isolated => absurd (isolated.working _ rfl) (by decide), by decide, by decide⟩

end Sessions
end Daimon.Proof.App
