import Daimon.Proof.App.Conversation

/-!
# The history of a conversation

A turn answers every call it passes on, so what it sends to the LLM is well formed if what it reloaded is. The working
memory keeps the results of tools but not the calls they answer: a reloaded window is well formed if there are no results
in it, and the same as what was in memory if no tool was called.
-/

namespace Daimon.Proof.App
open Daimon.Core Daimon.App.Chat Lib
open Daimon.Redis (ConvMessage)

/-- The calls that wait for a result after a message. A result answers one of them, and an assistant message comes when
none waits. -/
def waiting (calls : List String) (m : ChatMessage) : Option (List String) :=
  match m.role with
  | .assistant => if calls = [] then some (m.toolCalls.map (·.id)) else none
  | .tool =>
      match m.toolUseId with
      | some id => if id ∈ calls then some (calls.erase id) else none
      | none => none
  | .user | .system => some calls

def unanswered (messages : List ChatMessage) : Option (List String) := messages.foldlM waiting []

def WellFormed (messages : List ChatMessage) : Prop := (unanswered messages).isSome

instance (messages : List ChatMessage) : Decidable (WellFormed messages) :=
  inferInstanceAs (Decidable ((unanswered messages).isSome = true))

@[simp] def request? : Effect → Option CompletionRequest
  | .request req => some req
  | _ => none

def requests (effects : List Effect) : List CompletionRequest := effects.filterMap request?

@[simp] def reloaded? : Effect → Option ChatMessage
  | .push role content toolUseId => some (convToChat ⟨role, content, toolUseId, 0⟩)
  | _ => none

def reloads (effects : List Effect) : List ChatMessage := effects.filterMap reloaded?

@[simp] theorem requests_nil : requests [] = [] := rfl

@[simp] theorem reloads_nil : reloads [] = [] := rfl

@[simp] theorem requests_cons (effect : Effect) (rest : List Effect) :
    requests (effect :: rest) = (request? effect).toList ++ requests rest := by
  cases effect <;> rfl

@[simp] theorem reloads_cons (effect : Effect) (rest : List Effect) :
    reloads (effect :: rest) = (reloaded? effect).toList ++ reloads rest := by
  cases effect <;> rfl

@[simp] theorem requests_append (first second : List Effect) :
    requests (first ++ second) = requests first ++ requests second := List.filterMap_append

@[simp] theorem reloads_append (first second : List Effect) :
    reloads (first ++ second) = reloads first ++ reloads second := List.filterMap_append

theorem filterMap_emits {α : Type} {f : Effect → Option α} (unseen : ∀ event, f (.emit event) = none)
    (events : List Gateway.TurnEvent) : (events.map .emit).filterMap f = [] := by
  refine List.filterMap_eq_nil_iff.mpr fun effect member => ?_
  obtain ⟨event, -, rfl⟩ := List.mem_map.mp member
  exact unseen event

@[simp] theorem requests_emits (events : List Gateway.TurnEvent) : requests (events.map .emit) = [] :=
  filterMap_emits (fun _ => rfl) events

@[simp] theorem reloads_emits (events : List Gateway.TurnEvent) : reloads (events.map .emit) = [] :=
  filterMap_emits (fun _ => rfl) events

@[simp] theorem requests_mirror (owner : Option Uuid) (role content : String) (id : Option String) :
    requests (mirror owner role content id) = [] := by cases owner <;> rfl

@[simp] theorem reloads_mirror (owner : Option Uuid) (role content : String) (id : Option String) :
    reloads (mirror owner role content id) = [] := by cases owner <;> rfl

theorem unanswered_snoc {history : List ChatMessage} {calls : List String} (left : unanswered history = some calls)
    (m : ChatMessage) : unanswered (history ++ [m]) = waiting calls m := by
  rw [unanswered, List.foldlM_append, ← unanswered, left]
  simp

/-! ## One turn -/

section Turn
variable (answers : Answers) (send : ChatSend) (owner : Option Uuid)

theorem runTool_history (history : List ChatMessage) (call : ToolCall) :
    ∃ output, (runTool answers send owner history call).history = history ++ [.toolResult call.id output] := by
  unfold runTool
  split <;> exact ⟨_, rfl⟩

theorem runTools_requests (history : List ChatMessage) (calls : List ToolCall) :
    requests (runTools answers send owner history calls).effects = [] := by
  refine List.filterMap_eq_nil_iff.mpr fun effect member => ?_
  have answering := runTools_answering answers send owner history calls effect member
  cases effect with
  | request req => exact answering.elim
  | emit | finish | append | push | capture | dispatch | decide => rfl

theorem runTools_answers {history : List ChatMessage} {calls : List ToolCall}
    (left : unanswered history = some (calls.map (·.id))) :
    unanswered (runTools answers send owner history calls).history = some [] := by
  induction calls generalizing history with
  | nil => exact left
  | cons call rest ih =>
      obtain ⟨output, grown⟩ := runTool_history answers send owner history call
      refine ih ?_
      rw [grown, unanswered_snoc left]
      simp [waiting, ChatMessage.toolResult]

@[simp] theorem requests_spoken (history : List ChatMessage) (reply : Reply) :
    requests (spoken answers send owner history reply) = [completionRequest answers send history] := by simp [spoken]

@[simp] theorem reloads_spoken (history : List ChatMessage) (reply : Reply) :
    reloads (spoken answers send owner history reply) = [⟨.assistant, reply.accumulatedText, none, []⟩] := by
  simp [spoken, convToChat]

theorem turnLoop_wellFormed (left : Nat) (history : List ChatMessage) : unanswered history = some [] →
    ∀ req ∈ requests (turnLoop answers send owner left history).effects, WellFormed req.messages := by
  have asked : ∀ history, unanswered history = some [] →
      WellFormed (completionRequest answers send history).messages := by
    intro history answered
    simp [WellFormed, completionRequest, answered]
  induction left, history using turnLoop_induction answers send owner with
  | exhausted history => simp [turnLoop]
  | failed left history e failed =>
      intro answered
      simpa [turnLoop_failed failed] using asked history answered
  | broken left history stream reply e completed read =>
      intro answered
      simpa [turnLoop_broken completed read] using asked history answered
  | closed left history stream reply completed read stopped =>
      intro answered
      simpa [turnLoop_closed completed read stopped] using asked history answered
  | again left history stream reply completed read stop ih =>
      intro answered
      have called : unanswered (history ++ [assistant reply]) = some (reply.completedToolCalls.map (·.id)) := by
        rw [unanswered_snoc answered]
        simp [waiting, assistant]
      have later := ih (runTools_answers answers send owner called)
      simpa [turnLoop_again completed read stop, runTools_requests, asked history answered] using later

end Turn

theorem convToChat_role (m : ConvMessage) : (convToChat m).role = .tool ↔ m.role = "tool" := by
  unfold convToChat
  dsimp only
  split <;> simp_all

theorem waiting_convToChat (m : ConvMessage) :
    waiting [] (convToChat m) = if m.role = "tool" then none else some [] := by
  have role := convToChat_role m
  have calls : (convToChat m).toolCalls = [] := rfl
  unfold waiting
  cases found : (convToChat m).role with
  | tool =>
      simp only [found, true_iff] at role
      simp only [role, if_true]
      split <;> simp
  | assistant | user | system =>
      simp only [found, reduceCtorEq, false_iff] at role
      simp [role, calls]

/-- A window has no calls, so a result in it answers none. -/
theorem unanswered_window (list : List ConvMessage) :
    unanswered (list.map convToChat) = if ∀ m ∈ list, m.role ≠ "tool" then some [] else none := by
  induction list with
  | nil => rfl
  | cons m rest ih =>
      rw [unanswered, List.map_cons, List.foldlM_cons, waiting_convToChat]
      by_cases result : m.role = "tool"
      · simp [result]
      · simpa [result, unanswered] using ih

/-! ## The requests of a turn -/

section Requests
variable {answers : Answers} {send : ChatSend} {owner : Option Uuid}

theorem turnLoop_requests (left : Nat) (history : List ChatMessage) :
    ∃ later, requests (turnLoop answers send owner (left + 1) history).effects =
      completionRequest answers send history :: later := by
  cases completed : answers.completeStream history with
  | error e => simp [turnLoop_failed completed]
  | ok stream =>
      rcases read : Reply.empty.read answers.parseInput send.sessionId stream with ⟨reply, none | e⟩
      · by_cases stop : reply.finalStop = .toolUse
        · simp [turnLoop_again completed read stop]
        · simp [turnLoop_closed completed read stop]
      · simp [turnLoop_broken completed read]

theorem turnLoop_first (left : Nat) (history : List ChatMessage) :
    completionRequest answers send history ∈ requests (turnLoop answers send owner (left + 1) history).effects := by
  obtain ⟨later, first⟩ := @turnLoop_requests answers send owner left history
  rw [first]
  exact List.mem_cons_self

theorem opened_requests (opens : Opens answers send) (list : List ConvMessage) :
    ∃ later, requests (handleChatSend answers send owner (.ok list)).effects =
      completionRequest answers send (list.map convToChat ++ [.user send.userMessage]) :: later := by
  rw [handleChatSend_opened opens]
  simpa [maxLoops] using turnLoop_requests 7 _

theorem requests_wellFormed_iff (opens : Opens answers send) (list : List ConvMessage) :
    (∀ req ∈ requests (handleChatSend answers send owner (.ok list)).effects, WellFormed req.messages) ↔
      ∀ m ∈ list, m.role ≠ "tool" := by
  have window := unanswered_window list
  rw [handleChatSend_opened opens]
  simp only [requests_append, requests_mirror, requests_cons, request?, Option.toList_none, List.nil_append, requests_nil,
    List.append_nil]
  constructor
  · intro formed
    have first := formed _ (turnLoop_first 7 _)
    by_contra result
    rw [if_neg result, unanswered] at window
    simp [WellFormed, completionRequest, unanswered, List.foldlM_append, window] at first
  · intro results
    rw [if_pos results] at window
    exact turnLoop_wellFormed _ _ _ _ _ ((unanswered_snoc window _).trans rfl)

theorem refuse_requests (message : String) : requests (refuse message).effects = [] := rfl

end Requests

/-! ## What is read back -/

section Reload
variable {answers : Answers} {send : ChatSend} {owner : Option Uuid}

/-- No reply to the requests of some effects completes a call of a tool. -/
def NoCalls (answers : Answers) (send : ChatSend) (effects : List Effect) : Prop :=
  ∀ req ∈ requests effects, ∀ stream reply, answers.completeStream req.messages = .ok stream →
    Reply.empty.read answers.parseInput send.sessionId stream = (reply, none) → reply.completedToolCalls = []

theorem turnLoop_reloads (left : Nat) (history : List ChatMessage) :
    NoCalls answers send (turnLoop answers send owner left history).effects →
    (turnLoop answers send owner left history).history =
        history ++ reloads (turnLoop answers send owner left history).effects ∧
      ∀ m ∈ reloads (turnLoop answers send owner left history).effects, m.role ≠ .tool := by
  induction left, history using turnLoop_induction answers send owner with
  | exhausted history => simp [turnLoop]
  | failed left history e failed => simp [turnLoop_failed failed]
  | broken left history stream reply e completed read => simp [turnLoop_broken completed read]
  | closed left history stream reply completed read stopped =>
      intro noCalls
      have calls := noCalls _ (turnLoop_first left history) stream reply completed read
      simp [turnLoop_closed completed read stopped, assistant, calls]
  | again left history stream reply completed read stop ih =>
      intro noCalls
      have calls := noCalls _ (turnLoop_first left history) stream reply completed read
      simp only [turnLoop_again completed read stop, calls, runTools, List.append_nil] at noCalls ih ⊢
      obtain ⟨grown, results⟩ := ih fun req member => noCalls req (by simp [member])
      have plain : assistant reply = ⟨.assistant, reply.accumulatedText, none, []⟩ := by simp [assistant, calls]
      refine ⟨?_, by simpa using results⟩
      rw [grown]
      simp [plain]

theorem opened_reloads {list : List ConvMessage} (opens : Opens answers send)
    (noCalls : NoCalls answers send (handleChatSend answers send owner (.ok list)).effects) :
    let turn := turnLoop answers send owner maxLoops (list.map convToChat ++ [.user send.userMessage])
    turn.history = list.map convToChat ++ [.user send.userMessage] ++ reloads turn.effects ∧
      ∀ m ∈ reloads turn.effects, m.role ≠ .tool := by
  rw [handleChatSend_opened opens] at noCalls
  refine turnLoop_reloads _ _ fun req member => noCalls req ?_
  simpa using member

variable (backend : Backend) {moments : Nat → Moment}

theorem pushAll_append (first second : List Effect) (i : Nat) (c : Conversation) :
    pushAll backend moments i c (first ++ second) =
      pushAll backend moments (i + first.length) (pushAll backend moments i c first) second := by
  induction first generalizing i c with
  | nil => rfl
  | cons effect rest ih => cases effect <;> simp [pushAll, ih, Nat.add_comm, Nat.add_left_comm]

theorem pushAll_mirror (i : Nat) (c : Conversation) (role content : String) (id : Option String) :
    pushAll backend moments i c (mirror owner role content id) = c := by cases owner <;> rfl

theorem current_suffix (now : Nat) (c : Conversation) : (c.current backend now).messages <:+ c.messages := by
  unfold Conversation.current
  split
  · exact List.nil_suffix
  · exact List.suffix_rfl

theorem convPush_messages {now : Nat} {msg : ConvMessage} {c : Conversation} {pushed : Pushed} (stored : pushed ≠ .lost) :
    (c.convPush backend now msg pushed).messages = (c.current backend now).messages ++ [msg] := by
  cases pushed with
  | lost => exact absurd rfl stored
  | unrenewed | stored => rfl

/-- Every push of some effects reaches the working memory; `i` is the place of the first. -/
def AllStored (moments : Nat → Moment) (i : Nat) (effects : List Effect) : Prop :=
  ∀ j role content id, effects[j]? = some (.push role content id) → (moments (i + j)).pushed ≠ .lost

theorem AllStored.drop {i : Nat} {before rest : List Effect} (stored : AllStored moments i (before ++ rest)) :
    AllStored moments (i + before.length) rest := by
  intro j role content id found
  rw [Nat.add_assoc]
  exact stored (before.length + j) role content id (by simpa [List.getElem?_append_right] using found)

theorem AllStored.tail {i : Nat} {effect : Effect} {rest : List Effect} (stored : AllStored moments i (effect :: rest)) :
    AllStored moments (i + 1) rest := @AllStored.drop moments i [effect] rest stored

theorem pushAll_suffix {effects : List Effect} {i : Nat} {c : Conversation} {base : List ChatMessage}
    (stored : AllStored moments i effects) (start : c.messages.map convToChat <:+ base) :
    (pushAll backend moments i c effects).messages.map convToChat <:+ base ++ reloads effects := by
  induction effects generalizing i c base with
  | nil => simpa [pushAll] using start
  | cons effect rest ih =>
      cases effect with
      | push role content id =>
          have first : (moments i).pushed ≠ .lost := stored 0 role content id rfl
          have grown : (c.convPush backend (moments i).now ⟨role, content, id, (moments i).ts⟩
              (moments i).pushed).messages.map convToChat <:+ base ++ [convToChat ⟨role, content, id, 0⟩] := by
            rw [convPush_messages backend first, List.map_append]
            exact List.suffix_append_self_iff.mpr (((current_suffix backend _ c).map convToChat).trans start)
          simpa [pushAll, List.append_assoc] using ih stored.tail grown
      | emit | finish | request | append | capture | dispatch | decide => exact ih stored.tail start

theorem convRecent_suffix (now n : Nat) (c : Conversation) : c.convRecent backend now n <:+ c.messages :=
  (List.drop_suffix _ _).trans (current_suffix backend now c)

theorem length_convRecent (now n : Nat) (c : Conversation) :
    (c.convRecent backend now n).length = min n (c.current backend now).messages.length := by
  simp only [Conversation.convRecent, List.length_drop]
  omega

/-- What is there at a push was there at the read before it. -/
theorem current_later {readAt now : Nat} (ordered : readAt ≤ now) (c : Conversation) :
    (c.current backend now).messages <:+ (c.current backend readAt).messages := by
  by_cases dropped : (c.deadline.any fun deadline => backend.gone deadline readAt) = true
  · have later : (c.deadline.any fun deadline => backend.gone deadline now) = true := by
      obtain ⟨deadline, has, gone⟩ := (Option.any_eq_true _ _).mp dropped
      exact (Option.any_eq_true _ _).mpr ⟨deadline, has, backend.lasting ordered gone⟩
    simp [Conversation.current, dropped, later]
  · have kept : c.current backend readAt = c := by simp [Conversation.current, dropped]
    rw [kept]
    exact current_suffix backend now c

theorem reload_suffix {stores : Stores} {c : Conversation} {list : List ConvMessage} (opens : Opens answers send)
    (window : c.convRecent backend stores.readAt 64 = list)
    (noCalls : NoCalls answers send (handleChatSend answers send owner (.ok list)).effects)
    (stored : AllStored stores.moments 0 (handleChatSend answers send owner (.ok list)).effects) (now : Nat) :
    ((pushAll backend stores.moments 0 c (handleChatSend answers send owner (.ok list)).effects).convRecent
        backend now 64).map convToChat <:+ (handleChatSend answers send owner (.ok list)).history := by
  have shape := @handleChatSend_opened answers send owner opens list
  obtain ⟨grown, -⟩ := opened_reloads opens noCalls
  simp only [List.append_assoc, List.cons_append, List.nil_append] at shape grown
  rw [shape] at stored ⊢
  simp only at stored ⊢
  generalize turnLoop answers send owner maxLoops (list.map convToChat ++ [.user send.userMessage]) = turn at *
  -- The first push is the message of the user, on what is there of the conversation then.
  have later := stored.drop
  have pushed := later 0 "user" send.userMessage none rfl
  rw [pushAll_append, pushAll_mirror, pushAll]
  generalize 0 + (mirror owner "user" send.userMessage none).length = k at *
  have start : (c.convPush backend (stores.moments k).now ⟨"user", send.userMessage, none, (stores.moments k).ts⟩
      (stores.moments k).pushed).messages.map convToChat <:+
      (c.current backend stores.readAt).messages.map convToChat ++ [.user send.userMessage] := by
    rw [convPush_messages backend pushed, List.map_append]
    exact List.suffix_append_self_iff.mpr ((current_later backend (stores.ordered k) c).map convToChat)
  have whole := pushAll_suffix backend later.tail start
  have short := length_convRecent backend now 64 (pushAll backend stores.moments (k + 1) (c.convPush backend
    (stores.moments k).now ⟨"user", send.userMessage, none, (stores.moments k).ts⟩ (stores.moments k).pushed)
    (turn.effects ++ [.finish]))
  have reload := ((convRecent_suffix backend now 64 _).map convToChat).trans whole
  have memory : turn.history <:+ (c.current backend stores.readAt).messages.map convToChat ++
      [.user send.userMessage] ++ reloads (turn.effects ++ [.finish]) := by
    have kept : list <:+ (c.current backend stores.readAt).messages := window ▸ List.drop_suffix _ _
    rw [grown]
    simpa using List.suffix_append_self_iff.mpr (kept.map convToChat)
  refine List.suffix_of_suffix_length_le reload memory ?_
  have atMost := reload.length_le
  have windowLength := length_convRecent backend stores.readAt 64 c
  rw [window] at windowLength
  simp only [List.length_append, List.length_map, List.length_cons, List.length_nil, grown] at atMost short windowLength ⊢
  simp at atMost
  omega

end Reload

/-! ## Runs -/

section Runs
variable (backend : Backend)

/-- The event is a turn of the session that reads its conversation. -/
def Loads (sessionId : String) : Event → Prop
  | .chatSend send answers stores => send.sessionId = sessionId ∧ Opens answers send ∧ stores.readError = none
  | .forget _ => False

def outcome (w : World) : Event → Outcome
  | .chatSend send answers stores => w.turn backend send answers stores
  | .forget _ => ⟨[], []⟩

def window (w : World) (sessionId : String) : Event → List ConvMessage
  | .chatSend _ _ stores => (w.working sessionId).convRecent backend stores.readAt 64
  | .forget _ => []

/-- No tool is called in the event, and no message is lost. -/
def Plain (w : World) : Event → Prop
  | .chatSend send answers stores =>
      NoCalls answers send (w.turn backend send answers stores).effects ∧
        AllStored stores.moments 0 (w.turn backend send answers stores).effects
  | .forget _ => True

variable {backend} {w : World}

theorem turn_loaded {send : ChatSend} {answers : Answers} {stores : Stores} (read : stores.readError = none) :
    w.turn backend send answers stores = handleChatSend answers send (w.historyOwner send stores)
      (.ok ((w.working send.sessionId).convRecent backend stores.readAt 64)) := by
  simp [World.turn, World.recent, read]

theorem turn_refused {send : ChatSend} {answers : Answers} {stores : Stores}
    (refused : ¬ Loads send.sessionId (.chatSend send answers stores)) :
    ∃ message, w.turn backend send answers stores = refuse message := by
  refine handleChatSend_refused fun opens => ?_
  cases failed : stores.readError with
  | none => exact absurd ⟨rfl, opens, failed⟩ refused
  | some e => exact ⟨e, by simp [World.recent, failed]⟩

theorem event_requests_iff (event : Event) :
    (∀ req ∈ requests (outcome backend w event).effects, WellFormed req.messages) ↔
      ∀ sessionId, Loads sessionId event → ∀ m ∈ window backend w sessionId event, m.role ≠ "tool" := by
  cases event with
  | forget => simp [outcome, Loads]
  | chatSend send answers stores =>
      by_cases loads : Loads send.sessionId (.chatSend send answers stores)
      · obtain ⟨-, opens, read⟩ := loads
        rw [outcome, turn_loaded read, requests_wellFormed_iff opens]
        simp [Loads, window, opens, read]
      · obtain ⟨message, refused⟩ := @turn_refused backend w _ _ _ loads
        rw [outcome, refused, refuse_requests]
        simp only [List.not_mem_nil, false_imp_iff, implies_true, true_iff]
        rintro sessionId ⟨rfl, also⟩
        exact absurd ⟨rfl, also⟩ loads

theorem pushAll_mem {moments : Nat → Moment} {effects : List Effect} {i : Nat} {c : Conversation} {m : ConvMessage}
    (member : m ∈ (pushAll backend moments i c effects).messages) :
    m ∈ c.messages ∨ convToChat m ∈ reloads effects := by
  induction effects generalizing i c with
  | nil => exact .inl member
  | cons effect rest ih =>
      cases effect with
      | push role content id =>
          rcases ih member with before | later
          · by_cases lost : (moments i).pushed = .lost
            · rw [lost] at before
              exact .inl before
            · rw [convPush_messages backend lost] at before
              rcases List.mem_append.mp before with old | new
              · exact .inl ((current_suffix backend _ c).subset old)
              · rw [List.mem_singleton.mp new]
                exact .inr (List.mem_cons_self)
          · exact .inr (List.mem_cons_of_mem _ later)
      | emit | finish | request | append | capture | dispatch | decide => exact ih member

theorem turn_roles {send : ChatSend} {answers : Answers} {stores : Stores}
    (noCalls : NoCalls answers send (w.turn backend send answers stores).effects) :
    ∀ m ∈ reloads (w.turn backend send answers stores).effects, m.role ≠ .tool := by
  by_cases loads : Loads send.sessionId (.chatSend send answers stores)
  · obtain ⟨-, opens, read⟩ := loads
    rw [turn_loaded read] at noCalls ⊢
    rw [handleChatSend_opened opens]
    simpa [convToChat] using (opened_reloads opens noCalls).2
  · obtain ⟨message, refused⟩ := @turn_refused backend w _ _ _ loads
    simp [refused, refuse]

def NoResults (w : World) : Prop := ∀ sessionId, ∀ m ∈ (w.working sessionId).messages, m.role ≠ "tool"

theorem noResults_step {w' : World} {event : Event} (plain : Plain backend w event) (before : NoResults w)
    (taken : step backend w event = some w') : NoResults w' := by
  cases event with
  | forget sessionId =>
      obtain rfl := Option.some.inj taken
      exact before
  | chatSend send answers stores =>
      obtain rfl := Option.some.inj taken
      intro sessionId m member
      rw [performAll_working] at member
      by_cases same : sessionId = send.sessionId
      · subst same
        rw [Function.update_self] at member
        rcases pushAll_mem member with old | new
        · exact before _ m old
        · exact mt (convToChat_role m).mpr (turn_roles plain.1 _ new)
      · rw [Function.update_of_ne same] at member
        exact before sessionId m member

theorem working_of_not_loads {w' : World} {event : Event} {sessionId : String} (aside : ¬ Loads sessionId event)
    (taken : step backend w event = some w') : w'.working sessionId = w.working sessionId := by
  cases event with
  | forget other =>
      obtain rfl := Option.some.inj taken
      rfl
  | chatSend send answers stores =>
      obtain rfl := Option.some.inj taken
      rw [performAll_working]
      by_cases same : sessionId = send.sessionId
      · subst same
        obtain ⟨message, refused⟩ := @turn_refused backend w _ _ _ aside
        rw [Function.update_self, refused]
        rfl
      · rw [Function.update_of_ne same]

theorem working_of_none_loads {w' : World} {events : List Event} {sessionId : String}
    (aside : ∀ event ∈ events, ¬ Loads sessionId event) (reached : run (step backend) w events = some w') :
    w'.working sessionId = w.working sessionId := by
  induction events generalizing w with
  | nil => rw [Option.some.inj reached]
  | cons event rest ih =>
      obtain ⟨u, taken, later⟩ := (run_cons).mp reached
      rw [ih (fun e member => aside e (List.mem_cons_of_mem _ member)) later,
        working_of_not_loads (aside event List.mem_cons_self) taken]

theorem reload_of_plain {w₁ w₂ : World} {first second : Event} {between : List Event} {sessionId : String}
    (loads : Loads sessionId first) (plain : Plain backend w first) (taken : step backend w first = some w₁)
    (aside : ∀ event ∈ between, ¬ Loads sessionId event) (reached : run (step backend) w₁ between = some w₂) :
    (window backend w₂ sessionId second).map convToChat <:+ (outcome backend w first).history := by
  cases second with
  | forget => exact List.nil_suffix
  | chatSend send answers stores =>
      cases first with
      | forget => exact loads.elim
      | chatSend send₁ answers₁ stores₁ =>
          obtain ⟨rfl, opens, read⟩ := loads
          obtain rfl := Option.some.inj taken
          obtain ⟨noCalls, stored⟩ := plain
          rw [window, working_of_none_loads aside reached, performAll_working, Function.update_self, outcome]
          rw [turn_loaded read] at noCalls stored ⊢
          exact reload_suffix backend opens rfl noCalls stored stores.readAt

/-- The requests of a turn are well formed exactly if the window it reads has no result of a tool. In every run in which
no tool is called and no message is lost, all requests are well formed, and a turn reads back the end of the history
that the turn before it had in memory. -/
theorem history_well_formed (backend : Backend) :
    (∀ w event, (∀ req ∈ requests (outcome backend w event).effects, WellFormed req.messages) ↔
      ∀ sessionId, Loads sessionId event → ∀ m ∈ window backend w sessionId event, m.role ≠ "tool") ∧
    ∀ users events, AllSteps (step backend) (Plain backend) (World.new users) events →
      (∀ before event after w, events = before ++ event :: after →
        run (step backend) (World.new users) before = some w →
        ∀ req ∈ requests (outcome backend w event).effects, WellFormed req.messages) ∧
      ∀ before first between second after w w₂ sessionId, events = before ++ first :: between ++ second :: after →
        run (step backend) (World.new users) before = some w →
        run (step backend) (World.new users) (before ++ first :: between) = some w₂ →
        Loads sessionId first → Loads sessionId second → (∀ event ∈ between, ¬ Loads sessionId event) →
        (window backend w₂ sessionId second).map convToChat <:+ (outcome backend w first).history := by
  refine ⟨fun w event => event_requests_iff event, fun users events plain => ⟨?_, ?_⟩⟩
  · rintro before event after w rfl reached
    have earlier := ((allSteps_append reached).mp plain).1
    have none : NoResults w := invariant_of_allSteps (fun _ _ _ => noResults_step) earlier
      (fun _ m member => by simp [World.new, Conversation.new] at member) reached
    refine (event_requests_iff event).mpr fun sessionId loads m member => none sessionId m ?_
    cases event with
    | forget => exact loads.elim
    | chatSend send answers stores => exact (convRecent_suffix backend _ _ _).subset member
  · rintro before first between second after w w₂ sessionId rfl reached all loads - aside
    rw [run_append reached] at all
    obtain ⟨w₁, taken, later⟩ := (run_cons).mp all
    rw [List.append_assoc] at plain
    exact reload_of_plain loads ((allSteps_append reached).mp plain).2.1 taken aside later

def llmAnswers (completeStream : List ChatMessage → Except String LlmStream) : Answers where
  config _ := none
  selectLlm := .ok ()
  recalled := ⟨"", true⟩
  completeStream
  parseInput _ := none
  typedRecord _ := .ok ()
  capture _ _ := .error "down"
  dispatch _ _ := .error "timeout"
  replyError _ := "expected struct NetworkResponse"

def storing : Stores := ⟨true, 0, none, fun _ => ⟨0, 0, .stored, .done⟩, fun _ => Nat.le_refl 0⟩

def talkAnswers : Answers := llmAnswers fun _ => .ok [.ok (.textDelta "hello"), .ok (.messageStop .endTurn ⟨1, 1⟩)]

def talk (userMessage : String) : Event :=
  .chatSend ⟨"user:ana", "s1", userMessage, none, none⟩ talkAnswers storing

theorem talk_plain (backend : Backend) (w : World) (userMessage : String) : Plain backend w (talk userMessage) := by
  refine ⟨fun req _ stream reply completed read => ?_, fun _ _ _ _ _ => nofun⟩
  obtain rfl := Except.ok.inj completed
  simp only [Reply.read, Prod.mk.injEq] at read
  rw [← read.1]
  rfl

theorem talk_reads_back :
    ∃ w, run (step .inProc) (World.new fun _ => none) [talk "hi"] = some w ∧
      (window .inProc w "s1" (talk "who are you?")).map convToChat <:+
        (outcome .inProc (World.new fun _ => none) (talk "hi")).history := by
  have loads : ∀ userMessage, Loads "s1" (talk userMessage) := fun _ => ⟨rfl, ⟨rfl, rfl⟩, rfl⟩
  have plain : AllSteps (step .inProc) (Plain .inProc) (World.new fun _ => none) [talk "hi", talk "who are you?"] :=
    allSteps_of_forall (by simp [talk_plain]) _
  exact ⟨_, rfl, ((history_well_formed .inProc).2 _ _ plain).2 [] _ [] _ [] _ _ "s1" rfl rfl rfl (loads _) (loads _)
    nofun⟩

/-- The LLM asks for a ping, and answers when it has the result. -/
def pingAnswers : Answers := llmAnswers fun history =>
  if (history.getLast?.map (·.role)) = some .user then
    .ok [.ok (.toolUseStart "t1" "net.ping"), .ok (.toolUseStop "t1"), .ok (.messageStop .toolUse ⟨1, 1⟩)]
  else .ok [.ok (.textDelta "up"), .ok (.messageStop .endTurn ⟨1, 1⟩)]

def ask (userMessage : String) : Event :=
  .chatSend ⟨"user:ana", "s1", userMessage, none, none⟩ pingAnswers storing

/-- The second turn of a session whose first turn called a tool: its request has a result without a call, and what it
read back is not what the first turn had in memory. -/
theorem result_without_call :
    ∃ w, run (step .inProc) (World.new fun _ => none) [ask "is the router up?"] = some w ∧
      ¬ (∀ req ∈ requests (outcome .inProc w (ask "and now?")).effects, WellFormed req.messages) ∧
      ¬ (window .inProc w "s1" (ask "and now?")).map convToChat <:+
        (outcome .inProc (World.new fun _ => none) (ask "is the router up?")).history :=
  ⟨_, rfl, by decide, by decide⟩

end Runs
end Daimon.Proof.App
