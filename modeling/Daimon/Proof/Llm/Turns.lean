import Daimon.Proof.App.History
import Daimon.Proof.Llm.Requests

/-!
# What the requests of chat turns carry

In working memory are only texts of users, of the assistant and of tools, so a turn sends no system message, and
Anthropic reads all of every request. Ollama reads none of them whole: the memory tools are always on offer.
-/

namespace Daimon.Proof.Turns
open Daimon.Core Daimon.App.Chat Daimon.Proof.App Daimon.Proof.Requests Lib
open Daimon.Llm.Requests (Anthropic.buildRequestBody LocalClient.buildRequestBody)
open Daimon.Llm.Requests.CompletionRequest (ofTurn)

def NoSystem (messages : List ChatMessage) : Prop := ∀ m ∈ messages, m.role ≠ .system

theorem NoSystem.snoc {messages : List ChatMessage} {m : ChatMessage} (before : NoSystem messages)
    (new : m.role ≠ .system) : NoSystem (messages ++ [m]) := by
  intro m' member
  rcases List.mem_append.mp member with old | last
  · exact before m' old
  · rwa [List.mem_singleton.mp last]

section Turn
variable (answers : Answers) (send : ChatSend) (owner : Option Uuid)

theorem runTools_noSystem {history : List ChatMessage} (before : NoSystem history) (calls : List ToolCall) :
    NoSystem (runTools answers send owner history calls).history := by
  induction calls generalizing history with
  | nil => exact before
  | cons call rest ih =>
      obtain ⟨output, grown⟩ := runTool_history answers send owner history call
      refine ih ?_
      rw [grown]
      exact before.snoc (by simp [ChatMessage.toolResult])

theorem memoryOutput_reloads (history : List ChatMessage) (call : ToolCall) :
    reloads (memoryOutput answers history call).1 = [] := by
  unfold memoryOutput
  repeat' split
  all_goals rfl

theorem runTool_reloads (history : List ChatMessage) (call : ToolCall) :
    NoSystem (reloads (runTool answers send owner history call).effects) := by
  unfold runTool
  split
  · simp [memoryOutput_reloads, NoSystem, convToChat]
  · simp [NoSystem, convToChat]

theorem runTools_reloads (history : List ChatMessage) (calls : List ToolCall) :
    NoSystem (reloads (runTools answers send owner history calls).effects) := by
  induction calls generalizing history with
  | nil => exact fun m member => absurd member List.not_mem_nil
  | cons call rest ih =>
      intro m member
      rw [runTools, reloads_append] at member
      rcases List.mem_append.mp member with first | later
      · exact runTool_reloads answers send owner history call m first
      · exact ih _ m later

theorem turnLoop_noSystem (left : Nat) (history : List ChatMessage) : NoSystem history →
    ∀ req ∈ requests (turnLoop answers send owner left history).effects, NoSystem req.messages := by
  induction left, history using turnLoop_induction answers send owner with
  | exhausted history => simp [turnLoop]
  | failed left history e failed =>
      intro before
      simpa [turnLoop_failed failed, completionRequest] using before
  | broken left history stream reply e completed read =>
      intro before
      simpa [turnLoop_broken completed read, completionRequest] using before
  | closed left history stream reply completed read stopped =>
      intro before
      simpa [turnLoop_closed completed read stopped, completionRequest] using before
  | again left history stream reply completed read stop ih =>
      intro before
      have replied : NoSystem (history ++ [assistant reply]) := before.snoc (by simp [assistant])
      have later := ih (runTools_noSystem answers send owner replied _)
      simpa [turnLoop_again completed read stop, runTools_requests, completionRequest, before] using later

theorem turnLoop_pushes (left : Nat) (history : List ChatMessage) :
    NoSystem (reloads (turnLoop answers send owner left history).effects) := by
  induction left, history using turnLoop_induction answers send owner with
  | exhausted history => simp [turnLoop, NoSystem]
  | failed left history e failed => simp [turnLoop_failed failed, NoSystem]
  | broken left history stream reply e completed read => simp [turnLoop_broken completed read, NoSystem]
  | closed left history stream reply completed read stopped =>
      simp [turnLoop_closed completed read stopped, NoSystem]
  | again left history stream reply completed read stop ih =>
      intro m member
      have tools := runTools_reloads answers send owner (history ++ [assistant reply]) reply.completedToolCalls
      simp only [turnLoop_again completed read stop, reloads_append, reloads_spoken, List.append_assoc,
        List.mem_append, List.mem_singleton] at member
      rcases member with rfl | ran | later
      · simp
      · exact tools m ran
      · exact ih m later

end Turn

/-! ## Runs -/

section Runs
variable {backend : Backend} {w : World}

def Conversing (w : World) : Prop := ∀ sessionId, ∀ m ∈ (w.working sessionId).messages, (convToChat m).role ≠ .system

theorem turn_pushes (send : ChatSend) (answers : Answers) (stores : Stores) :
    NoSystem (reloads (w.turn backend send answers stores).effects) := by
  by_cases loads : Loads send.sessionId (.chatSend send answers stores)
  · obtain ⟨-, opens, read⟩ := loads
    rw [turn_loaded read, handleChatSend_opened opens]
    have pushed := turnLoop_pushes answers send (w.historyOwner send stores) maxLoops
    intro m member
    simp only [reloads_append, reloads_mirror, reloads_cons, reloads_nil, reloaded?, Option.toList_some,
      Option.toList_none, List.nil_append, List.append_nil, List.mem_append, List.mem_singleton] at member
    rcases member with rfl | later
    · simp [convToChat]
    · exact pushed _ m later
  · obtain ⟨message, refused⟩ := @turn_refused backend w _ _ _ loads
    simp [refused, refuse, NoSystem]

theorem conversing_step {w' : World} {event : Event} (before : Conversing w) (taken : step backend w event = some w') :
    Conversing w' := by
  cases event with
  | forget sessionId =>
      obtain rfl := Option.some.inj taken
      exact before
  | chatSend send answers stores =>
      obtain rfl := Option.some.inj taken
      intro sessionId m member
      rw [performAll_working] at member
      by_cases same : sessionId = send.sessionId
      · subst same
        rw [Function.update_self] at member
        rcases pushAll_mem member with old | new
        · exact before _ m old
        · exact turn_pushes send answers stores _ new
      · rw [Function.update_of_ne same] at member
        exact before sessionId m member

theorem conversing_run {users : String → Option Uuid} {events : List Event}
    (reached : run (step backend) (World.new users) events = some w) : Conversing w :=
  invariant_of_run (fun _ _ _ => conversing_step)
    (fun _ m member => by simp [World.new, Conversation.new] at member) reached

theorem outcome_noSystem (conversing : Conversing w) (event : Event) :
    ∀ req ∈ requests (outcome backend w event).effects, NoSystem req.messages := by
  cases event with
  | forget => simp [outcome]
  | chatSend send answers stores =>
      by_cases loads : Loads send.sessionId (.chatSend send answers stores)
      · obtain ⟨-, opens, read⟩ := loads
        rw [outcome, turn_loaded read, handleChatSend_opened opens]
        have history : NoSystem (((w.working send.sessionId).convRecent backend stores.readAt 64).map convToChat ++
            [.user send.userMessage]) := by
          refine NoSystem.snoc (fun m member => ?_) (by simp [ChatMessage.user])
          obtain ⟨c, window, rfl⟩ := List.mem_map.mp member
          exact conversing _ c ((convRecent_suffix backend _ _ _).subset window)
        simpa using turnLoop_noSystem answers send (w.historyOwner send stores) maxLoops _ history
      · obtain ⟨message, refused⟩ := @turn_refused backend w _ _ _ loads
        simp [outcome, refused, refuse_requests]

/-- After one turn of a session. -/
def greeted : World := (run (step .inProc) (World.new fun _ => none) [talk "hi"]).getD (World.new fun _ => none)

end Runs
end Daimon.Proof.Turns
