import Daimon.App.Chat

/-!
# Chat turns

The ways through a turn and the rounds of its loop, and what a turn can do in them.
-/

namespace Daimon.Proof.App
open Daimon.Core Daimon.App.Chat Lib
open Daimon.Redis (ConvMessage)

/-! ## The shape of a turn -/

def Opens (answers : Answers) (send : ChatSend) : Prop :=
  validateModelEffort answers.config send.model send.effort = .ok () ∧ answers.selectLlm = .ok ()

section Turn
variable {answers : Answers} {send : ChatSend} {owner : Option Uuid}

/-! The ways through one round of the loop. -/

section Round
variable {left : Nat} {history : List ChatMessage} {stream : LlmStream} {reply : Reply}

theorem turnLoop_failed {e : String} (failed : answers.completeStream history = .error e) :
    turnLoop answers send owner (left + 1) history =
      ⟨[.request (completionRequest answers send history), .emit (.error ("llm stream: " ++ e))], history⟩ := by
  simp only [turnLoop, failed]

theorem turnLoop_broken {e : String} (completed : answers.completeStream history = .ok stream)
    (read : Reply.empty.read answers.parseInput send.sessionId stream = (reply, some e)) :
    turnLoop answers send owner (left + 1) history =
      ⟨.request (completionRequest answers send history) :: reply.events.map .emit ++
        [.emit (.error ("stream: " ++ e))], history⟩ := by
  simp only [turnLoop, completed, read]

def spoken (answers : Answers) (send : ChatSend) (owner : Option Uuid) (history : List ChatMessage) (reply : Reply) :
    List Effect :=
  .request (completionRequest answers send history) :: reply.events.map .emit ++
    mirror owner "assistant" reply.accumulatedText none ++ [.push "assistant" reply.accumulatedText none]

def assistant (reply : Reply) : ChatMessage := ⟨.assistant, reply.accumulatedText, none, reply.completedToolCalls⟩

theorem turnLoop_closed (completed : answers.completeStream history = .ok stream)
    (read : Reply.empty.read answers.parseInput send.sessionId stream = (reply, none))
    (stopped : reply.finalStop ≠ .toolUse) :
    turnLoop answers send owner (left + 1) history =
      ⟨spoken answers send owner history reply ++ [.emit (.done send.sessionId reply.finalStop.lowercase
        reply.finalUsage.inputTokens reply.finalUsage.outputTokens)], history ++ [assistant reply]⟩ := by
  simp only [turnLoop, completed, read, if_pos stopped, spoken, assistant]

theorem turnLoop_again (completed : answers.completeStream history = .ok stream)
    (read : Reply.empty.read answers.parseInput send.sessionId stream = (reply, none))
    (again : reply.finalStop = .toolUse) :
    let tools := runTools answers send owner (history ++ [assistant reply]) reply.completedToolCalls
    let rest := turnLoop answers send owner left tools.history
    turnLoop answers send owner (left + 1) history =
      ⟨spoken answers send owner history reply ++ tools.effects ++ rest.effects, rest.history⟩ := by
  have other : ¬ reply.finalStop ≠ .toolUse := not_not.mpr again
  simp only [turnLoop, completed, read, if_neg other, spoken, assistant]

variable (answers send owner) in
/-- A round by round argument: every round of the loop is one of the four. -/
theorem turnLoop_induction {motive : Nat → List ChatMessage → Prop}
    (exhausted : ∀ history, motive 0 history)
    (failed : ∀ left history e, answers.completeStream history = .error e → motive (left + 1) history)
    (broken : ∀ left history stream reply e, answers.completeStream history = .ok stream →
      Reply.empty.read answers.parseInput send.sessionId stream = (reply, some e) → motive (left + 1) history)
    (closed : ∀ left history stream reply, answers.completeStream history = .ok stream →
      Reply.empty.read answers.parseInput send.sessionId stream = (reply, none) → reply.finalStop ≠ .toolUse →
      motive (left + 1) history)
    (again : ∀ left history stream reply, answers.completeStream history = .ok stream →
      Reply.empty.read answers.parseInput send.sessionId stream = (reply, none) → reply.finalStop = .toolUse →
      motive left (runTools answers send owner (history ++ [assistant reply]) reply.completedToolCalls).history →
      motive (left + 1) history)
    (left : Nat) (history : List ChatMessage) : motive left history := by
  induction left generalizing history with
  | zero => exact exhausted history
  | succ left ih =>
      cases completed : answers.completeStream history with
      | error e => exact failed left history e completed
      | ok stream =>
          rcases read : Reply.empty.read answers.parseInput send.sessionId stream with ⟨reply, none | e⟩
          · by_cases stop : reply.finalStop = .toolUse
            · exact again left history stream reply completed read stop (ih _)
            · exact closed left history stream reply completed read stop
          · exact broken left history stream reply e completed read

end Round

theorem handleChatSend_opened (opens : Opens answers send) (list : List ConvMessage) :
    let turn := turnLoop answers send owner maxLoops (list.map convToChat ++ [.user send.userMessage])
    handleChatSend answers send owner (.ok list) =
      ⟨mirror owner "user" send.userMessage none ++ [.push "user" send.userMessage none] ++ turn.effects ++ [.finish],
        turn.history⟩ := by
  simp only [handleChatSend, opens.1, opens.2]

theorem handleChatSend_refused {recent : Except String (List ConvMessage)}
    (closed : Opens answers send → ∃ e, recent = .error e) :
    ∃ message, handleChatSend answers send owner recent = refuse message := by
  unfold handleChatSend
  split
  · exact ⟨_, rfl⟩
  · rename_i valid
    split
    · exact ⟨_, rfl⟩
    · rename_i selected
      obtain ⟨e, rfl⟩ := closed ⟨valid, selected⟩
      exact ⟨_, rfl⟩

theorem handleChatSend_closed (closed : ¬ Opens answers send)
    (recent recent' : Except String (List ConvMessage)) :
    handleChatSend answers send owner recent = handleChatSend answers send owner recent' := by
  unfold handleChatSend
  split
  · rfl
  · rename_i valid
    split
    · rfl
    · rename_i selected
      exact absurd ⟨valid, selected⟩ closed

end Turn

/-! ## What a turn can do -/

section Effects
variable (answers : Answers) (send : ChatSend) (owner : Option Uuid)

/-- A tool neither asks the LLM nor ends the turn, and what it appends belongs to the owner of the turn. -/
def Answering : Effect → Prop
  | .append o _ _ _ => owner = some o
  | .request _ | .finish | .decide .. => False
  | .emit _ | .push .. | .capture .. | .dispatch .. => True

def Speaking (effect : Effect) : Prop := Answering owner effect ∨ ∃ req, effect = .request req

variable {owner} in
theorem Speaking.unfinished {effects : List Effect} (speaking : ∀ effect ∈ effects, Speaking owner effect) :
    .finish ∉ effects := by
  intro member
  rcases speaking _ member with answering | ⟨req, other⟩
  · exact answering
  · cases other

variable {owner} in
theorem Speaking.appended {o : Uuid} {role content : String} {id : Option String}
    (speaking : Speaking owner (.append o role content id)) : owner = some o := by
  rcases speaking with answering | ⟨req, other⟩
  · exact answering
  · cases other

theorem mirror_answering (role content : String) (id : Option String) :
    ∀ effect ∈ mirror owner role content id, Answering owner effect := by
  cases owner with
  | none => simp [mirror]
  | some o => simp [mirror, Answering]

theorem memoryOutput_captures (history : List ChatMessage) (call : ToolCall) :
    ∀ effect ∈ (memoryOutput answers history call).1, ∃ kind record, effect = .capture kind record := by
  unfold memoryOutput
  split
  · simp
  · split <;> simp

theorem memoryOutput_answering (history : List ChatMessage) (call : ToolCall) :
    ∀ effect ∈ (memoryOutput answers history call).1, Answering owner effect := by
  intro effect member
  obtain ⟨kind, record, rfl⟩ := memoryOutput_captures answers history call effect member
  trivial

theorem runTool_answering (history : List ChatMessage) (call : ToolCall) :
    ∀ effect ∈ (runTool answers send owner history call).effects, Answering owner effect := by
  unfold runTool
  split
  · intro effect member
    simp only [List.mem_append, List.mem_singleton, or_assoc] at member
    rcases member with captured | rfl | appended | rfl
    · exact memoryOutput_answering answers owner history call effect captured
    · trivial
    · exact mirror_answering owner _ _ _ effect appended
    · trivial
  · simp [Answering]

theorem runTools_answering (history : List ChatMessage) (calls : List ToolCall) :
    ∀ effect ∈ (runTools answers send owner history calls).effects, Answering owner effect := by
  induction calls generalizing history with
  | nil => simp [runTools]
  | cons call rest ih =>
      intro effect member
      rcases List.mem_append.mp member with now | later
      · exact runTool_answering answers send owner history call effect now
      · exact ih _ effect later

theorem spoken_speaking (history : List ChatMessage) (reply : Reply) :
    ∀ effect ∈ spoken answers send owner history reply, Speaking owner effect := by
  intro effect member
  simp only [spoken, List.cons_append, List.mem_cons, List.mem_append, List.mem_map, List.not_mem_nil, or_false,
    or_assoc] at member
  rcases member with rfl | ⟨event, -, rfl⟩ | appended | rfl
  · exact .inr ⟨_, rfl⟩
  · exact .inl trivial
  · exact .inl (mirror_answering owner _ _ _ effect appended)
  · exact .inl trivial

theorem turnLoop_speaking (left : Nat) (history : List ChatMessage) :
    ∀ effect ∈ (turnLoop answers send owner left history).effects, Speaking owner effect := by
  induction left, history using turnLoop_induction answers send owner with
  | exhausted history => simp [turnLoop, Speaking, Answering]
  | failed left history e failed => simp [turnLoop_failed failed, Speaking, Answering]
  | broken left history stream reply e completed read =>
      rw [turnLoop_broken completed read]
      intro effect member
      simp only [List.cons_append, List.mem_cons, List.mem_append, List.mem_map, List.not_mem_nil, or_false] at member
      rcases member with rfl | ⟨event, -, rfl⟩ | rfl
      · exact .inr ⟨_, rfl⟩
      · exact .inl trivial
      · exact .inl trivial
  | closed left history stream reply completed read stopped =>
      rw [turnLoop_closed completed read stopped]
      intro effect member
      rcases List.mem_append.mp member with first | last
      · exact spoken_speaking answers send owner history reply effect first
      · rw [List.mem_singleton.mp last]
        exact .inl trivial
  | again left history stream reply completed read stop ih =>
      rw [turnLoop_again completed read stop]
      intro effect member
      simp only [List.mem_append, or_assoc] at member
      rcases member with first | tools | later
      · exact spoken_speaking answers send owner history reply effect first
      · exact .inl (runTools_answering answers send owner _ _ effect tools)
      · exact ih effect later

end Effects
end Daimon.Proof.App
