import Daimon.Proof.Llm.ChatGpt

/-!
# The two folds of a stream

`complete` and the turn loop read deltas in the same way and start from different stop reasons: a stream that is cut
before its stop ends the turn for the one and is an error for the other.
-/

namespace Daimon.Proof.Llm.ChatGpt
open Daimon.App.Chat (ContentDelta LlmStream PendingToolCall Reply StopReason ToolCall Usage)
open Daimon.Llm Daimon.Llm.ChatGpt Lib

def useOf (call : ToolCall) : AssistantContent := .toolUse call.id call.name call.arguments

def pendingOf (p : PendingToolCall) : String × String × String := (p.id, p.name, p.inputJson)

/-- Both folds after the same deltas, `stopped` telling whether one of them was a stop. -/
structure Agree (stopped : Prop) (fold : Fold) (reply : Reply) : Prop where
  text : fold.text = reply.accumulatedText
  tool : fold.tool = reply.pendingTool.map pendingOf
  tools : fold.tools = reply.completedToolCalls.map useOf
  usage : fold.usage = reply.finalUsage
  seen : stopped → fold.stop = reply.finalStop
  cut : ¬stopped → fold.stop = .endTurn ∧ reply.finalStop = .error

def IsStop : ContentDelta → Prop
  | .messageStop _ _ => True
  | _ => False

variable {parseInput : String → Option Json} {sessionId : String} {stopped : Prop} {fold : Fold} {reply : Reply}

theorem Agree.delta (agree : Agree stopped fold reply) (d : ContentDelta) :
    Agree (stopped ∨ IsStop d) (fold.delta parseInput d) (reply.delta parseInput sessionId d) := by
  have plain : (stopped ∨ False) = stopped := or_false stopped
  cases d with
  | textDelta t =>
      show Agree (stopped ∨ False) _ _
      rw [plain]
      exact { agree with text := congrArg (· ++ t) agree.text }
  | toolUseStart id name =>
      show Agree (stopped ∨ False) _ _
      rw [plain]
      exact { agree with tool := rfl }
  | toolUseInputDelta partialJson =>
      show Agree (stopped ∨ False) _ _
      rw [plain]
      refine { agree with tool := ?_ }
      simp only [Fold.delta, Reply.delta, agree.tool]
      cases reply.pendingTool <;> rfl
  | toolUseStop id =>
      show Agree (stopped ∨ False) _ _
      rw [plain]
      have started := agree.tool
      unfold Fold.delta Reply.delta
      cases pending : reply.pendingTool with
      | none =>
          rw [pending] at started
          simp only [started, Option.map_none]
          exact agree
      | some p =>
          rw [pending] at started
          simp only [started, Option.map_some, pendingOf]
          refine { agree with tool := rfl, tools := ?_ }
          rw [agree.tools, List.map_append]
          rfl
  | messageStop stopReason usage =>
      refine { agree with usage := rfl, seen := fun _ => rfl, cut := ?_ }
      exact fun never => absurd (Or.inr trivial) never

theorem Agree.read (agree : Agree stopped fold reply) (deltas : List ContentDelta) :
    ∃ fold', fold.read parseInput (deltas.map .ok) = .ok fold' ∧
      Agree (stopped ∨ ∃ d ∈ deltas, IsStop d) fold' (reply.read parseInput sessionId (deltas.map .ok)).1 := by
  induction deltas generalizing stopped fold reply with
  | nil =>
      refine ⟨fold, rfl, ?_⟩
      have same : (stopped ∨ ∃ d ∈ ([] : List ContentDelta), IsStop d) = stopped := by simp
      rw [same]
      exact agree
  | cons d deltas ih =>
      obtain ⟨fold', folded, after⟩ := ih (agree.delta d)
      refine ⟨fold', folded, ?_⟩
      have same : (stopped ∨ ∃ x ∈ d :: deltas, IsStop x) = ((stopped ∨ IsStop d) ∨ ∃ x ∈ deltas, IsStop x) := by
        rw [List.exists_mem_cons_iff, or_assoc]
      rw [same]
      exact after

/-! ## The response -/

/-- The response of the one fold is what the other one read. -/
structure SameOutcome (response : CompletionResponse) (reply : Reply) : Prop where
  text : response.text = reply.accumulatedText
  toolCalls : response.toolCalls = reply.completedToolCalls
  usage : response.usage = reply.finalUsage
  stopReason : response.stopReason = reply.finalStop

def textContent (text : String) : List AssistantContent := if text = "" then [] else [.text text]

variable {response : CompletionResponse} {text : String} {calls : List ToolCall}

theorem text_uses (response : CompletionResponse) (calls : List ToolCall) :
    ({ response with content := calls.map useOf } : CompletionResponse).text = "" := by
  induction calls with
  | nil => rfl
  | cons call calls ih =>
      have first : ({ response with content := (call :: calls).map useOf } : CompletionResponse).text =
          "" ++ ({ response with content := calls.map useOf } : CompletionResponse).text := String.join_cons
      rw [first, ih]
      rfl

theorem text_response (content : response.content = textContent text ++ calls.map useOf) : response.text = text := by
  obtain ⟨id, model, _, stopReason, usage⟩ := response
  subst content
  have silent := text_uses ⟨id, model, [], stopReason, usage⟩ calls
  unfold textContent
  split_ifs with blank
  · exact silent.trans blank.symm
  · apply String.join_cons.trans
    show text ++ _ = text
    exact (congrArg (text ++ ·) silent).trans String.append_empty

theorem toolCalls_uses (response : CompletionResponse) (calls : List ToolCall) :
    ({ response with content := calls.map useOf } : CompletionResponse).toolCalls = calls := by
  induction calls with
  | nil => rfl
  | cons call calls ih => exact congrArg (call :: ·) ih

theorem toolCalls_response (content : response.content = textContent text ++ calls.map useOf) :
    response.toolCalls = calls := by
  obtain ⟨id, model, _, stopReason, usage⟩ := response
  subst content
  unfold textContent
  split_ifs <;> exact toolCalls_uses ⟨id, model, [], stopReason, usage⟩ calls

/-- Whatever the deltas, both folds read the same text, tool calls and usage, and they agree on the stop reason exactly
when one of the deltas is a stop. -/
theorem folds_agree_iff (client : ChatGptOAuthClient) (req : CompletionRequest) (parseInput : String → Option Json)
    (sessionId : String) (deltas : List ContentDelta) :
    ∃ response, client.complete parseInput req (.ok (deltas.map .ok)) = .ok response ∧
      (SameOutcome response (Reply.empty.read parseInput sessionId (deltas.map .ok)).1 ↔ ∃ d ∈ deltas, IsStop d) := by
  have start : Agree False Fold.empty Reply.empty := ⟨rfl, rfl, rfl, rfl, False.elim, fun _ => ⟨rfl, rfl⟩⟩
  obtain ⟨fold, folded, agree⟩ := @Agree.read parseInput sessionId _ _ _ start deltas
  rw [false_or] at agree
  let response : CompletionResponse :=
    ⟨"", client.modelOf req, textContent fold.text ++ fold.tools, fold.stop, fold.usage⟩
  have content : response.content = textContent fold.text ++
      (Reply.empty.read parseInput sessionId (deltas.map .ok)).1.completedToolCalls.map useOf := by
    rw [← agree.tools]
  have completed : client.complete parseInput req (.ok (deltas.map .ok)) = .ok response := by
    show (Fold.empty.read parseInput (deltas.map .ok)).bind _ = _
    rw [folded]
    rfl
  refine ⟨response, completed, ?_⟩
  constructor
  · intro same
    by_contra never
    obtain ⟨ended, failed⟩ := agree.cut never
    have stops : fold.stop = _ := same.stopReason
    rw [ended, failed] at stops
    cases stops
  · intro stopped
    exact ⟨(text_response content).trans agree.text, toolCalls_response content, agree.usage, agree.seen stopped⟩

/-- A stream that was cut after its text. -/
def halfAnswer : LlmStream := [.ok (.textDelta "half")]

theorem cut_is_no_end :
    codexClient.complete (fun _ => none) (requestWith []) (.ok halfAnswer) =
      .ok ⟨"", "gpt-5.5", [.text "half"], .endTurn, ⟨0, 0⟩⟩ ∧
    ¬SameOutcome ⟨"", "gpt-5.5", [.text "half"], .endTurn, ⟨0, 0⟩⟩
      (Reply.empty.read (fun _ => none) "session" halfAnswer).1 := by
  constructor
  · rfl
  · intro same
    cases same.stopReason

end Daimon.Proof.Llm.ChatGpt
