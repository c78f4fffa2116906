import Daimon.Llm.Anthropic
import Daimon.Proof.Llm.Reading

/-!
# A streamed message is the message

The chat turn reads the deltas of a message, block by block, back to the text and the tool calls that the client gives
for the whole message. Between two blocks no tool is pending, so the stop of a text block finds nothing to complete.
-/

namespace Daimon.Proof.Llm
open Daimon.App.Chat Lib Daimon.Llm Daimon.Llm.Anthropic
open Daimon.Driver.NetworkResponse (structFields decodeOptional)

/-! ## What the provider sends -/

def blockValue : RawContentBlock → Json
  | .text text => Json.ofFields [("type", .string "text"), ("text", .string text)]
  | .toolUse id name input => Json.ofFields [("type", .string "tool_use"), ("id", .string id), ("name", .string name),
      ("input", input)]

def usageValue (u : RawUsage) : Json :=
  Json.ofFields [("input_tokens", u32 u.inputTokens), ("output_tokens", u32 u.outputTokens),
    ("cache_read_input_tokens", u32 u.cacheReadInputTokens),
    ("cache_creation_input_tokens", u32 u.cacheCreationInputTokens)]

def messageValue (message : RawMessageResponse) : Json :=
  Json.ofFields [("id", .string message.id), ("type", .string "message"), ("role", .string "assistant"),
    ("model", .string message.model), ("content", .array (message.content.map blockValue)),
    ("stop_reason", optional (message.stopReason.map .string)), ("usage", usageValue message.usage)]

/-- A block with its index and the pieces that its content is cut into. -/
structure Streamed where
  block : RawContentBlock
  index : UInt32
  pieces : List String

def sseEvent (event : String) (fields : List (String × Json)) : SseEvent :=
  ⟨event, .value (Json.ofFields (("type", .string event) :: fields))⟩

namespace Streamed

/-- A block starts empty. -/
def start (b : Streamed) : SseEvent :=
  sseEvent "content_block_start" [("index", u32 b.index), ("content_block", blockValue (match b.block with
    | .text _ => .text ""
    | .toolUse id name _ => .toolUse id name (.object [])))]

def piece (b : Streamed) (text : String) : SseEvent :=
  sseEvent "content_block_delta" [("index", u32 b.index), ("delta", match b.block with
    | .text _ => Json.ofFields [("type", .string "text_delta"), ("text", .string text)]
    | .toolUse _ _ _ => Json.ofFields [("type", .string "input_json_delta"), ("partial_json", .string text)])]

def stop (b : Streamed) : SseEvent := sseEvent "content_block_stop" [("index", u32 b.index)]

/-- The events of a block before its stop. -/
def opening (b : Streamed) : List SseEvent := b.start :: b.pieces.map b.piece

def events (b : Streamed) : List SseEvent := b.opening ++ [b.stop]

end Streamed

def messageDelta (stopReason : Option String) (usage : Option RawUsage) : SseEvent :=
  sseEvent "message_delta" [("delta", Json.ofFields [("stop_reason", optional (stopReason.map .string)),
    ("stop_sequence", .null)]), ("usage", optional (usage.map usageValue))]

/-- The pieces are of the text, or of a text that reads as the input of the tool. An empty input may be left out. -/
def CutInto (parseInput : String → Option Json) : RawContentBlock → List String → Prop
  | .text text, pieces => String.join pieces = text
  | .toolUse _ _ input, pieces =>
      parseInput (String.join pieces) = some input ∨ String.join pieces = "" ∧ input = .object []

/-! ## The deltas of a block -/

theorem blockValue_fromValue (block : RawContentBlock) : RawContentBlock.fromValue (blockValue block) = some block := by
  cases block with
  | text text =>
      rw [blockValue, RawContentBlock.fromValue, decodeTag_ofFields (by simp) rfl]
      simp [structFields_ofFields, List.lookup_cons]
  | toolUse id name input =>
      rw [blockValue, RawContentBlock.fromValue, decodeTag_ofFields (by simp) rfl]
      simp [structFields_ofFields, List.lookup_cons]

theorem usageValue_fromValue (u : RawUsage) : RawUsage.fromValue (usageValue u) = some u := by
  simp [usageValue, RawUsage.fromValue, structFields_ofFields, List.lookup_cons, decodeDefault]

theorem messageValue_fromValue (message : RawMessageResponse) :
    RawMessageResponse.fromValue (messageValue message) = some message := by
  have content := decodeVec_map blockValue_fromValue message.content
  simp [messageValue, RawMessageResponse.fromValue, structFields_ofFields, List.lookup_cons, content, usageValue_fromValue]

section Block
variable (texts : ErrorTexts) (b : Streamed)

theorem eventDelta_start : eventDelta texts b.start = .ok (match b.block with
    | .text _ => none
    | .toolUse id name _ => some (.toolUseStart id name)) := by
  unfold Streamed.start eventDelta sseEvent SseData.fromStr
  cases shape : b.block with
  | text text =>
      simp [ContentBlockStartEvent.fromValue, structFields_ofFields, List.lookup_cons, blockValue_fromValue,
        ContentBlockStartEvent.intoDelta, Except.map]
  | toolUse id name input =>
      simp [ContentBlockStartEvent.fromValue, structFields_ofFields, List.lookup_cons, blockValue_fromValue,
        ContentBlockStartEvent.intoDelta, Except.map]

theorem eventDelta_piece (text : String) : eventDelta texts (b.piece text) = .ok (some (match b.block with
    | .text _ => .textDelta text
    | .toolUse _ _ _ => .toolUseInputDelta text)) := by
  unfold Streamed.piece eventDelta sseEvent SseData.fromStr
  cases shape : b.block with
  | text whole =>
      have tag := @decodeTag_ofFields [("type", .string "text_delta"), ("text", .string text)] (by simp) _ rfl
      simp [contentBlockDelta, structFields_ofFields, List.lookup_cons, RawDelta.fromValue, tag, RawDelta.intoDelta,
        Except.map]
  | toolUse id name input =>
      have tag := @decodeTag_ofFields [("type", .string "input_json_delta"), ("partial_json", .string text)] (by simp) _ rfl
      simp [contentBlockDelta, structFields_ofFields, List.lookup_cons, RawDelta.fromValue, tag, RawDelta.intoDelta,
        Except.map]

theorem eventDelta_stop : eventDelta texts b.stop = .ok (some (.toolUseStop "")) := by
  simp [Streamed.stop, sseEvent, eventDelta, SseData.fromStr, contentBlockStop, structFields_ofFields, List.lookup_cons,
    Except.map]

theorem eventDelta_messageDelta (stopReason : Option String) (usage : Option RawUsage) :
    eventDelta texts (messageDelta stopReason usage) =
      .ok (some (.messageStop (parseStopReason stopReason) ((usage.map RawUsage.usage).getD ⟨0, 0⟩))) := by
  have used : decodeOptional RawUsage.fromValue (some (optional (usage.map usageValue))) = some usage :=
    decodeOptional_optional usageValue_fromValue (by simp [usageValue, Json.ofFields]) _
  simp [messageDelta, sseEvent, eventDelta, SseData.fromStr, MessageDeltaEvent.fromValue, MessageDeltaEvent.decodeDelta,
    structFields_ofFields, List.lookup_cons, used, MessageDeltaEvent.intoDelta, Except.map]

end Block

def Streamed.deltas (b : Streamed) : List ContentDelta :=
  match b.block with
  | .text _ => b.pieces.map .textDelta
  | .toolUse id name _ => .toolUseStart id name :: b.pieces.map .toolUseInputDelta

section Deltas
variable (texts : ErrorTexts) (b : Streamed)

theorem completeStream_append (earlier later : List SseEvent) :
    completeStream texts ((earlier ++ later).map .ok) =
      completeStream texts (earlier.map .ok) ++ completeStream texts (later.map .ok) :=
  mapEvents_append texts (eventDelta texts) earlier later

theorem completeStream_pieces (pieces : List String) :
    completeStream texts ((pieces.map b.piece).map .ok) = (pieces.map fun text => match b.block with
      | .text _ => ContentDelta.textDelta text
      | .toolUse _ _ _ => .toolUseInputDelta text).map .ok := by
  induction pieces with
  | nil => rfl
  | cons text rest ih =>
      rw [completeStream, List.map_cons, mapEvents_cons (eventDelta_piece texts b text)]
      exact congrArg (List.cons _) ih

theorem completeStream_opening : completeStream texts (b.opening.map .ok) = b.deltas.map .ok := by
  have pieces := completeStream_pieces texts b b.pieces
  rw [completeStream] at pieces ⊢
  rw [Streamed.opening, mapEvents_cons (eventDelta_start texts b), pieces, Streamed.deltas]
  cases b.block <;> rfl

theorem completeStream_events :
    completeStream texts (b.events.map .ok) = (b.deltas ++ [ContentDelta.toolUseStop ""]).map .ok := by
  rw [Streamed.events, completeStream_append, completeStream_opening, List.map_append, completeStream,
    mapEvents_cons (eventDelta_stop texts b)]
  rfl

theorem completeStream_blocks (blocks : List Streamed) :
    completeStream texts ((blocks.flatMap Streamed.events).map .ok) =
      (blocks.flatMap fun b => b.deltas ++ [.toolUseStop ""]).map .ok := by
  induction blocks with
  | nil => rfl
  | cons b rest ih =>
      rw [List.flatMap_cons, completeStream_append, completeStream_events, ih, List.flatMap_cons, ← List.map_append]

end Deltas

/-! ## Reading a message -/

def blockText : RawContentBlock → String
  | .text text => text
  | .toolUse _ _ _ => ""

def blockCalls : RawContentBlock → List ToolCall
  | .text _ => []
  | .toolUse id name input => [⟨id, name, input⟩]

theorem intoCompletionResponse_text (message : RawMessageResponse) :
    message.intoCompletionResponse.text = String.join (message.content.map blockText) := by
  simp only [CompletionResponse.text, RawMessageResponse.intoCompletionResponse, List.map_map]
  congr 1
  apply List.map_congr_left
  intro block _
  cases block <;> rfl

theorem intoCompletionResponse_toolCalls (message : RawMessageResponse) :
    message.intoCompletionResponse.toolCalls = message.content.flatMap blockCalls := by
  simp only [CompletionResponse.toolCalls, RawMessageResponse.intoCompletionResponse]
  induction message.content with
  | nil => rfl
  | cons block rest ih => cases block <;> simpa [blockCalls] using ih

section Reading
variable {parseInput : String → Option Json} (sessionId : String)

/-- What reading adds to a reply that has no tool pending: a text and calls, and again no tool is pending. -/
structure Reads (reply after : Reply) (text : String) (calls : List ToolCall) : Prop where
  text : after.accumulatedText = reply.accumulatedText ++ text
  calls : after.completedToolCalls = reply.completedToolCalls ++ calls
  pending : after.pendingTool = none

/-- The stop of a text block finds no tool pending, the stop of a tool's the tool of the block. -/
theorem foldl_block (empty : parseInput "" = none) {b : Streamed} (cut : CutInto parseInput b.block b.pieces)
    {reply : Reply} (idle : reply.pendingTool = none) :
    Reads reply ((b.deltas ++ [ContentDelta.toolUseStop ""]).foldl (Reply.delta parseInput sessionId) reply)
      (blockText b.block) (blockCalls b.block) := by
  rw [List.foldl_append, Streamed.deltas]
  cases shape : b.block with
  | text text =>
      rw [shape] at cut
      simp only [CutInto] at cut
      simp only [foldl_textDelta, List.foldl_cons, List.foldl_nil, Reply.delta, idle, cut]
      exact ⟨rfl, by simp [blockCalls], rfl⟩
  | toolUse id name input =>
      rw [shape] at cut
      simp only [CutInto] at cut
      have read : (parseInput (String.join b.pieces)).getD (.object []) = input := by
        rcases cut with serialised | ⟨nothing, rfl⟩
        · rw [serialised, Option.getD_some]
        · rw [nothing, empty, Option.getD_none]
      have started : (reply.delta parseInput sessionId (.toolUseStart id name)).pendingTool =
          some ⟨id, name, ""⟩ := rfl
      simp only [List.foldl_cons, List.foldl_nil]
      rw [foldl_toolUseInputDelta parseInput sessionId started]
      simp only [Reply.delta, String.empty_append, read]
      exact ⟨by simp [blockText], rfl, rfl⟩

theorem foldl_blocks (empty : parseInput "" = none) (blocks : List Streamed)
    (cut : ∀ b ∈ blocks, CutInto parseInput b.block b.pieces) {reply : Reply} (idle : reply.pendingTool = none) :
    Reads reply
      ((blocks.flatMap fun b => b.deltas ++ [ContentDelta.toolUseStop ""]).foldl (Reply.delta parseInput sessionId) reply)
      (String.join (blocks.map fun b => blockText b.block))
      (blocks.flatMap fun b => blockCalls b.block) := by
  induction blocks generalizing reply with
  | nil => exact ⟨by simp, by simp, idle⟩
  | cons b rest ih =>
      have first := foldl_block sessionId empty (cut b List.mem_cons_self) idle
      have later := ih (fun c member => cut c (List.mem_cons_of_mem b member)) first.pending
      rw [List.flatMap_cons, List.foldl_append]
      refine ⟨?_, ?_, later.pending⟩
      · rw [later.text, first.text, List.map_cons, String.join_cons, String.append_assoc]
      · rw [later.calls, first.calls, List.flatMap_cons, List.append_assoc]

variable (parseInput) in
theorem read_message (texts : ErrorTexts) (blocks : List Streamed) (stopReason : Option String)
    (usage : Option RawUsage) :
    Reply.empty.read parseInput sessionId (completeStream texts
        ((blocks.flatMap Streamed.events ++ [messageDelta stopReason usage]).map .ok)) =
      (((blocks.flatMap fun b => b.deltas ++ [.toolUseStop ""]).foldl (Reply.delta parseInput sessionId) .empty).delta
        parseInput sessionId (.messageStop (parseStopReason stopReason) ((usage.map RawUsage.usage).getD ⟨0, 0⟩)),
        none) := by
  rw [completeStream_append, completeStream_blocks]
  have last : completeStream texts ([messageDelta stopReason usage].map .ok) =
      [ContentDelta.messageStop (parseStopReason stopReason) ((usage.map RawUsage.usage).getD ⟨0, 0⟩)].map .ok := by
    rw [completeStream, mapEvents_cons (eventDelta_messageDelta texts stopReason usage)]
    rfl
  rw [last, ← List.map_append, read_deltas, List.foldl_append]
  rfl

/-- Before the stop of a text block no tool is pending. -/
theorem read_opening_text (empty : parseInput "" = none) (texts : ErrorTexts) {earlier : List Streamed}
    (cut : ∀ b ∈ earlier, CutInto parseInput b.block b.pieces) {b : Streamed} {text : String}
    (isText : b.block = .text text) :
    (Reply.empty.read parseInput sessionId (completeStream texts
      ((earlier.flatMap Streamed.events ++ b.opening).map .ok))).1.pendingTool = none := by
  rw [completeStream_append, completeStream_blocks, completeStream_opening, ← List.map_append, read_deltas,
    List.foldl_append, Streamed.deltas, isText]
  simp only [foldl_textDelta]
  exact (foldl_blocks sessionId empty earlier cut rfl).pending

/-- The chat turn reads a streamed message as the client reads the whole one, and the stop of a text block changes
nothing. -/
theorem streamed_message_agrees (empty : parseInput "" = none) (texts : ErrorTexts) (id model : String)
    (usage : RawUsage) (stopReason : Option String) (lastUsage : Option RawUsage) (blocks : List Streamed)
    (cut : ∀ b ∈ blocks, CutInto parseInput b.block b.pieces) :
    let message : RawMessageResponse := ⟨id, model, blocks.map Streamed.block, stopReason, usage⟩
    let response := message.intoCompletionResponse
    let outcome := Reply.empty.read parseInput sessionId (completeStream texts
      ((blocks.flatMap Streamed.events ++ [messageDelta stopReason lastUsage]).map .ok))
    RawMessageResponse.fromValue (messageValue message) = some message ∧
      outcome.2 = none ∧ outcome.1.accumulatedText = response.text ∧
      outcome.1.completedToolCalls = response.toolCalls ∧ outcome.1.finalStop = response.stopReason ∧
      ∀ earlier b later text, blocks = earlier ++ b :: later → b.block = .text text →
        let before := (Reply.empty.read parseInput sessionId (completeStream texts
          ((earlier.flatMap Streamed.events ++ b.opening).map .ok))).1
        before.delta parseInput sessionId (.toolUseStop "") = before := by
  intro message response outcome
  have idle : Reply.empty.pendingTool = none := rfl
  have whole := foldl_blocks sessionId empty blocks cut idle
  have read : outcome = _ := read_message parseInput sessionId texts blocks stopReason lastUsage
  refine ⟨messageValue_fromValue message, ?_, ?_, ?_, ?_, ?_⟩
  · rw [read]
  · rw [read, intoCompletionResponse_text, List.map_map]
    exact whole.text.trans String.empty_append
  · rw [read, intoCompletionResponse_toolCalls, List.flatMap_map]
    exact whole.calls
  · rw [read]
    rfl
  · intro earlier b later text split isText before
    have earlierCut : ∀ c ∈ earlier, CutInto parseInput c.block c.pieces := by
      intro c member
      apply cut
      rw [split]
      exact List.mem_append_left _ member
    have idle : before.pendingTool = none := read_opening_text sessionId empty texts earlierCut isText
    simp only [Reply.delta, idle]

/-! A text in two pieces, a tool with its input in three, a text again and a tool without input. -/

def parseNode (text : String) : Option Json :=
  if text = "\x7b\"node\":\"pve\"\x7d" then some (.object [("node", .string "pve")]) else none

def sampleBlocks : List Streamed := [
  ⟨.text "Checking", 0, ["Check", "ing"]⟩,
  ⟨.toolUse "t1" "compute.vm.status" (.object [("node", .string "pve")]), 1, ["", "\x7b\"node\":", "\"pve\"\x7d"]⟩,
  ⟨.text ".", 2, ["."]⟩,
  ⟨.toolUse "t2" "compute.host.status" (.object []), 3, []⟩]

theorem streamed_message_agrees_sample :
    (Reply.empty.read parseNode "s" (completeStream ⟨fun _ => "", fun _ => ""⟩
      ((sampleBlocks.flatMap Streamed.events ++ [messageDelta (some "tool_use") none]).map .ok))).1.completedToolCalls =
        [⟨"t1", "compute.vm.status", .object [("node", .string "pve")]⟩, ⟨"t2", "compute.host.status", .object []⟩] := by
  have cut : ∀ b ∈ sampleBlocks, CutInto parseNode b.block b.pieces := by
    simp [sampleBlocks, CutInto, parseNode, String.join]
  exact (streamed_message_agrees "s" (by decide) ⟨fun _ => "", fun _ => ""⟩ "msg" "claude" ⟨0, 0, 0, 0⟩ (some "tool_use")
    none sampleBlocks cut).2.2.2.1

end Reading
end Daimon.Proof.Llm
