import Daimon.Llm.OpenAi
import Daimon.Proof.Llm.Reading

/-!
# What streaming loses of a completion

A chunk is decoded without its tool calls, its finish reason is dropped when it carries text, and the chunk that has only
the usage is taken for a normal end. A streamed completion is read as the whole one just when none of these matters.
-/

namespace Daimon.Proof.Llm
open Daimon.App.Chat Lib Daimon.Llm Daimon.Llm.OpenAi
open Daimon.Driver.NetworkResponse (structFields decodeOptional)

/-! ## What the provider sends -/

/-- The parts of a completion that a turn is about. -/
structure Completed where
  content : Option String
  toolCalls : List ChoiceToolCall
  finishReason : Option String
  deriving DecidableEq

def toolCallValue (call : ChoiceToolCall) : Json :=
  Json.ofFields [("id", .string call.id), ("type", .string "function"),
    ("function", Json.ofFields [("name", .string call.name), ("arguments", .string call.arguments)])]

def chatUsageValue (u : ChatUsage) : Json :=
  Json.ofFields [("prompt_tokens", u32 u.promptTokens), ("completion_tokens", u32 u.completionTokens)]

def completionValue (id model : String) (usage : Option ChatUsage) (c : Completed) : Json :=
  Json.ofFields [("id", .string id), ("object", .string "chat.completion"), ("model", .string model),
    ("choices", .array [Json.ofFields [
      ("message", Json.ofFields [("role", .string "assistant"), ("content", optional (c.content.map .string)),
        ("tool_calls", .array (c.toolCalls.map toolCallValue))]),
      ("finish_reason", optional (c.finishReason.map .string))]]),
    ("usage", optional (usage.map chatUsageValue))]

/-- A part of a tool call: the id and the name come once, the arguments in pieces. -/
structure Fragment where
  index : Nat
  id : Option String
  name : Option String
  arguments : String
  deriving DecidableEq

structure Piece where
  content : Option String
  fragments : List Fragment
  finishReason : Option String
  usage : Option ChatUsage
  deriving DecidableEq

def fragmentValue (f : Fragment) : Json :=
  Json.ofFields [("index", .number (.posInt (UInt64.ofNat f.index))), ("id", optional (f.id.map .string)),
    ("function", Json.ofFields [("name", optional (f.name.map .string)), ("arguments", .string f.arguments)])]

def chunkEvent (choices : List Json) (usage : Option ChatUsage) : SseEvent :=
  ⟨"message", .value (Json.ofFields [("object", .string "chat.completion.chunk"), ("choices", .array choices),
    ("usage", optional (usage.map chatUsageValue))])⟩

def Piece.event (p : Piece) : SseEvent :=
  chunkEvent [Json.ofFields [
    ("delta", Json.ofFields [("content", optional (p.content.map .string)),
      ("tool_calls", .array (p.fragments.map fragmentValue))]),
    ("finish_reason", optional (p.finishReason.map .string))]] p.usage

def doneEvent : SseEvent := ⟨"message", .done⟩

/-- The chunks of a stream, then the one with the usage alone, if it is sent, and `[DONE]`. -/
def streamEvents (pieces : List Piece) (usageOnly : Option ChatUsage) : List SseEvent :=
  pieces.map Piece.event ++ (usageOnly.map fun u => chunkEvent [] (some u)).toList ++ [doneEvent]

/-- The parts of each call are together the call. -/
def Assembles (fragments : List Fragment) (calls : List ChoiceToolCall) : Prop :=
  (∀ f ∈ fragments, f.index < calls.length) ∧
    ∀ i call, calls[i]? = some call →
      let parts := fragments.filter (·.index == i)
      parts.findSome? Fragment.id = some call.id ∧ parts.findSome? Fragment.name = some call.name ∧
        String.join (parts.map Fragment.arguments) = call.arguments

/-- The finish reason comes with the last chunk that has a choice. -/
structure CutsInto (c : Completed) (pieces : List Piece) : Prop where
  content : String.join (pieces.map fun p => p.content.getD "") = c.content.getD ""
  calls : Assembles (pieces.flatMap Piece.fragments) c.toolCalls
  unfinished : ∀ p ∈ pieces.dropLast, p.finishReason = none
  finished : pieces.getLast?.bind Piece.finishReason = c.finishReason

/-- The turn reads the stream as the client reads the whole completion. -/
def ReadAlike (parseInput : String → Option Json) (argsError : String → String) (texts : ErrorTexts) (sessionId : String)
    (body : Json) (events : List SseEvent) : Prop :=
  ∃ completion response, ChatCompletion.fromValue body = some completion ∧
    completion.intoCompletionResponse parseInput argsError = .ok response ∧
    let outcome := Reply.empty.read parseInput sessionId (completeStream texts (events.map .ok))
    outcome.2 = none ∧ outcome.1.accumulatedText = response.text ∧
      outcome.1.completedToolCalls = response.toolCalls ∧ outcome.1.finalStop = response.stopReason

/-! ## The whole completion -/

theorem toolCallValue_fromValue (call : ChoiceToolCall) : ChoiceToolCall.fromValue (toolCallValue call) = some call := by
  simp [toolCallValue, ChoiceToolCall.fromValue, ChoiceToolCall.decodeFunction, structFields_ofFields, List.lookup_cons]

theorem chatUsageValue_fromValue (u : ChatUsage) : ChatUsage.fromValue (chatUsageValue u) = some u := by
  simp [chatUsageValue, ChatUsage.fromValue, structFields_ofFields, List.lookup_cons, decodeDefault]

@[simp] theorem decodeOptional_usage (usage : Option ChatUsage) :
    decodeOptional ChatUsage.fromValue (some (optional (usage.map chatUsageValue))) = some usage :=
  decodeOptional_optional chatUsageValue_fromValue (by simp [chatUsageValue, Json.ofFields]) usage

theorem completionValue_fromValue (id model : String) (usage : Option ChatUsage) (c : Completed) :
    ChatCompletion.fromValue (completionValue id model usage c) =
      some ⟨id, model, [⟨⟨c.content, c.toolCalls⟩, c.finishReason⟩], usage⟩ := by
  have message : ChatChoiceMessage.fromValue (Json.ofFields [("role", .string "assistant"),
      ("content", optional (c.content.map .string)), ("tool_calls", .array (c.toolCalls.map toolCallValue))]) =
        some ⟨c.content, c.toolCalls⟩ := by
    simp [ChatChoiceMessage.fromValue, structFields_ofFields, List.lookup_cons, decodeDefault,
      decodeVec_map toolCallValue_fromValue]
  simp [completionValue, ChatCompletion.fromValue, ChatChoice.fromValue, structFields_ofFields, List.lookup_cons,
    decodeVec, message]

theorem toolContent_toolCalls {parseInput : String → Option Json} {argsError : String → String}
    {calls : List ChoiceToolCall} {content : List AssistantContent}
    (parsed : ChatCompletion.toolContent parseInput argsError calls = .ok content) :
    content.length = calls.length ∧ ∀ block ∈ content, ∃ id name input, block = .toolUse id name input := by
  induction calls generalizing content with
  | nil =>
      cases parsed
      simp
  | cons call rest ih =>
      rw [ChatCompletion.toolContent] at parsed
      split at parsed
      · cases parsed
      · rename_i input read
        cases later : ChatCompletion.toolContent parseInput argsError rest with
        | error e =>
            rw [later] at parsed
            cases parsed
        | ok blocks =>
            rw [later] at parsed
            cases parsed
            obtain ⟨count, tools⟩ := ih later
            refine ⟨by simp [count], ?_⟩
            intro block member
            rcases List.mem_cons.mp member with rfl | among
            · exact ⟨call.id, call.name, input, rfl⟩
            · exact tools block among

/-! ## The chunks -/

def pieceDelta (p : Piece) : Option ContentDelta := StreamChunk.intoDelta ⟨[⟨p.content, p.finishReason⟩], p.usage⟩

theorem eventDelta_piece_event (texts : ErrorTexts) (p : Piece) :
    eventDelta texts p.event = .ok (pieceDelta p) := by
  simp [Piece.event, chunkEvent, eventDelta, SseData.fromStr, StreamChunk.fromValue, StreamChoice.fromValue,
    StreamChoice.decodeDelta, structFields_ofFields, List.lookup_cons, decodeVec, Except.map, pieceDelta]

theorem eventDelta_usageOnly (texts : ErrorTexts) (u : ChatUsage) :
    eventDelta texts (chunkEvent [] (some u)) = .ok (some (.messageStop .endTurn u.usage)) := by
  have usage := decodeOptional_usage (some u)
  rw [Option.map_some] at usage
  simp [chunkEvent, eventDelta, SseData.fromStr, StreamChunk.fromValue, structFields_ofFields, List.lookup_cons,
    decodeVec, Except.map, usage, StreamChunk.intoDelta]

def usageDeltas (usageOnly : Option ChatUsage) : List ContentDelta :=
  (usageOnly.map fun u => .messageStop .endTurn u.usage).toList

theorem completeStream_streamEvents (texts : ErrorTexts) (pieces : List Piece) (usageOnly : Option ChatUsage) :
    completeStream texts ((streamEvents pieces usageOnly).map .ok) =
      (pieces.filterMap pieceDelta ++ usageDeltas usageOnly).map .ok := by
  have chunks : completeStream texts ((pieces.map Piece.event).map .ok) = (pieces.filterMap pieceDelta).map .ok := by
    induction pieces with
    | nil => rfl
    | cons p rest ih =>
        rw [completeStream] at ih ⊢
        rw [List.map_cons, mapEvents_cons (eventDelta_piece_event texts p), ih, ← List.map_append]
        cases shape : pieceDelta p <;> simp [shape]
  have ending : completeStream texts
      (((usageOnly.map fun u => chunkEvent [] (some u)).toList ++ [doneEvent]).map .ok) =
        (usageDeltas usageOnly).map .ok := by
    cases usageOnly with
    | none => rfl
    | some u =>
        rw [completeStream, Option.map_some, Option.toList_some, List.singleton_append,
          mapEvents_cons (eventDelta_usageOnly texts u)]
        rfl
  rw [streamEvents, List.append_assoc, completeStream, mapEvents_append, ← completeStream, ← completeStream, chunks,
    ending, List.map_append]

/-! ## Reading the chunks -/

section Chunks
variable (parseInput : String → Option Json) (sessionId : String)

/-- What reading adds to a reply: a text and no call, and the stop reason it is left with. -/
structure Speaks (reply after : Reply) (text : String) (stop : StopReason) : Prop where
  text : after.accumulatedText = reply.accumulatedText ++ text
  calls : after.completedToolCalls = reply.completedToolCalls
  stop : after.finalStop = stop

/-- A chunk with text says nothing of the end. -/
theorem foldl_pieceDelta (reply : Reply) (p : Piece) :
    Speaks reply ((pieceDelta p).toList.foldl (Reply.delta parseInput sessionId) reply) (p.content.getD "")
      (if p.content.getD "" = "" then (p.finishReason.map fun r => parseStopReason (some r)).getD reply.finalStop
        else reply.finalStop) := by
  obtain ⟨content, fragments, finishReason, usage⟩ := p
  by_cases blank : content.getD "" = ""
  · have silent : content.filter (· ≠ "") = none := by
      cases content with
      | none => rfl
      | some text => simpa using blank
    simp only [pieceDelta, StreamChunk.intoDelta, silent, if_pos blank]
    cases finishReason with
    | none => exact ⟨by simp [blank], rfl, rfl⟩
    | some reason => exact ⟨by simp [Reply.delta, blank], rfl, rfl⟩
  · obtain ⟨text, rfl⟩ : ∃ text, content = some text := by
      cases content with
      | none => exact absurd rfl blank
      | some text => exact ⟨text, rfl⟩
    have said : (some text).filter (· ≠ "") = some text := by
      simpa using blank
    simp only [pieceDelta, StreamChunk.intoDelta, said, if_neg blank]
    exact ⟨rfl, rfl, rfl⟩

theorem foldl_unfinished (pieces : List Piece) (unfinished : ∀ p ∈ pieces, p.finishReason = none) (reply : Reply) :
    Speaks reply ((pieces.filterMap pieceDelta).foldl (Reply.delta parseInput sessionId) reply)
      (String.join (pieces.map fun p => p.content.getD "")) reply.finalStop := by
  induction pieces generalizing reply with
  | nil => exact ⟨by simp, rfl, rfl⟩
  | cons p rest ih =>
      have first := foldl_pieceDelta parseInput sessionId reply p
      rw [unfinished p List.mem_cons_self, Option.map_none, Option.getD_none, ite_self] at first
      have later := ih (fun q member => unfinished q (List.mem_cons_of_mem p member))
        ((pieceDelta p).toList.foldl (Reply.delta parseInput sessionId) reply)
      have split : (p :: rest).filterMap pieceDelta = (pieceDelta p).toList ++ rest.filterMap pieceDelta := by
        cases shape : pieceDelta p <;> simp [shape]
      rw [split, List.foldl_append]
      refine ⟨?_, ?_, ?_⟩
      · rw [later.text, first.text, List.map_cons, String.join_cons, String.append_assoc]
      · rw [later.calls, first.calls]
      · rw [later.stop, first.stop]

/-- The last chunk that has a choice carries no text. -/
def EndsBare (pieces : List Piece) : Prop := ∀ last ∈ pieces.getLast?, last.content.getD "" = ""

instance (pieces : List Piece) : Decidable (EndsBare pieces) :=
  inferInstanceAs (Decidable (∀ last ∈ pieces.getLast?, last.content.getD "" = ""))

theorem foldl_pieces {c : Completed} {pieces : List Piece} (cut : CutsInto c pieces) :
    Speaks .empty ((pieces.filterMap pieceDelta).foldl (Reply.delta parseInput sessionId) .empty) (c.content.getD "")
      (if EndsBare pieces then parseStopReason c.finishReason else .error) := by
  obtain ⟨content, -, unfinished, finished⟩ := cut
  rcases List.eq_nil_or_concat pieces with rfl | ⟨init, last, rfl⟩
  · have unnamed : c.finishReason = none := finished.symm
    have silent : c.content.getD "" = "" := content.symm
    rw [unnamed, silent]
    exact ⟨rfl, rfl, by simp [Reply.empty, parseStopReason]⟩
  · rw [List.concat_eq_append] at content unfinished finished ⊢
    rw [List.dropLast_concat] at unfinished
    rw [List.getLast?_concat, Option.bind_some] at finished
    have bare : EndsBare (init ++ [last]) ↔ last.content.getD "" = "" := by
      simp [EndsBare]
    have before := foldl_unfinished parseInput sessionId init unfinished .empty
    have after := foldl_pieceDelta parseInput sessionId
      ((init.filterMap pieceDelta).foldl (Reply.delta parseInput sessionId) .empty) last
    have split : (init ++ [last]).filterMap pieceDelta = init.filterMap pieceDelta ++ (pieceDelta last).toList := by
      cases shape : pieceDelta last <;> simp [shape]
    rw [split, List.foldl_append]
    refine ⟨?_, ?_, ?_⟩
    · rw [after.text, before.text, String.append_assoc, ← content, List.map_append, String.join_append]
      simp
    · rw [after.calls, before.calls]
    · rw [after.stop, before.stop, finished, if_congr bare rfl rfl]
      cases c.finishReason <;> rfl

def streamStop (c : Completed) (pieces : List Piece) (usageOnly : Option ChatUsage) : StopReason :=
  if usageOnly.isSome then .endTurn
  else if EndsBare pieces then parseStopReason c.finishReason
  else .error

theorem read_streamEvents (texts : ErrorTexts) {c : Completed} {pieces : List Piece} (cut : CutsInto c pieces)
    (usageOnly : Option ChatUsage) :
    let outcome := Reply.empty.read parseInput sessionId
      (completeStream texts ((streamEvents pieces usageOnly).map .ok))
    outcome.2 = none ∧ outcome.1.accumulatedText = c.content.getD "" ∧ outcome.1.completedToolCalls = [] ∧
      outcome.1.finalStop = streamStop c pieces usageOnly := by
  have spoken := foldl_pieces parseInput sessionId cut
  rw [completeStream_streamEvents, read_deltas, List.foldl_append]
  cases usageOnly with
  | none => exact ⟨rfl, spoken.text.trans String.empty_append, spoken.calls, spoken.stop⟩
  | some u => exact ⟨rfl, spoken.text.trans String.empty_append, spoken.calls, rfl⟩

end Chunks

theorem parseStopReason_endTurn {reason : Option String} : parseStopReason reason = .endTurn ↔ reason = some "stop" := by
  unfold parseStopReason
  split <;> simp_all

theorem parseStopReason_error {reason : Option String} :
    parseStopReason reason = .error ↔ reason ∉ [some "stop", some "length", some "tool_calls"] := by
  unfold parseStopReason
  split <;> simp_all

/-- The stop reason is kept when the chunk with the usage alone stands for a normal end, or is not sent and the finish
reason has a chunk without text or is not a known one. -/
def KeepsStop (c : Completed) (pieces : List Piece) (usageOnly : Option ChatUsage) : Prop :=
  if usageOnly.isSome then c.finishReason = some "stop"
  else EndsBare pieces ∨ c.finishReason ∉ [some "stop", some "length", some "tool_calls"]

theorem streamStop_eq_iff (c : Completed) (pieces : List Piece) (usageOnly : Option ChatUsage) :
    streamStop c pieces usageOnly = parseStopReason c.finishReason ↔ KeepsStop c pieces usageOnly := by
  unfold streamStop KeepsStop
  split_ifs with sent bare
  · rw [eq_comm, parseStopReason_endTurn]
  · exact iff_of_true rfl (Or.inl bare)
  · rw [eq_comm, parseStopReason_error, or_iff_right bare]

theorem intoCompletionResponse_plain (parseInput : String → Option Json) (argsError : String → String)
    (id model : String) (usage : Option ChatUsage) (content finishReason : Option String) :
    ∃ response, ChatCompletion.intoCompletionResponse parseInput argsError
        ⟨id, model, [⟨⟨content, []⟩, finishReason⟩], usage⟩ = .ok response ∧
      response.text = content.getD "" ∧ response.toolCalls = [] ∧
      response.stopReason = parseStopReason finishReason := by
  refine ⟨_, rfl, ?_, ?_, rfl⟩
  · cases content with
    | none => rfl
    | some text =>
        by_cases blank : text = ""
        · simp [CompletionResponse.text, Option.filter, blank]
        · simp [CompletionResponse.text, Option.filter, blank]
  · cases content with
    | none => rfl
    | some text =>
        by_cases blank : text = ""
        · simp [CompletionResponse.toolCalls, Option.filter, blank]
        · simp [CompletionResponse.toolCalls, Option.filter, blank]

theorem intoCompletionResponse_toolCalls_ne_nil {parseInput : String → Option Json} {argsError : String → String}
    {id model : String} {usage : Option ChatUsage} {c : Completed} {response : CompletionResponse}
    (calls : c.toolCalls ≠ [])
    (answered : ChatCompletion.intoCompletionResponse parseInput argsError
      ⟨id, model, [⟨⟨c.content, c.toolCalls⟩, c.finishReason⟩], usage⟩ = .ok response) :
    response.toolCalls ≠ [] := by
  simp only [ChatCompletion.intoCompletionResponse, bind, Except.bind, pure, Except.pure] at answered
  split at answered
  · cases answered
  · rename_i tools parsed
    cases answered
    obtain ⟨count, shapes⟩ := toolContent_toolCalls parsed
    cases tools with
    | nil => exact absurd (List.length_eq_zero_iff.mp count.symm) calls
    | cons block rest =>
        obtain ⟨id, name, input, rfl⟩ := shapes block List.mem_cons_self
        simp [CompletionResponse.toolCalls]

section Alike
variable {parseInput : String → Option Json} {argsError : String → String} {texts : ErrorTexts}
  {sessionId id model : String} {usage usageOnly : Option ChatUsage} {c : Completed} {pieces : List Piece}

theorem ReadAlike.toolCalls_eq_nil (cut : CutsInto c pieces)
    (alike : ReadAlike parseInput argsError texts sessionId (completionValue id model usage c)
      (streamEvents pieces usageOnly)) : c.toolCalls = [] := by
  obtain ⟨completion, response, decoded, answered, -, -, calls, -⟩ := alike
  rw [completionValue_fromValue] at decoded
  cases decoded
  by_contra some
  have none := (read_streamEvents parseInput sessionId texts cut usageOnly).2.2.1
  exact intoCompletionResponse_toolCalls_ne_nil some answered (calls.symm.trans none)

theorem ReadAlike.keepsStop (cut : CutsInto c pieces)
    (alike : ReadAlike parseInput argsError texts sessionId (completionValue id model usage c)
      (streamEvents pieces usageOnly)) : KeepsStop c pieces usageOnly := by
  have plain := alike.toolCalls_eq_nil cut
  obtain ⟨completion, response, decoded, answered, -, -, -, same⟩ := alike
  rw [completionValue_fromValue] at decoded
  cases decoded
  obtain ⟨_, expected, -, -, reason⟩ :=
    intoCompletionResponse_plain parseInput argsError id model usage c.content c.finishReason
  rw [plain, expected] at answered
  cases answered
  rw [← streamStop_eq_iff, ← (read_streamEvents parseInput sessionId texts cut usageOnly).2.2.2, same, reason]

end Alike

/-- A streamed completion is read as the whole one just when it has no tool call and keeps its stop reason. -/
theorem streamed_completion_alike_iff (parseInput : String → Option Json) (argsError : String → String)
    (texts : ErrorTexts) (sessionId id model : String) (usage usageOnly : Option ChatUsage) (c : Completed)
    (pieces : List Piece) (cut : CutsInto c pieces) :
    ReadAlike parseInput argsError texts sessionId (completionValue id model usage c) (streamEvents pieces usageOnly) ↔
      c.toolCalls = [] ∧ KeepsStop c pieces usageOnly := by
  constructor
  · intro alike
    exact ⟨alike.toolCalls_eq_nil cut, alike.keepsStop cut⟩
  · rintro ⟨plain, kept⟩
    obtain ⟨read, text, noCalls, stop⟩ := read_streamEvents parseInput sessionId texts cut usageOnly
    obtain ⟨response, answered, said, called, reason⟩ :=
      intoCompletionResponse_plain parseInput argsError id model usage c.content c.finishReason
    rw [← plain] at answered
    exact ⟨_, response, completionValue_fromValue id model usage c, answered, read, text.trans said.symm,
      noCalls.trans called.symm, stop.trans (((streamStop_eq_iff c pieces usageOnly).mpr kept).trans reason.symm)⟩

/-! A greeting in two chunks and its end in one of its own, a text that ends in its last chunk, and a tool call. -/

def greeting : Completed := ⟨some "hello", [], some "stop"⟩

def greetingPieces : List Piece :=
  [⟨some "hel", [], none, none⟩, ⟨some "lo", [], none, none⟩, ⟨none, [], some "stop", none⟩]

theorem greeting_cut : CutsInto greeting greetingPieces :=
  ⟨by decide, ⟨by decide, by simp [greeting]⟩, by decide, by decide⟩

theorem streamed_greeting_alike :
    ReadAlike (fun _ => none) (fun _ => "") ⟨fun _ => "", fun _ => ""⟩ "s" (completionValue "c" "gpt" none greeting)
      (streamEvents greetingPieces (some ⟨9, 2⟩)) :=
  (streamed_completion_alike_iff _ _ _ _ _ _ _ _ greeting greetingPieces greeting_cut).mpr ⟨rfl, rfl⟩

def shortened : Completed := ⟨some "hello", [], some "length"⟩

def shortenedPieces : List Piece := [⟨some "hel", [], none, none⟩, ⟨some "lo", [], some "length", none⟩]

def statusCall : Completed := ⟨none, [⟨"t1", "compute.host.status", "\x7b\x7d"⟩], some "tool_calls"⟩

def statusCallPieces : List Piece :=
  [⟨none, [⟨0, some "t1", some "compute.host.status", ""⟩], none, none⟩, ⟨none, [⟨0, none, none, "\x7b\x7d"⟩], none, none⟩,
   ⟨none, [], some "tool_calls", none⟩]

/-- The finish reason is lost behind text and behind the usage, and a tool call is lost in every stream. -/
theorem streamed_completions_unlike :
    (CutsInto shortened shortenedPieces ∧ ∀ usageOnly,
      ¬ReadAlike (fun _ => none) (fun _ => "") ⟨fun _ => "", fun _ => ""⟩ "s" (completionValue "c" "gpt" none shortened)
        (streamEvents shortenedPieces usageOnly)) ∧
      CutsInto statusCall statusCallPieces ∧ ∀ usageOnly,
        ¬ReadAlike (fun _ => some (.object [])) (fun _ => "") ⟨fun _ => "", fun _ => ""⟩ "s"
          (completionValue "c" "gpt" none statusCall) (streamEvents statusCallPieces usageOnly) := by
  have shortenedCut : CutsInto shortened shortenedPieces :=
    ⟨by decide, ⟨by decide, by simp [shortened]⟩, by decide, by decide⟩
  have statusCut : CutsInto statusCall statusCallPieces := by
    refine ⟨by decide, ⟨by decide, ?_⟩, by decide, by decide⟩
    intro i call found
    cases i with
    | zero =>
        obtain rfl : (⟨"t1", "compute.host.status", "\x7b\x7d"⟩ : ChoiceToolCall) = call := by
          simpa [statusCall] using found
        decide
    | succ i => simp [statusCall] at found
  refine ⟨⟨shortenedCut, fun usageOnly alike => ?_⟩, statusCut, fun usageOnly alike => ?_⟩
  · have kept := alike.keepsStop shortenedCut
    cases usageOnly with
    | none => simp [KeepsStop, EndsBare, shortened, shortenedPieces] at kept
    | some u => simp [KeepsStop, shortened] at kept
  · exact absurd (alike.toolCalls_eq_nil statusCut) (by decide)

end Daimon.Proof.Llm
