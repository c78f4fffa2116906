import Daimon.Llm.Types

/-!
# The OpenAI client

The chat completions of `daimon-llm/src/openai.rs`, whole and streamed. The wire types of the two differ: a chunk of a
stream is decoded without its tool calls, and gives at most one delta.
-/

namespace Daimon.Llm.OpenAi
open Daimon.App.Chat Lib
open Daimon.Driver.NetworkResponse (structFields decodeOptional)

structure ChatUsage where
  promptTokens : UInt32
  completionTokens : UInt32
  deriving DecidableEq

def ChatUsage.fromValue (value : Json) : Option ChatUsage :=
  match structFields ["prompt_tokens", "completion_tokens"] value with
  | some [prompt, completion] => do
      let promptTokens ← decodeDefault decodeU32 0 prompt
      let completionTokens ← decodeDefault decodeU32 0 completion
      return { promptTokens, completionTokens }
  | _ => none

def ChatUsage.usage (u : ChatUsage) : Usage := ⟨u.promptTokens, u.completionTokens⟩

def parseStopReason : Option String → StopReason
  | some "stop" => .endTurn
  | some "length" => .maxTokens
  | some "tool_calls" => .toolUse
  | _ => .error

/-! ## The whole completion -/

/-- A call of the message, with the text of its arguments. -/
structure ChoiceToolCall where
  id : String
  name : String
  arguments : String
  deriving DecidableEq, Repr

namespace ChoiceToolCall

def decodeFunction (value : Json) : Option (String × String) :=
  match structFields ["name", "arguments"] value with
  | some [name, arguments] => do
      let name ← name.bind Json.asStr?
      let arguments ← arguments.bind Json.asStr?
      return (name, arguments)
  | _ => none

def fromValue (value : Json) : Option ChoiceToolCall :=
  match structFields ["id", "function"] value with
  | some [id, function] => do
      let id ← id.bind Json.asStr?
      let (name, arguments) ← function.bind decodeFunction
      return { id, name, arguments }
  | _ => none

end ChoiceToolCall

structure ChatChoiceMessage where
  content : Option String
  toolCalls : List ChoiceToolCall
  deriving DecidableEq, Repr

def ChatChoiceMessage.fromValue (value : Json) : Option ChatChoiceMessage :=
  match structFields ["content", "tool_calls"] value with
  | some [content, toolCalls] => do
      let content ← decodeOptional Json.asStr? content
      let toolCalls ← decodeDefault (decodeVec ChoiceToolCall.fromValue) [] toolCalls
      return { content, toolCalls }
  | _ => none

structure ChatChoice where
  message : ChatChoiceMessage
  finishReason : Option String
  deriving DecidableEq, Repr

def ChatChoice.fromValue (value : Json) : Option ChatChoice :=
  match structFields ["message", "finish_reason"] value with
  | some [message, finishReason] => do
      let message ← message.bind ChatChoiceMessage.fromValue
      let finishReason ← decodeOptional Json.asStr? finishReason
      return { message, finishReason }
  | _ => none

structure ChatCompletion where
  id : String
  model : String
  choices : List ChatChoice
  usage : Option ChatUsage
  deriving DecidableEq

namespace ChatCompletion

def fromValue (value : Json) : Option ChatCompletion :=
  match structFields ["id", "model", "choices", "usage"] value with
  | some [id, model, choices, usage] => do
      let id ← id.bind Json.asStr?
      let model ← model.bind Json.asStr?
      let choices ← choices.bind (decodeVec ChatChoice.fromValue)
      let usage ← decodeOptional ChatUsage.fromValue usage
      return { id, model, choices, usage }
  | _ => none

/-- The content for the calls of a message, where `parseInput` reads the arguments. -/
def toolContent (parseInput : String → Option Json) (argsError : String → String) :
    List ChoiceToolCall → Except Error (List AssistantContent)
  | [] => .ok []
  | call :: rest =>
      match parseInput call.arguments with
      | none => .error (.decode ("openai tool args: " ++ argsError call.arguments))
      | some input => (toolContent parseInput argsError rest).map (.toolUse call.id call.name input :: ·)

def intoCompletionResponse (parseInput : String → Option Json) (argsError : String → String)
    (completion : ChatCompletion) : Except Error CompletionResponse :=
  match completion.choices with
  | [] => .error (.decode "openai: no choices in response")
  | choice :: _ => do
      let text := ((choice.message.content.filter (· ≠ "")).map AssistantContent.text).toList
      let tools ← toolContent parseInput argsError choice.message.toolCalls
      return {
        id := completion.id
        model := completion.model
        content := text ++ tools
        stopReason := parseStopReason choice.finishReason
        usage := (completion.usage.map ChatUsage.usage).getD ⟨0, 0⟩ }

end ChatCompletion

/-! ## The chunks of a stream -/

structure StreamChoice where
  content : Option String
  finishReason : Option String
  deriving DecidableEq, Repr

namespace StreamChoice

/-- `StreamDelta`: its one field. -/
def decodeDelta (value : Json) : Option (Option String) :=
  match structFields ["content"] value with
  | some [content] => decodeOptional Json.asStr? content
  | _ => none

def fromValue (value : Json) : Option StreamChoice :=
  match structFields ["delta", "finish_reason"] value with
  | some [delta, finishReason] => do
      let content ← delta.bind decodeDelta
      let finishReason ← decodeOptional Json.asStr? finishReason
      return { content, finishReason }
  | _ => none

end StreamChoice

structure StreamChunk where
  choices : List StreamChoice
  usage : Option ChatUsage
  deriving DecidableEq

namespace StreamChunk

def fromValue (value : Json) : Option StreamChunk :=
  match structFields ["choices", "usage"] value with
  | some [choices, usage] => do
      let choices ← choices.bind (decodeVec StreamChoice.fromValue)
      let usage ← decodeOptional ChatUsage.fromValue usage
      return { choices, usage }
  | _ => none

/-- The text of a chunk comes before its finish reason, which is then dropped. -/
def intoDelta (chunk : StreamChunk) : Option ContentDelta :=
  match chunk.choices with
  | [] => chunk.usage.map fun u => .messageStop .endTurn u.usage
  | c :: _ =>
      match c.content.filter (· ≠ "") with
      | some text => some (.textDelta text)
      | none => c.finishReason.map fun reason =>
          .messageStop (parseStopReason (some reason)) ((chunk.usage.map ChatUsage.usage).getD ⟨0, 0⟩)

end StreamChunk

def eventDelta (texts : ErrorTexts) (event : SseEvent) : Except Error (Option ContentDelta) :=
  match event.data with
  | .done => .ok none
  | data => (data.fromStr texts "chat stream chunk" StreamChunk.fromValue).map StreamChunk.intoDelta

def completeStream (texts : ErrorTexts) (items : List (Except String SseEvent)) : LlmStream :=
  mapEvents texts (eventDelta texts) items

end Daimon.Llm.OpenAi
