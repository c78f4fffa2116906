import Daimon.Llm.Types

/-!
# The Anthropic client

The messages of `daimon-llm/src/anthropic.rs`, whole and streamed. An event of the stream gives at most one delta.
-/

namespace Daimon.Llm.Anthropic
open Daimon.App.Chat Lib
open Daimon.Driver.NetworkResponse (structFields decodeOptional)

inductive RawContentBlock where
  | text (text : String)
  | toolUse (id name : String) (input : Json)
  deriving DecidableEq

def RawContentBlock.fromValue (value : Json) : Option RawContentBlock :=
  match decodeTag value with
  | some ("text", body) =>
      match structFields ["text"] body with
      | some [content] => (content.bind Json.asStr?).map .text
      | _ => none
  | some ("tool_use", body) =>
      match structFields ["id", "name", "input"] body with
      | some [id, name, input] => do
          let id ← id.bind Json.asStr?
          let name ← name.bind Json.asStr?
          let input ← input
          return .toolUse id name input
      | _ => none
  | _ => none

structure RawUsage where
  inputTokens : UInt32
  outputTokens : UInt32
  cacheReadInputTokens : UInt32
  cacheCreationInputTokens : UInt32
  deriving DecidableEq

def RawUsage.fromValue (value : Json) : Option RawUsage :=
  match structFields ["input_tokens", "output_tokens", "cache_read_input_tokens", "cache_creation_input_tokens"] value with
  | some [input, output, cacheRead, cacheCreation] => do
      let inputTokens ← decodeDefault decodeU32 0 input
      let outputTokens ← decodeDefault decodeU32 0 output
      let cacheReadInputTokens ← decodeDefault decodeU32 0 cacheRead
      let cacheCreationInputTokens ← decodeDefault decodeU32 0 cacheCreation
      return { inputTokens, outputTokens, cacheReadInputTokens, cacheCreationInputTokens }
  | _ => none

def RawUsage.usage (u : RawUsage) : Usage := ⟨u.inputTokens, u.outputTokens⟩

def parseStopReason : Option String → StopReason
  | some "end_turn" => .endTurn
  | some "max_tokens" => .maxTokens
  | some "stop_sequence" => .stopSequence
  | some "tool_use" => .toolUse
  | _ => .error

/-! ## The whole message -/

structure RawMessageResponse where
  id : String
  model : String
  content : List RawContentBlock
  stopReason : Option String
  usage : RawUsage
  deriving DecidableEq

namespace RawMessageResponse

def fromValue (value : Json) : Option RawMessageResponse :=
  match structFields ["id", "model", "content", "stop_reason", "usage"] value with
  | some [id, model, content, stopReason, usage] => do
      let id ← id.bind Json.asStr?
      let model ← model.bind Json.asStr?
      let content ← content.bind (decodeVec RawContentBlock.fromValue)
      let stopReason ← decodeOptional Json.asStr? stopReason
      let usage ← usage.bind RawUsage.fromValue
      return { id, model, content, stopReason, usage }
  | _ => none

def intoCompletionResponse (raw : RawMessageResponse) : CompletionResponse where
  id := raw.id
  model := raw.model
  content := raw.content.map fun
    | .text text => .text text
    | .toolUse id name input => .toolUse id name input
  stopReason := parseStopReason raw.stopReason
  usage := raw.usage.usage

end RawMessageResponse

/-! ## The events of a stream -/

structure ContentBlockStartEvent where
  index : UInt32
  contentBlock : RawContentBlock
  deriving DecidableEq

namespace ContentBlockStartEvent

def fromValue (value : Json) : Option ContentBlockStartEvent :=
  match structFields ["index", "content_block"] value with
  | some [index, block] => do
      let index ← index.bind decodeU32
      let contentBlock ← block.bind RawContentBlock.fromValue
      return { index, contentBlock }
  | _ => none

def intoDelta (event : ContentBlockStartEvent) : Option ContentDelta :=
  match event.contentBlock with
  | .text _ => none
  | .toolUse id name _ => some (.toolUseStart id name)

end ContentBlockStartEvent

inductive RawDelta where
  | textDelta (text : String)
  | inputJsonDelta (partialJson : String)
  deriving DecidableEq

def RawDelta.fromValue (value : Json) : Option RawDelta :=
  match decodeTag value with
  | some ("text_delta", body) =>
      match structFields ["text"] body with
      | some [text] => (text.bind Json.asStr?).map .textDelta
      | _ => none
  | some ("input_json_delta", body) =>
      match structFields ["partial_json"] body with
      | some [partialJson] => (partialJson.bind Json.asStr?).map .inputJsonDelta
      | _ => none
  | _ => none

def RawDelta.intoDelta : RawDelta → Option ContentDelta
  | .textDelta text => some (.textDelta text)
  | .inputJsonDelta partialJson => some (.toolUseInputDelta partialJson)

/-- `ContentBlockDeltaEvent`: its one field. -/
def contentBlockDelta (value : Json) : Option RawDelta :=
  match structFields ["delta"] value with
  | some [delta] => delta.bind RawDelta.fromValue
  | _ => none

/-- `ContentBlockStopEvent`: its one field, the index of the block. -/
def contentBlockStop (value : Json) : Option UInt32 :=
  match structFields ["index"] value with
  | some [index] => index.bind decodeU32
  | _ => none

structure MessageDeltaEvent where
  stopReason : Option String
  usage : Option RawUsage
  deriving DecidableEq

namespace MessageDeltaEvent

def decodeDelta (value : Json) : Option (Option String) :=
  match structFields ["stop_reason"] value with
  | some [stopReason] => decodeOptional Json.asStr? stopReason
  | _ => none

def fromValue (value : Json) : Option MessageDeltaEvent :=
  match structFields ["delta", "usage"] value with
  | some [delta, usage] => do
      let stopReason ← delta.bind decodeDelta
      let usage ← decodeOptional RawUsage.fromValue usage
      return { stopReason, usage }
  | _ => none

def intoDelta (event : MessageDeltaEvent) : Option ContentDelta :=
  some (.messageStop (parseStopReason event.stopReason) ((event.usage.map RawUsage.usage).getD ⟨0, 0⟩))

end MessageDeltaEvent

/-- The stop of a block carries no id, and stands behind text blocks as well. -/
def eventDelta (texts : ErrorTexts) (event : SseEvent) : Except Error (Option ContentDelta) :=
  match event.event with
  | "content_block_start" =>
      (event.data.fromStr texts "content_block_start" ContentBlockStartEvent.fromValue).map
        ContentBlockStartEvent.intoDelta
  | "content_block_delta" =>
      (event.data.fromStr texts "content_block_delta" contentBlockDelta).map RawDelta.intoDelta
  | "content_block_stop" =>
      (event.data.fromStr texts "content_block_stop" contentBlockStop).map fun _ => some (.toolUseStop "")
  | "message_delta" =>
      (event.data.fromStr texts "message_delta" MessageDeltaEvent.fromValue).map MessageDeltaEvent.intoDelta
  | _ => .ok none

def completeStream (texts : ErrorTexts) (items : List (Except String SseEvent)) : LlmStream :=
  mapEvents texts (eventDelta texts) items

end Daimon.Llm.Anthropic
