import Daimon.Llm.ChatGpt

/-!
# Requests to the LLM providers

The bodies that the clients of `openai.rs`, `anthropic.rs` and `local.rs` in `daimon-llm` post for one request. The body
for ChatGPT is in `Llm.ChatGpt`. The fields of an object stand in the order of their keys.
-/

namespace Daimon.Llm.Requests
open Daimon.App.Chat (ChatMessage Role ToolCall ToolDefinition toolDefinitions)
open Daimon.Core (Capability)
open Lib

/-- With the fields that ChatGPT's client leaves unread. A temperature is the number that `json!` makes of it. -/
structure CompletionRequest extends ChatGpt.CompletionRequest where
  maxTokens : UInt32
  temperature : Option Json
  deriving DecidableEq

namespace CompletionRequest

/-- As `complete` and `complete_stream` of every client begin. -/
def withDefault (defaultModel : String) (req : CompletionRequest) : CompletionRequest :=
  if req.model = "" then { req with model := defaultModel } else req

/-- The request of a chat turn in `daimon-app/src/chat.rs`, with the catalog. The temperature is the `f32` for 0.2. -/
def ofTurn (capabilities : List Capability) (req : Daimon.App.Chat.CompletionRequest) : CompletionRequest where
  model := req.model
  messages := req.messages
  system := some req.system
  tools := toolDefinitions capabilities
  maxTokens := UInt32.ofNat req.maxTokens
  temperature := some (.number (.float (mkRat 13421773 67108864)))

def maxTokensJson (req : CompletionRequest) : Json := .number (.posInt req.maxTokens.toUInt64)

def temperatureField (req : CompletionRequest) : List (String × Json) :=
  (req.temperature.map ("temperature", ·)).toList

def toolsField (toolItem : ToolDefinition → Json) (req : CompletionRequest) : List (String × Json) :=
  if req.tools = [] then [] else [("tools", .array (req.tools.map toolItem))]

end CompletionRequest

def plainMessage (role content : String) : Json := .object [("content", .string content), ("role", .string role)]

/-! ## OpenAI -/

namespace OpenAi

section Text
variable (text : Json → String)

def callItem (tc : ToolCall) : Json :=
  .object [("function", .object [("arguments", .string (text tc.arguments)), ("name", .string tc.name)]),
    ("id", .string tc.id), ("type", .string "function")]

def mapMessage (m : ChatMessage) : Json :=
  match m.role with
  | .system => plainMessage "system" m.content
  | .user => plainMessage "user" m.content
  | .assistant =>
      if m.toolCalls = [] then plainMessage "assistant" m.content
      else .object ((if m.content = "" then [] else [("content", .string m.content)]) ++
        [("role", .string "assistant"), ("tool_calls", .array (m.toolCalls.map (callItem text)))])
  | .tool =>
      .object [("content", .string m.content), ("role", .string "tool"),
        ("tool_call_id", .string (m.toolUseId.getD ""))]

def toolItem (t : ToolDefinition) : Json :=
  .object [("function", .object [("description", .string t.description), ("name", .string t.name),
    ("parameters", t.inputSchema)]), ("type", .string "function")]

def buildRequestBody (req : CompletionRequest) (stream : Bool) : Json :=
  .object (
    [("max_tokens", req.maxTokensJson),
      ("messages", .array ((req.system.map (plainMessage "system")).toList ++ req.messages.map (mapMessage text))),
      ("model", .string req.model), ("stream", .bool stream)] ++
    (if stream then [("stream_options", .object [("include_usage", .bool true)])] else []) ++
    req.temperatureField ++ req.toolsField toolItem)

end Text
end OpenAi

/-! ## Anthropic -/

namespace Anthropic

def textBlock (content : String) : Json := .object [("text", .string content), ("type", .string "text")]

def callBlock (tc : ToolCall) : Json :=
  .object [("id", .string tc.id), ("input", tc.arguments), ("name", .string tc.name), ("type", .string "tool_use")]

def resultBlock (id content : String) : Json :=
  .object [("content", .string content), ("tool_use_id", .string id), ("type", .string "tool_result")]

def blocksMessage (role : String) (blocks : List Json) : Json :=
  .object [("content", .array blocks), ("role", .string role)]

/-- A system message is left out: Anthropic's system prompt is no message. -/
def mapMessage (m : ChatMessage) : Option Json :=
  match m.role with
  | .system => none
  | .user => some (plainMessage "user" m.content)
  | .assistant =>
      if m.toolCalls = [] then some (plainMessage "assistant" m.content)
      else some (blocksMessage "assistant"
        ((if m.content = "" then [] else [textBlock m.content]) ++ m.toolCalls.map callBlock))
  | .tool => some (blocksMessage "user" [resultBlock (m.toolUseId.getD "") m.content])

def mapMessages (messages : List ChatMessage) : List Json := messages.filterMap mapMessage

def toolItem (t : ToolDefinition) : Json :=
  .object [("description", .string t.description), ("input_schema", t.inputSchema), ("name", .string t.name)]

def buildRequestBody (req : CompletionRequest) (stream : Bool) : Json :=
  .object (
    [("max_tokens", req.maxTokensJson), ("messages", .array (mapMessages req.messages)), ("model", .string req.model),
      ("stream", .bool stream)] ++
    (req.system.map fun sys => ("system", Json.string sys)).toList ++
    req.temperatureField ++ req.toolsField toolItem)

end Anthropic

/-! ## Ollama -/

namespace LocalClient

def roleName : Role → String
  | .system => "system"
  | .user => "user"
  | .assistant => "assistant"
  | .tool => "tool"

def buildRequestBody (req : CompletionRequest) (stream : Bool) : Json :=
  .object [
    ("messages", .array ((req.system.map (plainMessage "system")).toList ++
      req.messages.map fun m => plainMessage (roleName m.role) m.content)),
    ("model", .string req.model),
    ("options", .object (("num_predict", req.maxTokensJson) :: req.temperatureField)),
    ("stream", .bool stream)]

end LocalClient
end Daimon.Llm.Requests
