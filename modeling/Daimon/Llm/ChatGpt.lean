import Daimon.App.Tools
import Daimon.Llm.Types

/-!
# The ChatGPT client

`daimon-llm/src/chatgpt.rs`: the body of a request, the events of the answer and the fold that makes one response of
them. How a session's tokens are refreshed is in `Llm.TokenRefresh`.
-/

namespace Daimon.Llm.ChatGpt
open Daimon.App.Chat (ChatMessage ContentDelta LlmStream Role StopReason ToolCall ToolDefinition Usage)
open Lib

/-- The fields of a `CompletionRequest` that this client reads. -/
structure CompletionRequest where
  model : String
  messages : List ChatMessage
  system : Option String
  tools : List ToolDefinition
  deriving DecidableEq

/-- The model and the effort of a client; the file with its tokens is left out. -/
structure ChatGptOAuthClient where
  defaultModel : String
  effort : String
  deriving DecidableEq, Repr

def sanitizeToolName (name : String) : String :=
  String.ofList (name.toList.map fun c => if c.isAlphanum || c == '-' || c == '_' then c else '_')

/-! ## The request

The fields of an object stand in the order of their keys. -/

section Body
variable (text : Json → String)

def messageItem (role kind content : String) : Json :=
  .object [("content", .array [.object [("text", .string content), ("type", .string kind)]]), ("role", .string role),
    ("type", .string "message")]

def callItem (tc : ToolCall) : Json :=
  .object [("arguments", .string (text tc.arguments)), ("call_id", .string tc.id),
    ("name", .string (sanitizeToolName tc.name)), ("type", .string "function_call")]

def inputItems (m : ChatMessage) : List Json :=
  match m.role with
  | .user | .system => [messageItem "user" "input_text" m.content]
  | .assistant =>
      (if m.content = "" then [] else [messageItem "assistant" "output_text" m.content]) ++
        m.toolCalls.map (callItem text)
  | .tool =>
      [.object [("call_id", .string (m.toolUseId.getD "")), ("output", .string m.content),
        ("type", .string "function_call_output")]]

def toolItem (t : ToolDefinition) : Json :=
  .object [("description", .string t.description), ("name", .string (sanitizeToolName t.name)),
    ("parameters", t.inputSchema), ("type", .string "function")]

namespace ChatGptOAuthClient

def modelOf (client : ChatGptOAuthClient) (req : CompletionRequest) : String :=
  if req.model = "" then client.defaultModel else req.model

def buildBody (client : ChatGptOAuthClient) (req : CompletionRequest) (stream : Bool) : Json :=
  .object (
    [("input", .array (req.messages.flatMap (inputItems text)))] ++
    (req.system.map fun sys => ("instructions", Json.string sys)).toList ++
    [("model", .string (client.modelOf req)), ("parallel_tool_calls", .bool false),
      ("reasoning", .object [("effort", .string client.effort)]), ("store", .bool false), ("stream", .bool stream)] ++
    if req.tools = [] then []
    else [("tool_choice", .string "auto"), ("tools", .array (req.tools.map toolItem))])

end ChatGptOAuthClient
end Body

/-! ## The events of the answer -/

/-- The data of an event: blank, the text `[DONE]`, a JSON text, given by its value, or a text that `serde` rejects. -/
inductive EventData where
  | blank
  | done
  | value (v : Json)
  | malformed (error : String)
  deriving DecidableEq

/-- A field as `v["key"]` reads it. -/
def index (key : String) (v : Json) : Json := (v.get? key).getD .null

def strField (key : String) (v : Json) : Option String := (v.get? key).bind Json.asStr?

def callId (item : Json) : String := ((strField "call_id" item).or (strField "id" item)).getD ""

/-- The map from sent names to names. Of several tools with one sent name the last stands. -/
def nameMap (tools : List ToolDefinition) (raw : String) : Option String :=
  (tools.map fun t => (sanitizeToolName t.name, t.name)).reverse.lookup raw

def isFunctionCall (item : Json) : Bool := strField "type" item == some "function_call"

/-- `as u32`. -/
def tokenCount (key : String) (usage : Json) : UInt32 := (((usage.get? key).bind Json.asU64?).getD 0).toUInt32

def completedDelta (response : Json) : ContentDelta :=
  let sawTool := match response.get? "output" with
    | some (.array items) => items.any isFunctionCall
    | _ => false
  let usage := index "usage" response
  .messageStop (if sawTool then .toolUse else .endTurn)
    ⟨tokenCount "input_tokens" usage, tokenCount "output_tokens" usage⟩

def failureMessage (v : Json) : String :=
  let message (error : Json) := strField "message" error
  ((message (index "error" (index "response" v))).or ((message (index "error" v)).or (message v))).getD
    "responses stream failed"

def valueDeltas (names : String → Option String) (v : Json) : List (Except Error ContentDelta) :=
  match (strField "type" v).getD "" with
  | "response.output_text.delta" => [.ok (.textDelta ((strField "delta" v).getD ""))]
  | "response.output_item.added" =>
      let item := index "item" v
      if isFunctionCall item then
        let raw := (strField "name" item).getD ""
        [.ok (.toolUseStart (callId item) ((names raw).getD raw))]
      else []
  | "response.function_call_arguments.delta" => [.ok (.toolUseInputDelta ((strField "delta" v).getD ""))]
  | "response.output_item.done" =>
      let item := index "item" v
      if isFunctionCall item then [.ok (.toolUseStop (callId item))] else []
  | "response.completed" => [.ok (completedDelta (index "response" v))]
  | "response.failed" | "response.incomplete" | "error" => [.error (.stream (failureMessage v))]
  | _ => []

def parseEvent (data : EventData) (names : String → Option String) : List (Except Error ContentDelta) :=
  match data with
  | .blank | .done => []
  | .malformed e => [.error (.decode ("responses event: " ++ e))]
  | .value v => valueDeltas names v

/-- What `complete_stream` makes of the events of a successful answer; an item is the data of an event or an error. -/
def completeStream (req : CompletionRequest) (items : List (Except String EventData)) : LlmStream :=
  items.flatMap fun item =>
    let deltas := match item with
      | .ok data => parseEvent data (nameMap req.tools)
      | .error e => [.error (.stream ("sse: " ++ e))]
    deltas.map fun
      | .ok delta => .ok delta
      | .error e => .error e.display

/-! ## One response -/

structure Fold where
  text : String
  tool : Option (String × String × String)
  tools : List AssistantContent
  stop : StopReason
  usage : Usage
  deriving DecidableEq

namespace Fold

def empty : Fold := ⟨"", none, [], .endTurn, ⟨0, 0⟩⟩

variable (parseInput : String → Option Json)

def delta (fold : Fold) : ContentDelta → Fold
  | .textDelta t => { fold with text := fold.text ++ t }
  | .toolUseStart id name => { fold with tool := some (id, name, "") }
  | .toolUseInputDelta partialJson =>
      { fold with tool := fold.tool.map fun (id, name, args) => (id, name, args ++ partialJson) }
  | .toolUseStop _ =>
      match fold.tool with
      | none => fold
      | some (id, name, args) =>
          { fold with tool := none, tools := fold.tools ++ [.toolUse id name ((parseInput args).getD (.object []))] }
  | .messageStop stopReason usage => { fold with stop := stopReason, usage := usage }

/-- The fold at the end of a stream, or the first error. -/
def read (fold : Fold) : LlmStream → Except String Fold
  | [] => .ok fold
  | .error e :: _ => .error e
  | .ok d :: rest => read (fold.delta parseInput d) rest

end Fold

/-- `complete`, given what `complete_stream` returns to it. -/
def ChatGptOAuthClient.complete (client : ChatGptOAuthClient) (parseInput : String → Option Json)
    (req : CompletionRequest) (stream : Except String LlmStream) : Except String CompletionResponse := do
  let items ← stream
  let fold ← Fold.empty.read parseInput items
  return {
    id := ""
    model := client.modelOf req
    content := (if fold.text = "" then [] else [.text fold.text]) ++ fold.tools
    stopReason := fold.stop
    usage := fold.usage }

end Daimon.Llm.ChatGpt
