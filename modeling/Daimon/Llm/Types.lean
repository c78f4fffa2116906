import Daimon.App.Chat

/-!
# Answers of the LLM providers

What `daimon-llm/src/types.rs` has for an answer that is not streamed, the events of a streamed one, and how `serde`
decodes the numbers, defaults and tags of the wire types of both providers.
-/

namespace Daimon.Llm
open Daimon.App.Chat Lib
open Daimon.Driver.NetworkResponse (structFields decodeOptional)

inductive AssistantContent where
  | text (text : String)
  | toolUse (id name : String) (input : Json)
  deriving DecidableEq

structure CompletionResponse where
  id : String
  model : String
  content : List AssistantContent
  stopReason : StopReason
  usage : Usage
  deriving DecidableEq

namespace CompletionResponse

def text (response : CompletionResponse) : String :=
  String.join (response.content.map fun
    | .text text => text
    | .toolUse _ _ _ => "")

def toolCalls (response : CompletionResponse) : List ToolCall :=
  response.content.filterMap fun
    | .text _ => none
    | .toolUse id name input => some ⟨id, name, input⟩

end CompletionResponse

/-- The data of a server-sent event: the text `[DONE]`, a JSON text, given by its value, or another text. -/
inductive SseData where
  | done
  | value (v : Json)
  | malformed
  deriving DecidableEq

structure SseEvent where
  event : String
  data : SseData
  deriving DecidableEq

/-- What `serde` and the SSE reader say of data and of bytes that they cannot read. -/
structure ErrorTexts where
  decode : SseData → String
  sse : String → String

inductive Error where
  | decode (message : String)
  | stream (message : String)
  deriving DecidableEq, Repr

def Error.display : Error → String
  | .decode message => "decode response: " ++ message
  | .stream message => "stream error: " ++ message

/-- `serde_json::from_str` at a type with the given decoder. -/
def SseData.fromStr {α : Type} (texts : ErrorTexts) (what : String) (decode : Json → Option α) (data : SseData) :
    Except Error α :=
  match data with
  | .value v =>
      match decode v with
      | some a => .ok a
      | none => .error (.decode (what ++ ": " ++ texts.decode data))
  | _ => .error (.decode (what ++ ": " ++ texts.decode data))

/-- The stream of deltas: events mapped one by one, those without a delta left out. -/
def mapEvents (texts : ErrorTexts) (delta : SseEvent → Except Error (Option ContentDelta))
    (items : List (Except String SseEvent)) : LlmStream :=
  items.filterMap fun
    | .error e => some (.error (Error.stream ("sse: " ++ texts.sse e)).display)
    | .ok event =>
        match delta event with
        | .ok (some d) => some (.ok d)
        | .ok none => none
        | .error e => some (.error e.display)

/-! ## Decoding -/

def decodeU32 : Json → Option UInt32
  | .number (.posInt n) => if n.toNat < 0x100000000 then some n.toUInt32 else none
  | _ => none

/-- A field with a default that is no option: `null` is not taken for absent. -/
def decodeDefault {α : Type} (decode : Json → Option α) (default : α) : Option Json → Option α
  | none => some default
  | some value => decode value

def decodeVec {α : Type} (decode : Json → Option α) : Json → Option (List α)
  | .array items => items.mapM decode
  | _ => none

/-- The tag of an internally tagged enum, and what its variant is decoded from. -/
def decodeTag : Json → Option (String × Json)
  | .object fields => ((fields.lookup "type").bind Json.asStr?).map (·, .object fields)
  | .array (.string tag :: rest) => some (tag, .array rest)
  | _ => none

end Daimon.Llm
