import Daimon.Lib.Text
import Daimon.Llm.Types

/-!
# The local client

The streamed answers of Ollama in `daimon-llm/src/local.rs`: newline-delimited JSON, mapped to deltas one network chunk
at a time.
-/

namespace Daimon.Llm.LocalClient
open Daimon.App.Chat Lib
open Daimon.Driver.NetworkResponse (structFields decodeOptional)

/-- Of the message only its content is read. -/
structure OllamaStreamChunk where
  message : Option String
  done : Bool
  doneReason : Option String
  promptEvalCount : UInt32
  evalCount : UInt32
  deriving DecidableEq, Repr

def parseStopReason : Option String → StopReason
  | some "stop" => .endTurn
  | some "length" => .maxTokens
  | _ => .error

namespace OllamaStreamChunk

def decodeMessage (value : Json) : Option String :=
  match structFields ["content"] value with
  | some [content] => content.bind Json.asStr?
  | _ => none

def fromValue (value : Json) : Option OllamaStreamChunk :=
  match structFields ["message", "done", "done_reason", "prompt_eval_count", "eval_count"] value with
  | some [message, done, doneReason, promptEvalCount, evalCount] => do
      let message ← decodeOptional decodeMessage message
      let done ← done.bind Json.asBool?
      let doneReason ← decodeOptional Json.asStr? doneReason
      let promptEvalCount ← decodeDefault decodeU32 0 promptEvalCount
      let evalCount ← decodeDefault decodeU32 0 evalCount
      return { message, done, doneReason, promptEvalCount, evalCount }
  | _ => none

def intoDelta (chunk : OllamaStreamChunk) : Option ContentDelta :=
  if chunk.done then
    some (.messageStop (parseStopReason chunk.doneReason) ⟨chunk.promptEvalCount, chunk.evalCount⟩)
  else (chunk.message.filter (· ≠ "")).map .textDelta

end OllamaStreamChunk

/-- What the decoders say of bytes that are no UTF-8 and of a line that is no chunk. -/
structure DecodeTexts where
  utf8 : ByteArray → String
  line : List Char → String

def blank (line : List Char) : Bool := line.all isWhitespace

def visibleLines (text : String) : List (List Char) := (text.toList.splitOn '\n').filter fun line => !blank line

section Stream
variable (parse : List Char → Option Json) (texts : DecodeTexts)

/-- `serde_json::from_str` at the type of a line. -/
def fromLine (line : List Char) : Except Error OllamaStreamChunk :=
  match (parse line).bind OllamaStreamChunk.fromValue with
  | some chunk => .ok chunk
  | none => .error (.decode ("ollama line: " ++ texts.line line ++ ": line=`" ++ String.ofList line ++ "`"))

/-- The deltas of the lines in order; the first line that is no chunk takes those before it away. -/
def lineDeltas : List (List Char) → Except Error (List ContentDelta)
  | [] => .ok []
  | line :: rest => do
      let chunk ← fromLine parse texts line
      let deltas ← lineDeltas rest
      return chunk.intoDelta.toList ++ deltas

/-- The deltas of one network chunk. -/
def chunkDeltas : Except String ByteArray → Except Error (List ContentDelta)
  | .error e => .error (.stream ("ollama bytes: " ++ e))
  | .ok bytes =>
      match String.fromUTF8? bytes with
      | none => .error (.decode ("ollama bytes utf8: " ++ texts.utf8 bytes))
      | some text => lineDeltas parse texts (visibleLines text)

def completeStream (chunks : List (Except String ByteArray)) : LlmStream :=
  chunks.flatMap fun chunk =>
    match chunkDeltas parse texts chunk with
    | .ok deltas => deltas.map .ok
    | .error e => [.error e.display]

end Stream

end Daimon.Llm.LocalClient
