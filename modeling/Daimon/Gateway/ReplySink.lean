import Daimon.Lib.Json
import Daimon.Lib.Text

/-!
# Reply sinks

`TurnEvent` and the `BufferSink` of `daimon-gateway/src/reply_sink.rs`. A sink is driven by a list of calls; the failure
of a send is only logged, so a channel is the list of the texts that were posted to it.
-/

namespace Daimon.Gateway
open Daimon.Lib

inductive TurnEvent where
  | tokenDelta (sessionId content : String)
  | toolUse (sessionId tool : String) (params : Json)
  | toolResult (sessionId tool output : String) (isError : Bool)
  | done (sessionId stopReason : String) (inputTokens outputTokens : UInt32)
  | error (message : String)
  deriving DecidableEq

inductive SinkCall where
  | emit (event : TurnEvent)
  | finish
  deriving DecidableEq

structure BufferSink where
  buf : String
  hadError : Bool
  /-- What the channel was given to send. -/
  sent : List String
  deriving DecidableEq, Repr

namespace BufferSink

def new : BufferSink := ⟨"", false, []⟩

def notice (message : String) : String := "\u26a0\ufe0f " ++ message

def emit (sink : BufferSink) : TurnEvent → BufferSink
  | .tokenDelta _ content => { sink with buf := sink.buf ++ content }
  | .error message =>
      let buf := if sink.buf = "" then sink.buf else sink.buf ++ "\n"
      { sink with hadError := true, buf := buf ++ notice message }
  | .toolUse .. | .toolResult .. | .done .. => sink

def finish (sink : BufferSink) : BufferSink :=
  let text := sink.buf
  let sink := { sink with buf := "" }
  if trim text = "" then
    if sink.hadError then sink else { sink with sent := sink.sent ++ ["(no reply)"] }
  else { sink with sent := sink.sent ++ [text] }

def call (sink : BufferSink) : SinkCall → BufferSink
  | .emit event => sink.emit event
  | .finish => sink.finish

def run (sink : BufferSink) (calls : List SinkCall) : BufferSink := calls.foldl call sink

end BufferSink
end Daimon.Gateway
