import Daimon.App.Chat

/-!
# The chat in the browser

What a `WsSink` puts on the socket (`daimon-app/src/ws.rs`), and the `ChatBubble` that shows it
(`daimon-app/src/components/chat_bubble.rs`): its turns, its sessions and its handlers. The socket delivers in order.
-/

namespace Daimon.App.ChatBubble
open Daimon.Core Lib
open Daimon.Gateway (TurnEvent)
open Daimon.App.Chat (Effect)

/-! ## The socket -/

inductive WsScope where
  | placeholder
  deriving DecidableEq, Repr

inductive WsServerMsg where
  | snapshot (scope : WsScope) (data : Json)
  | update (scope : WsScope) (data : Json)
  | pong
  | error (message : String)
  | agentTokenDelta (agentId sessionId contentDelta : String)
  | agentToolUse (agentId sessionId tool : String) (params : Json)
  | agentToolResult (agentId sessionId tool output : String) (isError : Bool)
  | agentDone (agentId sessionId stopReason : String) (inputTokens outputTokens : UInt32)
  deriving DecidableEq

/-- `WsSink::emit`. -/
def sinkMsg : TurnEvent → WsServerMsg
  | .tokenDelta sessionId content => .agentTokenDelta "chat" sessionId content
  | .toolUse sessionId tool params => .agentToolUse "chat" sessionId tool params
  | .toolResult sessionId tool output isError => .agentToolResult "chat" sessionId tool output isError
  | .done sessionId stopReason inputTokens outputTokens =>
      .agentDone "chat" sessionId stopReason inputTokens outputTokens
  | .error message => .error message

def WsScope.toValue : WsScope → Json
  | .placeholder => Json.ofFields [("kind", .string "Placeholder")]

def jsonU32 (n : UInt32) : Json := .number (.posInt n.toUInt64)

namespace WsServerMsg

def toValue : WsServerMsg → Json
  | .snapshot scope data => Json.ofFields [("type", .string "Snapshot"), ("scope", scope.toValue), ("data", data)]
  | .update scope data => Json.ofFields [("type", .string "Update"), ("scope", scope.toValue), ("data", data)]
  | .pong => Json.ofFields [("type", .string "Pong")]
  | .error message => Json.ofFields [("type", .string "Error"), ("message", .string message)]
  | .agentTokenDelta agentId sessionId contentDelta => Json.ofFields [("type", .string "AgentTokenDelta"),
      ("agent_id", .string agentId), ("session_id", .string sessionId), ("content_delta", .string contentDelta)]
  | .agentToolUse agentId sessionId tool params => Json.ofFields [("type", .string "AgentToolUse"),
      ("agent_id", .string agentId), ("session_id", .string sessionId), ("tool", .string tool), ("params", params)]
  | .agentToolResult agentId sessionId tool output isError => Json.ofFields [("type", .string "AgentToolResult"),
      ("agent_id", .string agentId), ("session_id", .string sessionId), ("tool", .string tool),
      ("output", .string output), ("is_error", .bool isError)]
  | .agentDone agentId sessionId stopReason inputTokens outputTokens => Json.ofFields [("type", .string "AgentDone"),
      ("agent_id", .string agentId), ("session_id", .string sessionId), ("stop_reason", .string stopReason),
      ("input_tokens", jsonU32 inputTokens), ("output_tokens", jsonU32 outputTokens)]

end WsServerMsg

inductive IncomingMsg where
  | agentTokenDelta (agentId sessionId contentDelta : String)
  | agentToolUse (agentId sessionId tool : String) (params : Json)
  | agentToolResult (agentId sessionId tool output : String) (isError : Bool)
  | agentDone (agentId sessionId stopReason : String) (inputTokens outputTokens : UInt32)
  | error (message : String)
  | other
  deriving DecidableEq

namespace IncomingMsg

def decodeU32 (value : Json) : Option UInt32 :=
  value.asU64?.bind fun n => if n.toNat < 0x100000000 then some n.toUInt32 else none

/-- A message of no known tag is `Other`. -/
def fromValue (value : Json) : Option IncomingMsg := do
  let text (key : String) : Option String := (value.get? key).bind Json.asStr?
  match ← text "type" with
  | "AgentTokenDelta" => return .agentTokenDelta (← text "agent_id") (← text "session_id") (← text "content_delta")
  | "AgentToolUse" =>
      return .agentToolUse (← text "agent_id") (← text "session_id") (← text "tool") (← value.get? "params")
  | "AgentToolResult" =>
      let isError ← (value.get? "is_error").bind Json.asBool?
      return .agentToolResult (← text "agent_id") (← text "session_id") (← text "tool") (← text "output") isError
  | "AgentDone" =>
      let inputTokens ← (value.get? "input_tokens").bind decodeU32
      let outputTokens ← (value.get? "output_tokens").bind decodeU32
      return .agentDone (← text "agent_id") (← text "session_id") (← text "stop_reason") inputTokens outputTokens
  | "Error" => return .error (← text "message")
  | _ => return .other

end IncomingMsg

/-! ## The bubble -/

inductive TurnKind where
  | user
  | assistant
  | tool
  | system
  deriving DecidableEq, Repr

structure Turn where
  kind : TurnKind
  content : String
  deriving DecidableEq, Repr

structure SessionMeta where
  id : String
  title : String
  createdAt : Int
  deriving DecidableEq, Repr

/-- The signals of the component that its handlers read or set. -/
structure Bubble where
  turns : List Turn
  busy : Bool
  status : String
  sessions : List SessionMeta
  current : String
  deriving DecidableEq, Repr

/-- `&output[..n]`, which panics inside a character. -/
def cutBytes : Nat → List Char → Option (List Char)
  | 0, _ => some []
  | _, [] => none
  | n, c :: rest => if c.utf8Size ≤ n then (cutBytes (n - c.utf8Size) rest).map (c :: ·) else none

def toolBody (output : String) : Option String :=
  if 1200 < output.utf8ByteSize then (cutBytes 1200 output.toList).map fun cut => String.ofList cut ++ "…"
  else some output

def truncateTitle (s : String) : String :=
  let cleaned := String.ofList ((((lines s).head?).getD []).take 48)
  if cleaned = "" then "New chat" else cleaned

namespace Bubble
variable (display : Json → String)

def push (b : Bubble) (kind : TurnKind) (content : String) : Bubble :=
  { b with turns := b.turns ++ [⟨kind, content⟩] }

/-- A delta goes to the last turn if it is the assistant's. -/
def pushDelta (b : Bubble) (delta : String) : Bubble :=
  match b.turns.getLast? with
  | some ⟨.assistant, content⟩ => { b with turns := b.turns.dropLast ++ [⟨.assistant, content ++ delta⟩] }
  | _ => b.push .assistant delta

/-- The first session of the id, untitled so far, gets the first line that the user sent. -/
def retitle (turns : List Turn) (current : String) : List SessionMeta → List SessionMeta
  | [] => []
  | s :: rest =>
      if s.id = current then
        (if s.title = "New chat" then
          match turns.find? fun t => t.kind = .user with
          | some first => { s with title := truncateTitle first.content }
          | none => s
        else s) :: rest
      else s :: retitle turns current rest

/-- The handler of a message; none where it panics. -/
def onMessage (b : Bubble) : IncomingMsg → Option Bubble
  | .agentTokenDelta _ _ contentDelta => some (b.pushDelta contentDelta)
  | .agentToolUse _ _ tool params => some (b.push .tool ("calling " ++ tool ++ " with " ++ display params))
  | .agentToolResult _ _ tool output isError =>
      (toolBody output).map fun body => b.push .tool ((if isError then "✗" else "✓") ++ " " ++ tool ++ "\n" ++ body)
  | .agentDone _ _ _ inputTokens outputTokens => some { b with
      status := "done · " ++ toString inputTokens ++ " in / " ++ toString outputTokens ++ " out"
      busy := false
      sessions := retitle b.turns b.current b.sessions }
  | .error message => some { b.push .system ("error: " ++ message) with busy := false }
  | .other => some b

/-- What arrives; a text that does not decode is skipped. -/
def receive (b : Bubble) (value : Json) : Option Bubble :=
  match IncomingMsg.fromValue value with
  | some msg => b.onMessage display msg
  | none => some b

/-- The turn of the user, and an empty one for the answer. -/
def sendMessage (b : Bubble) (input : String) : Bubble :=
  let text := trim input
  if text = "" then b else { (b.push .user text).push .assistant "" with busy := true }

inductive Action where
  | sendMessage (input : String)
  | receive (value : Json)

def step (b : Bubble) : Action → Option Bubble
  | .sendMessage input => some (b.sendMessage input)
  | .receive value => b.receive display value

end Bubble

/-- What the socket carries of a turn. -/
def wire : List Effect → List WsServerMsg
  | [] => []
  | .emit event :: effects => sinkMsg event :: wire effects
  | _ :: effects => wire effects

end Daimon.App.ChatBubble
