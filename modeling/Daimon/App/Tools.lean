import Daimon.App.Chat

/-!
# The tools of a chat turn

`tool_definitions` of `daimon-app/src/chat.rs`: the catalog that goes to the LLM with every request, one tool for each
registered capability and the three memory tools.
-/

namespace Daimon.App.Chat
open Daimon.Core Lib

structure ToolDefinition where
  name : String
  description : String
  inputSchema : Json
  deriving DecidableEq

def describedString (description : String) : Json :=
  Json.ofFields [("type", .string "string"), ("description", .string description)]

/-- The schema for a capability that has none of its own. -/
def defaultTargetSchema : Json :=
  Json.ofFields [("type", .string "object"),
    ("properties", Json.ofFields [
      ("target_ref", describedString "Inventory target reference (e.g. 'target://mikrotik-edge')")]),
    ("required", .array [.string "target_ref"])]

def toolDefinition (c : Capability) : ToolDefinition where
  name := c.name
  description := c.description.getD "Capability provided by a registered driver."
  inputSchema := c.schema.getD defaultTargetSchema

def memoryToolDefinitions : List ToolDefinition := [
  { name := "memory.log_decision"
    description := "Record a durable operator DECISION in long-term memory (what was " ++
      "decided, the context, and why). Use for choices worth remembering."
    inputSchema := Json.ofFields [("type", .string "object"),
      ("properties", Json.ofFields [
        ("title", describedString "Short decision title"), ("context", describedString "Situation / background"),
        ("decision", describedString "What was decided"), ("rationale", describedString "Why this choice")]),
      ("required", .array [.string "title", .string "decision"])] },
  { name := "memory.log_incident"
    description := "Record an INCIDENT summary in long-term memory (what happened, its " ++
      "impact, and how it was resolved)."
    inputSchema := Json.ofFields [("type", .string "object"),
      ("properties", Json.ofFields [
        ("title", describedString "Short incident title"), ("impact", describedString "What broke / who was affected"),
        ("resolution", describedString "How it was resolved")]),
      ("required", .array [.string "title", .string "impact"])] },
  { name := "memory.log_lesson"
    description := "Record a LESSON learned in long-term memory — a durable takeaway to " ++
      "apply in future operations."
    inputSchema := Json.ofFields [("type", .string "object"),
      ("properties", Json.ofFields [
        ("title", describedString "Short lesson title"), ("lesson", describedString "The takeaway")]),
      ("required", .array [.string "title", .string "lesson"])] }]

def toolDefinitions (capabilities : List Capability) : List ToolDefinition :=
  capabilities.map toolDefinition ++ memoryToolDefinitions

end Daimon.App.Chat
