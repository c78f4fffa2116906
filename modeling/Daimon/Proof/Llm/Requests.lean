import Daimon.Llm.Requests

/-!
# What a request carries

A request is a conversation: what was said, what was called and what that answered, and the tools on offer. Each
provider reads a conversation from the body that it is sent. OpenAI reads the one that was asked. Anthropic misses the
system messages of the history, and Ollama the tools with their calls and results. ChatGPT reads the tools under other
names.
-/

namespace Daimon.Proof.Requests
open Daimon.App.Chat (ChatMessage Role ToolCall ToolDefinition)
open Daimon.Llm.ChatGpt (ChatGptOAuthClient callItem inputItems messageItem sanitizeToolName strField)
open Daimon.Llm.Requests Lib

/-! ## The conversation of a request -/

inductive Entry where
  | said (role : Role) (text : String)
  | called (call : ToolCall)
  | answered (id text : String)

structure Conversation where
  entries : List Entry
  tools : List ToolDefinition

/-- A blank text says nothing. -/
def said (role : Role) (text : String) : List Entry := if text = "" then [] else [.said role text]

def entries (m : ChatMessage) : List Entry :=
  match m.role with
  | .system => said .system m.content
  | .user => said .user m.content
  | .assistant => said .assistant m.content ++ m.toolCalls.map .called
  | .tool => [.answered (m.toolUseId.getD "") m.content]

def asked (req : CompletionRequest) : Conversation where
  entries := req.system.toList.flatMap (said .system) ++ req.messages.flatMap entries
  tools := req.tools

theorem said_eq {role : Role} {text : String} {e : Entry} (member : e ∈ said role text) :
    e = .said role text ∧ text ≠ "" := by
  unfold said at member
  split_ifs at member with blank
  · cases member
  · exact ⟨List.mem_singleton.mp member, blank⟩

theorem speaker_of_said {m : ChatMessage} {role : Role} {text : String} (member : .said role text ∈ entries m) :
    m.role = role ∧ m.content = text ∧ text ≠ "" := by
  have spoken {speaker : Role} (own : .said role text ∈ said speaker m.content) :
      speaker = role ∧ m.content = text ∧ text ≠ "" := by
    obtain ⟨same, content⟩ := said_eq own
    obtain ⟨rfl, rfl⟩ := Entry.said.inj same
    exact ⟨rfl, rfl, content⟩
  unfold entries at member
  cases speaker : m.role <;> simp only [speaker] at member
  · exact spoken member
  · exact spoken member
  · rcases List.mem_append.mp member with own | call
    · exact spoken own
    · obtain ⟨tc, -, other⟩ := List.mem_map.mp call
      cases other
  · cases List.mem_singleton.mp member

theorem caller_of_called {m : ChatMessage} {tc : ToolCall} (member : .called tc ∈ entries m) :
    m.role = .assistant ∧ tc ∈ m.toolCalls := by
  have silent {role : Role} : Entry.called tc ∉ said role m.content := by
    intro own
    cases (said_eq own).1
  unfold entries at member
  cases speaker : m.role <;> simp only [speaker] at member
  · exact absurd member silent
  · exact absurd member silent
  · rcases List.mem_append.mp member with own | call
    · exact absurd own silent
    · obtain ⟨tc', inside, same⟩ := List.mem_map.mp call
      cases same
      exact ⟨rfl, inside⟩
  · cases List.mem_singleton.mp member

@[simp] theorem asked_withDefault (defaultModel : String) (req : CompletionRequest) :
    asked (req.withDefault defaultModel) = asked req := by
  unfold CompletionRequest.withDefault
  split_ifs <;> rfl

@[simp] theorem messages_withDefault (defaultModel : String) (req : CompletionRequest) :
    (req.withDefault defaultModel).messages = req.messages := by
  unfold CompletionRequest.withDefault
  split_ifs <;> rfl

/-! ## How a provider reads a body -/

def items (key : String) (v : Json) : List Json :=
  match v.get? key with
  | some (.array items) => items
  | _ => []

def content (v : Json) : String := (strField "content" v).getD ""

def readRole : String → Option Role
  | "system" => some .system
  | "user" => some .user
  | "assistant" => some .assistant
  | "tool" => some .tool
  | _ => none

def roleOf (v : Json) : Option Role := (strField "role" v).bind readRole

namespace OpenAi

section Read
variable (parse : String → Option Json)

def readCall (v : Json) : Option Entry := do
  let id ← strField "id" v
  let function ← v.get? "function"
  let name ← strField "name" function
  let arguments ← (strField "arguments" function).bind parse
  return .called ⟨id, name, arguments⟩

def readMessage (v : Json) : List Entry :=
  match roleOf v with
  | some .tool => [.answered ((strField "tool_call_id" v).getD "") (content v)]
  | some role => said role (content v) ++ (items "tool_calls" v).filterMap (readCall parse)
  | none => []

def readTool (v : Json) : Option ToolDefinition := do
  let function ← v.get? "function"
  let name ← strField "name" function
  let description ← strField "description" function
  let inputSchema ← function.get? "parameters"
  return ⟨name, description, inputSchema⟩

def read (body : Json) : Conversation where
  entries := (items "messages" body).flatMap (readMessage parse)
  tools := (items "tools" body).filterMap readTool

end Read
end OpenAi

namespace Anthropic

def readBlock (role : Role) (v : Json) : Option Entry := do
  match ← strField "type" v with
  | "text" => return .said role (← strField "text" v)
  | "tool_use" => return .called ⟨← strField "id" v, ← strField "name" v, ← v.get? "input"⟩
  | "tool_result" => return .answered (← strField "tool_use_id" v) (← strField "content" v)
  | _ => none

def readMessage (v : Json) : List Entry :=
  match roleOf v, v.get? "content" with
  | some role, some (.string text) => said role text
  | some role, some (.array blocks) => blocks.filterMap (readBlock role)
  | _, _ => []

def readTool (v : Json) : Option ToolDefinition := do
  return ⟨← strField "name" v, ← strField "description" v, ← v.get? "input_schema"⟩

def read (body : Json) : Conversation where
  entries := (strField "system" body).toList.flatMap (said .system) ++ (items "messages" body).flatMap readMessage
  tools := (items "tools" body).filterMap readTool

end Anthropic

namespace LocalClient

def readMessage (v : Json) : List Entry := (roleOf v).toList.flatMap fun role => said role (content v)

/-- Its messages are texts, and it takes no tools. -/
def read (body : Json) : Conversation where
  entries := (items "messages" body).flatMap readMessage
  tools := []

end LocalClient

namespace ChatGpt

section Read
variable (parse : String → Option Json)

def readItem (v : Json) : List Entry :=
  match strField "type" v with
  | some "message" =>
      match roleOf v with
      | some role => (items "content" v).flatMap fun part => said role ((strField "text" part).getD "")
      | none => []
  | some "function_call" => Option.toList do
      let id ← strField "call_id" v
      let name ← strField "name" v
      let arguments ← (strField "arguments" v).bind parse
      return .called ⟨id, name, arguments⟩
  | some "function_call_output" => Option.toList do
      return .answered (← strField "call_id" v) (← strField "output" v)
  | _ => []

def readTool (v : Json) : Option ToolDefinition := do
  return ⟨← strField "name" v, ← strField "description" v, ← v.get? "parameters"⟩

def read (body : Json) : Conversation where
  entries := (strField "instructions" body).toList.flatMap (said .system) ++
    (items "input" body).flatMap (readItem parse)
  tools := (items "tools" body).filterMap readTool

end Read
end ChatGpt

/-! ## The fields of a body -/

variable {req : CompletionRequest}

@[simp] theorem lookup_temperatureField {key : String} (other : (key == "temperature") = false) :
    req.temperatureField.lookup key = none := by
  unfold CompletionRequest.temperatureField
  cases req.temperature with
  | none => rfl
  | some t => simp [List.lookup_cons, other]

@[simp] theorem lookup_toolsField {toolItem : ToolDefinition → Json} {key : String} (other : (key == "tools") = false) :
    (req.toolsField toolItem).lookup key = none := by
  unfold CompletionRequest.toolsField
  split_ifs with empty
  · rfl
  · simp [List.lookup_cons, other]

theorem items_toolsField {fields : List (String × Json)} {toolItem : ToolDefinition → Json}
    (other : fields.lookup "tools" = none) :
    items "tools" (.object (fields ++ req.toolsField toolItem)) = req.tools.map toolItem := by
  rw [items, Json.get?, List.lookup_append, other, Option.none_or, CompletionRequest.toolsField]
  split_ifs with empty
  · rw [empty]
    rfl
  · simp

theorem filterMap_items {α β : Type} {item : α → Json} {read : Json → Option β} {f : α → β} {list : List α}
    (reads : ∀ a ∈ list, read (item a) = some (f a)) : (list.map item).filterMap read = list.map f := by
  rw [List.filterMap_map, ← List.filterMap_eq_map]
  exact List.filterMap_congr reads

/-! ## OpenAI reads what was asked -/

variable {text : Json → String} {parse : String → Option Json} {stream : Bool}

/-- The arguments of every call come back from their text. -/
def ArgumentsReadBack (text : Json → String) (parse : String → Option Json) (m : ChatMessage) : Prop :=
  ∀ tc ∈ m.toolCalls, parse (text tc.arguments) = some tc.arguments

@[simp] theorem content_plainMessage (role text : String) : content (plainMessage role text) = text := rfl

@[simp] theorem roleOf_plainMessage (role text : String) : roleOf (plainMessage role text) = readRole role := rfl

@[simp] theorem items_plainMessage (role text : String) : items "tool_calls" (plainMessage role text) = [] := rfl

theorem openAi_readCall {tc : ToolCall} (back : parse (text tc.arguments) = some tc.arguments) :
    OpenAi.readCall parse (OpenAi.callItem text tc) = some (.called tc) := by
  simp [OpenAi.readCall, OpenAi.callItem, strField, Json.get?, List.lookup_cons, Json.asStr?, back]

theorem openAi_readCalls {calls : List ToolCall} (back : ∀ tc ∈ calls, parse (text tc.arguments) = some tc.arguments) :
    (calls.map (OpenAi.callItem text)).filterMap (OpenAi.readCall parse) = calls.map .called :=
  filterMap_items fun tc member => openAi_readCall (back tc member)

theorem openAi_readMessage {m : ChatMessage} (back : ArgumentsReadBack text parse m) :
    OpenAi.readMessage parse (OpenAi.mapMessage text m) = entries m := by
  unfold OpenAi.mapMessage entries
  cases role : m.role with
  | system => simp [OpenAi.readMessage, readRole]
  | user => simp [OpenAi.readMessage, readRole]
  | tool => rfl
  | assistant =>
      have calls := openAi_readCalls back
      by_cases none : m.toolCalls = []
      · simp [OpenAi.readMessage, readRole, none]
      · by_cases blank : m.content = "" <;>
          simp [OpenAi.readMessage, readRole, roleOf, content, items, strField, Json.get?, Json.asStr?,
            List.lookup_cons, none, blank, calls, said]

theorem openAi_readTool (t : ToolDefinition) : OpenAi.readTool (OpenAi.toolItem t) = some t := by
  simp [OpenAi.readTool, OpenAi.toolItem, strField, Json.get?, List.lookup_cons, Json.asStr?]

theorem openAi_messages : items "messages" (OpenAi.buildRequestBody text req stream) =
    (req.system.map (plainMessage "system")).toList ++ req.messages.map (OpenAi.mapMessage text) := by
  simp [items, OpenAi.buildRequestBody, Json.get?, List.lookup_cons]

theorem openAi_tools : items "tools" (OpenAi.buildRequestBody text req stream) = req.tools.map OpenAi.toolItem := by
  apply items_toolsField
  cases stream <;> simp [List.lookup_cons]

/-- Every turn of the conversation, with the calls and their arguments, and every tool. -/
theorem openAi_reads_all (text : Json → String) (parse : String → Option Json) (defaultModel : String)
    (req : CompletionRequest) (stream : Bool) (back : ∀ m ∈ req.messages, ArgumentsReadBack text parse m) :
    OpenAi.read parse (OpenAi.buildRequestBody text (req.withDefault defaultModel) stream) = asked req := by
  rw [← asked_withDefault defaultModel req]
  have back : ∀ m ∈ (req.withDefault defaultModel).messages, ArgumentsReadBack text parse m := by
    rwa [messages_withDefault]
  generalize req.withDefault defaultModel = req at back ⊢
  have tools : (req.tools.map OpenAi.toolItem).filterMap OpenAi.readTool = req.tools := by
    rw [filterMap_items (f := id) fun t _ => openAi_readTool t, List.map_id]
  have messages : (req.messages.map (OpenAi.mapMessage text)).flatMap (OpenAi.readMessage parse) =
      req.messages.flatMap entries := by
    rw [List.flatMap_map]
    exact List.flatMap_congr fun m member => openAi_readMessage (back m member)
  have system : ((req.system.map (plainMessage "system")).toList).flatMap (OpenAi.readMessage parse) =
      req.system.toList.flatMap (said .system) := by
    cases req.system <;> simp [OpenAi.readMessage, readRole]
  rw [OpenAi.read, openAi_messages, openAi_tools, List.flatMap_append, system, messages, tools, asked]

/-! A turn in which one tool was called. -/

def oneCall : CompletionRequest where
  model := ""
  messages := [.user "Which rules are set?", ⟨.assistant, "", none, [⟨"call_1", "fw_list", .object []⟩]⟩,
    .toolResult "call_1" "none"]
  system := some "Be brief."
  tools := [⟨"fw_list", "Lists the rules.", .object []⟩]
  maxTokens := 4096
  temperature := none

def writeEmpty (_ : Json) : String := "\x7b\x7d"

def readEmpty (written : String) : Option Json := if written = "\x7b\x7d" then some (.object []) else none

theorem oneCall_back : ∀ m ∈ oneCall.messages, ArgumentsReadBack writeEmpty readEmpty m := by
  simp [oneCall, ArgumentsReadBack, ChatMessage.user, ChatMessage.toolResult, writeEmpty, readEmpty]

theorem oneCall_openAi :
    OpenAi.read readEmpty (OpenAi.buildRequestBody writeEmpty (oneCall.withDefault "gpt-4o") true) = asked oneCall :=
  openAi_reads_all writeEmpty readEmpty "gpt-4o" oneCall true oneCall_back

/-! ## Anthropic misses the system messages of the history -/

theorem anthropic_readCalls (role : Role) (calls : List ToolCall) :
    (calls.map Anthropic.callBlock).filterMap (Anthropic.readBlock role) = calls.map .called :=
  filterMap_items fun _ _ => rfl

theorem anthropic_readMessage (m : ChatMessage) :
    (Anthropic.mapMessage m).toList.flatMap Anthropic.readMessage = if m.role = .system then [] else entries m := by
  have user (text : String) : Anthropic.readMessage (plainMessage "user" text) = said .user text := rfl
  have assistant (text : String) : Anthropic.readMessage (plainMessage "assistant" text) = said .assistant text := rfl
  unfold Anthropic.mapMessage entries
  cases role : m.role with
  | system => rfl
  | user => simp [user]
  | tool => rfl
  | assistant =>
      have calls := anthropic_readCalls .assistant m.toolCalls
      by_cases none : m.toolCalls = []
      · simp [assistant, none]
      · by_cases blank : m.content = "" <;>
          simp [Anthropic.readMessage, Anthropic.blocksMessage, Anthropic.textBlock, Anthropic.readBlock, readRole,
            roleOf, strField, Json.get?, Json.asStr?, List.lookup_cons, none, blank, calls, said]

theorem anthropic_readMessages (messages : List ChatMessage) :
    (Anthropic.mapMessages messages).flatMap Anthropic.readMessage =
      (messages.filter fun m => m.role ≠ .system).flatMap entries := by
  induction messages with
  | nil => rfl
  | cons m rest ih =>
      have first := anthropic_readMessage m
      unfold Anthropic.mapMessages at ih ⊢
      by_cases system : m.role = .system
      · rw [if_pos system] at first
        cases sent : Anthropic.mapMessage m with
        | none => simpa [sent, system] using ih
        | some v => simp_all
      · rw [if_neg system] at first
        cases sent : Anthropic.mapMessage m with
        | none => simp_all
        | some v =>
            rw [sent, Option.toList_some, List.flatMap_singleton] at first
            rw [List.filterMap_cons_some sent, List.flatMap_cons, first, ih, List.filter_cons_of_pos (by simp [system]),
              List.flatMap_cons]

theorem anthropic_system : strField "system" (Anthropic.buildRequestBody req stream) = req.system := by
  rw [strField, Anthropic.buildRequestBody, Json.get?]
  cases req.system <;> simp [List.lookup_append, List.lookup_cons, Json.asStr?]

theorem anthropic_messages :
    items "messages" (Anthropic.buildRequestBody req stream) = Anthropic.mapMessages req.messages := by
  simp [items, Anthropic.buildRequestBody, Json.get?, List.lookup_cons]

theorem anthropic_tools : items "tools" (Anthropic.buildRequestBody req stream) = req.tools.map Anthropic.toolItem := by
  apply items_toolsField
  cases req.system <;> simp [List.lookup_cons]

theorem anthropic_readTool (t : ToolDefinition) : Anthropic.readTool (Anthropic.toolItem t) = some t := by
  simp [Anthropic.readTool, Anthropic.toolItem, strField, Json.get?, List.lookup_cons, Json.asStr?]

theorem anthropic_read : Anthropic.read (Anthropic.buildRequestBody req stream) =
    ⟨req.system.toList.flatMap (said .system) ++ (req.messages.filter fun m => m.role ≠ .system).flatMap entries,
      req.tools⟩ := by
  have tools : (req.tools.map Anthropic.toolItem).filterMap Anthropic.readTool = req.tools := by
    rw [filterMap_items (f := id) fun t _ => anthropic_readTool t, List.map_id]
  rw [Anthropic.read, anthropic_system, anthropic_messages, anthropic_tools, anthropic_readMessages, tools]

theorem flatMap_filter_of_nil {messages : List ChatMessage} {p : ChatMessage → Bool}
    (silent : ∀ m ∈ messages, p m = false → entries m = []) :
    (messages.filter p).flatMap entries = messages.flatMap entries := by
  induction messages with
  | nil => rfl
  | cons m rest ih =>
      have later := ih fun m member => silent m (List.mem_cons_of_mem _ member)
      cases kept : p m with
      | true => rw [List.filter_cons_of_pos kept, List.flatMap_cons, List.flatMap_cons, later]
      | false =>
          rw [List.filter_cons_of_neg (by simp [kept]), List.flatMap_cons, silent m List.mem_cons_self kept, later,
            List.nil_append]

theorem anthropic_whole_iff : Anthropic.read (Anthropic.buildRequestBody req stream) = asked req ↔
    ∀ m ∈ req.messages, m.role = .system → m.content = "" := by
  rw [anthropic_read, asked, Conversation.mk.injEq, List.append_cancel_left_eq]
  constructor
  · rintro ⟨same, -⟩ m member role
    by_contra content
    have listed : Entry.said .system m.content ∈ req.messages.flatMap entries :=
      List.mem_flatMap.mpr ⟨m, member, by simp [entries, role, said, content]⟩
    rw [← same] at listed
    obtain ⟨m', kept, spoken⟩ := List.mem_flatMap.mp listed
    exact absurd (speaker_of_said spoken).1 (by simpa using (List.mem_filter.mp kept).2)
  · intro blank
    refine ⟨flatMap_filter_of_nil fun m member dropped => ?_, rfl⟩
    have role : m.role = .system := by simpa using dropped
    simp [entries, role, said, blank m member role]

/-- A system prompt beside the messages comes through; a system message with a text among them does not. -/
theorem anthropic_reads_all_iff (defaultModel : String) (req : CompletionRequest) (stream : Bool) :
    Anthropic.read (Anthropic.buildRequestBody (req.withDefault defaultModel) stream) = asked req ↔
      ∀ m ∈ req.messages, m.role = .system → m.content = "" := by
  rw [← asked_withDefault defaultModel req, ← messages_withDefault defaultModel req]
  exact anthropic_whole_iff

/-! ## Ollama misses the tools -/

theorem local_readMessage (role : Role) (text : String) :
    LocalClient.readMessage (plainMessage (LocalClient.roleName role) text) = said role text := by
  cases role <;> simp [LocalClient.readMessage, LocalClient.roleName, readRole]

theorem local_read : LocalClient.read (LocalClient.buildRequestBody req stream) =
    ⟨req.system.toList.flatMap (said .system) ++ req.messages.flatMap fun m => said m.role m.content, []⟩ := by
  have messages : items "messages" (LocalClient.buildRequestBody req stream) =
      (req.system.map (plainMessage (LocalClient.roleName .system))).toList ++
        req.messages.map fun m => plainMessage (LocalClient.roleName m.role) m.content := rfl
  have system :
      ((req.system.map (plainMessage (LocalClient.roleName .system))).toList).flatMap LocalClient.readMessage =
        req.system.toList.flatMap (said .system) := by
    cases req.system with
    | none => rfl
    | some text => simp [local_readMessage]
  rw [LocalClient.read, messages, List.flatMap_append, system, List.flatMap_map]
  simp only [local_readMessage]

/-- No tool is on offer, and none was called. -/
structure WithoutTools (req : CompletionRequest) : Prop where
  offered : req.tools = []
  called : ∀ m ∈ req.messages, m.role = .assistant → m.toolCalls = []
  answered : ∀ m ∈ req.messages, m.role ≠ .tool

theorem withoutTools_withDefault (defaultModel : String) (req : CompletionRequest) :
    WithoutTools (req.withDefault defaultModel) ↔ WithoutTools req := by
  unfold CompletionRequest.withDefault
  split_ifs
  · exact ⟨fun w => ⟨w.1, w.2, w.3⟩, fun w => ⟨w.1, w.2, w.3⟩⟩
  · exact Iff.rfl

theorem local_whole_iff :
    LocalClient.read (LocalClient.buildRequestBody req stream) = asked req ↔ WithoutTools req := by
  rw [local_read, asked, Conversation.mk.injEq, List.append_cancel_left_eq]
  constructor
  · rintro ⟨same, tools⟩
    have onlySaid {m : ChatMessage} {e : Entry} (member : m ∈ req.messages) (own : e ∈ entries m) :
        ∃ role text, e = .said role text := by
      have listed : e ∈ req.messages.flatMap entries := List.mem_flatMap.mpr ⟨m, member, own⟩
      rw [← same] at listed
      obtain ⟨m', -, spoken⟩ := List.mem_flatMap.mp listed
      exact ⟨_, _, (said_eq spoken).1⟩
    refine ⟨tools.symm, fun m member role => ?_, fun m member role => ?_⟩
    · cases calls : m.toolCalls with
      | nil => rfl
      | cons tc rest =>
          obtain ⟨_, _, other⟩ := onlySaid member (e := .called tc) (by simp [entries, role, calls])
          cases other
    · obtain ⟨_, _, other⟩ := onlySaid member (e := .answered (m.toolUseId.getD "") m.content) (by simp [entries, role])
      cases other
  · rintro ⟨offered, called, answered⟩
    refine ⟨List.flatMap_congr fun m member => ?_, offered.symm⟩
    unfold entries
    cases role : m.role with
    | system => rfl
    | user => rfl
    | assistant => rw [called m member role, List.map_nil, List.append_nil]
    | tool => exact absurd role (answered m member)

def asSent : Entry → Entry
  | .said .system text => .said .user text
  | .called tc => .called { tc with name := sanitizeToolName tc.name }
  | e => e

def sentTool (t : ToolDefinition) : ToolDefinition := { t with name := sanitizeToolName t.name }

theorem chatGpt_readMessage {role : Role} {name : String} (named : readRole name = some role) (kind text : String) :
    ChatGpt.readItem parse (messageItem name kind text) = said role text := by
  have spoken : roleOf (messageItem name kind text) = some role := named
  rw [ChatGpt.readItem]
  simp only [spoken]
  simp [messageItem, strField, items, Json.get?, Json.asStr?, List.lookup_cons]

theorem chatGpt_readCalls {calls : List ToolCall} (back : ∀ tc ∈ calls, parse (text tc.arguments) = some tc.arguments) :
    (calls.map (callItem text)).flatMap (ChatGpt.readItem parse) = calls.map fun tc => asSent (.called tc) := by
  rw [List.flatMap_map, List.map_eq_flatMap]
  refine List.flatMap_congr fun tc member => ?_
  simp [ChatGpt.readItem, callItem, strField, Json.get?, Json.asStr?, List.lookup_cons, back tc member, asSent]

theorem map_said {role : Role} (other : role ≠ .system) (text : String) :
    (said role text).map asSent = said role text := by
  unfold said
  split_ifs
  · rfl
  · cases role <;> first | rfl | exact absurd rfl other

theorem map_said_system (text : String) : (said .system text).map asSent = said .user text := by
  unfold said
  split_ifs <;> rfl

theorem chatGpt_readItems {m : ChatMessage} (back : ArgumentsReadBack text parse m) :
    (inputItems text m).flatMap (ChatGpt.readItem parse) = (entries m).map asSent := by
  unfold inputItems entries
  cases role : m.role with
  | system => simp [chatGpt_readMessage, readRole, map_said_system]
  | user => simp [chatGpt_readMessage, readRole, map_said]
  | tool => rfl
  | assistant =>
      have spoken : (if m.content = "" then [] else [messageItem "assistant" "output_text" m.content]).flatMap
          (ChatGpt.readItem parse) = said .assistant m.content := by
        by_cases blank : m.content = ""
        · simp [blank, said]
        · simp [blank, chatGpt_readMessage, readRole]
      simp only [List.flatMap_append, spoken, chatGpt_readCalls back, List.map_append, List.map_map, Function.comp_def,
        map_said (show Role.assistant ≠ .system by decide)]

variable {client : ChatGptOAuthClient}

theorem chatGpt_read (back : ∀ m ∈ req.messages, ArgumentsReadBack text parse m) :
    ChatGpt.read parse (client.buildBody text req.toCompletionRequest stream) =
      ⟨req.system.toList.flatMap (said .system) ++ (req.messages.flatMap entries).map asSent,
        req.tools.map sentTool⟩ := by
  have instructions : strField "instructions" (client.buildBody text req.toCompletionRequest stream) = req.system := by
    rw [strField, ChatGptOAuthClient.buildBody, Json.get?]
    cases req.system <;> cases req.tools <;> simp [List.lookup_cons, Json.asStr?]
  have input : items "input" (client.buildBody text req.toCompletionRequest stream) =
      req.messages.flatMap (inputItems text) := by
    simp [items, ChatGptOAuthClient.buildBody, Json.get?]
  have offered : items "tools" (client.buildBody text req.toCompletionRequest stream) =
      req.tools.map Daimon.Llm.ChatGpt.toolItem := by
    rw [items, ChatGptOAuthClient.buildBody, Json.get?]
    cases req.system <;> cases tools : req.tools <;> simp [List.lookup_cons]
  have tools : (req.tools.map Daimon.Llm.ChatGpt.toolItem).filterMap ChatGpt.readTool = req.tools.map sentTool := by
    refine filterMap_items fun t _ => ?_
    simp [ChatGpt.readTool, Daimon.Llm.ChatGpt.toolItem, strField, Json.get?, Json.asStr?, List.lookup_cons, sentTool]
  have messages : (req.messages.flatMap (inputItems text)).flatMap (ChatGpt.readItem parse) =
      (req.messages.flatMap entries).map asSent := by
    rw [List.flatMap_assoc, List.map_flatMap]
    exact List.flatMap_congr fun m member => chatGpt_readItems (back m member)
  rw [ChatGpt.read, instructions, input, offered, messages, tools]

/-- Every name is one that the provider takes, and no system message among the messages has a text. -/
structure SentAsAsked (req : CompletionRequest) : Prop where
  offered : ∀ t ∈ req.tools, sanitizeToolName t.name = t.name
  called : ∀ m ∈ req.messages, m.role = .assistant → ∀ tc ∈ m.toolCalls, sanitizeToolName tc.name = tc.name
  system : ∀ m ∈ req.messages, m.role = .system → m.content = ""

theorem chatGpt_reads_all_iff (text : Json → String) (parse : String → Option Json) (client : ChatGptOAuthClient)
    (req : CompletionRequest) (stream : Bool) (back : ∀ m ∈ req.messages, ArgumentsReadBack text parse m) :
    ChatGpt.read parse (client.buildBody text req.toCompletionRequest stream) = asked req ↔ SentAsAsked req := by
  have tools : req.tools.map sentTool = req.tools ↔ ∀ t ∈ req.tools, sanitizeToolName t.name = t.name := by
    conv_lhs => rw [← List.map_id req.tools, List.map_map, Function.comp_id, List.map_inj_left]
    refine forall₂_congr fun t _ => ?_
    cases t
    simp [sentTool]
  rw [chatGpt_read back, asked, Conversation.mk.injEq, List.append_cancel_left_eq, tools]
  conv_lhs => lhs; rw [← List.map_id (req.messages.flatMap entries), List.map_map, Function.comp_id, List.map_inj_left]
  constructor
  · rintro ⟨same, offered⟩
    have kept {m : ChatMessage} {e : Entry} (member : m ∈ req.messages) (own : e ∈ entries m) : asSent e = e :=
      same e (List.mem_flatMap.mpr ⟨m, member, own⟩)
    refine ⟨offered, fun m member role tc call => ?_, fun m member role => ?_⟩
    · have sent := kept (e := .called tc) member (by simp [entries, role, call])
      exact congrArg ToolCall.name (Entry.called.inj sent)
    · by_contra content
      have sent := kept (e := .said .system m.content) member (by simp [entries, role, said, content])
      cases sent
  · rintro ⟨offered, called, system⟩
    refine ⟨fun e listed => ?_, offered⟩
    obtain ⟨m, member, own⟩ := List.mem_flatMap.mp listed
    cases e with
    | answered => rfl
    | called tc =>
        obtain ⟨role, call⟩ := caller_of_called own
        rw [asSent, called m member role tc call, id]
    | said speaker words =>
        cases speaker with
        | system =>
            obtain ⟨role, rfl, content⟩ := speaker_of_said own
            exact absurd (system m member role) content
        | user => rfl
        | assistant => rfl
        | tool => rfl

theorem oneCall_chatGpt :
    ChatGpt.read readEmpty
        ((⟨"gpt-5.5", "low"⟩ : ChatGptOAuthClient).buildBody writeEmpty oneCall.toCompletionRequest true) =
      asked oneCall ↔ SentAsAsked oneCall :=
  chatGpt_reads_all_iff writeEmpty readEmpty ⟨"gpt-5.5", "low"⟩ oneCall true oneCall_back

end Daimon.Proof.Requests
