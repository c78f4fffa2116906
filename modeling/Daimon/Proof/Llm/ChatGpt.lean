import Daimon.Lib.Lists
import Daimon.Llm.ChatGpt
import Mathlib.Data.List.Nodup

/-!
# Tool names through ChatGPT

The names that a request sends have only characters that the provider takes. A name comes back as the tool that it was
sent for when no other tool was sent under it.
-/

namespace Daimon.Proof.Llm.ChatGpt
open Daimon.App.Chat (ChatMessage ContentDelta LlmStream Reply StopReason ToolCall ToolDefinition Usage)
open Daimon.Llm Daimon.Llm.ChatGpt Lib

/-! ## The names in a body -/

def Allowed (c : Char) : Prop := c.isAlphanum = true ∨ c = '-' ∨ c = '_'

/-- The names in the items of an array field. -/
def itemNames (key : String) (body : Json) : List String :=
  match body.get? key with
  | some (.array items) => items.filterMap (strField "name")
  | _ => []

def sentNames (body : Json) : List String := itemNames "tools" body ++ itemNames "input" body

theorem allowed_sanitizeToolName (name : String) : ∀ c ∈ (sanitizeToolName name).toList, Allowed c := by
  intro c member
  rw [sanitizeToolName, String.toList_ofList] at member
  obtain ⟨x, -, rfl⟩ := List.mem_map.mp member
  unfold Allowed
  split_ifs with ok
  · simpa [or_assoc] using ok
  · exact Or.inr (Or.inr rfl)

variable {text : Json → String} {client : ChatGptOAuthClient} {req : CompletionRequest} {stream : Bool}

theorem itemNames_tools :
    itemNames "tools" (client.buildBody text req stream) = req.tools.map fun t => sanitizeToolName t.name := by
  have names (tools : List ToolDefinition) :
      (tools.map toolItem).filterMap (strField "name") = tools.map fun t => sanitizeToolName t.name := by
    rw [List.filterMap_map, ← List.filterMap_eq_map]
    rfl
  rw [itemNames, ChatGptOAuthClient.buildBody, Json.get?]
  cases req.system <;> cases tools : req.tools <;> simp [List.lookup_cons, ← names]

theorem itemNames_input : itemNames "input" (client.buildBody text req stream) =
    (req.messages.flatMap (inputItems text)).filterMap (strField "name") := by
  rw [itemNames, ChatGptOAuthClient.buildBody, Json.get?]
  simp

theorem sanitized_of_mem_inputItems {m : ChatMessage} {item : Json} {name : String} (member : item ∈ inputItems text m)
    (named : strField "name" item = some name) : ∃ original, name = sanitizeToolName original := by
  have plain (role kind content : String) : strField "name" (messageItem role kind content) = none := rfl
  unfold inputItems at member
  cases role : m.role with
  | user | system =>
      simp only [role, List.mem_singleton] at member
      rw [member, plain] at named
      cases named
  | assistant =>
      simp only [role, List.mem_append, List.mem_map] at member
      rcases member with message | ⟨tc, -, rfl⟩
      · split_ifs at message with blank
        · cases message
        · rw [List.mem_singleton.mp message, plain] at named
          cases named
      · exact ⟨tc.name, (Option.some.inj named).symm⟩
  | tool =>
      simp only [role, List.mem_singleton] at member
      rw [member] at named
      cases named

theorem sent_allowed : ∀ name ∈ sentNames (client.buildBody text req stream), ∀ c ∈ name.toList, Allowed c := by
  intro name member
  have sanitized : ∃ original, name = sanitizeToolName original := by
    rcases List.mem_append.mp member with tool | call
    · rw [itemNames_tools] at tool
      obtain ⟨t, -, rfl⟩ := List.mem_map.mp tool
      exact ⟨t.name, rfl⟩
    · rw [itemNames_input] at call
      obtain ⟨item, inside, named⟩ := List.mem_filterMap.mp call
      obtain ⟨m, -, own⟩ := List.mem_flatMap.mp inside
      exact sanitized_of_mem_inputItems own named
  obtain ⟨original, rfl⟩ := sanitized
  exact allowed_sanitizeToolName original

/-! ## The way back -/

/-- The event adds a call of the function with the given name. -/
structure CallsBy (v : Json) (raw : String) : Prop where
  added : strField "type" v = some "response.output_item.added"
  call : isFunctionCall (index "item" v) = true
  named : strField "name" (index "item" v) = some raw

/-- A call by the name under which a tool was sent starts a use of that tool and of no other. -/
def ComesBack (body : Json) (tools : List ToolDefinition) : Prop :=
  ∀ (i : Nat) (t : ToolDefinition) raw v, tools[i]? = some t → (itemNames "tools" body)[i]? = some raw → CallsBy v raw →
    parseEvent (.value v) (nameMap tools) = [.ok (.toolUseStart (callId (index "item" v)) t.name)]

theorem parseEvent_call {v : Json} {raw : String} (calls : CallsBy v raw) (names : String → Option String) :
    parseEvent (.value v) names = [.ok (.toolUseStart (callId (index "item" v)) ((names raw).getD raw))] := by
  simp [parseEvent, valueDeltas, calls.added, calls.call, calls.named]

def callEvent (raw : String) : Json :=
  .object [("item", .object [("name", .string raw), ("type", .string "function_call")]),
    ("type", .string "response.output_item.added")]

theorem callsBy_callEvent (raw : String) : CallsBy (callEvent raw) raw := by
  constructor <;> simp [callEvent, strField, index, isFunctionCall, Json.get?, List.lookup_cons, Json.asStr?]

theorem nameMap_sent {tools : List ToolDefinition} {t : ToolDefinition}
    (apart : (tools.map fun t => sanitizeToolName t.name).Nodup) (member : t ∈ tools) :
    nameMap tools (sanitizeToolName t.name) = some t.name := by
  apply lookup_of_mem
  · rw [List.map_reverse, List.nodup_reverse, List.map_map]
    exact apart
  · rw [List.mem_reverse]
    exact List.mem_map_of_mem member

/-- Every name that goes out is made of letters, digits, hyphens and underscores, and a call by it comes back as its
tool. -/
structure NamesSurvive (body : Json) (tools : List ToolDefinition) : Prop where
  allowed : ∀ name ∈ sentNames body, ∀ c ∈ name.toList, Allowed c
  back : ComesBack body tools

/-- Tool names survive the round trip exactly when no two of the tools have one sanitised name. -/
theorem names_survive_iff (text : Json → String) (client : ChatGptOAuthClient) (req : CompletionRequest) (stream : Bool)
    (distinct : (req.tools.map fun t => t.name).Nodup) :
    NamesSurvive (client.buildBody text req stream) req.tools ↔
      (req.tools.map fun t => sanitizeToolName t.name).Nodup := by
  constructor
  · intro survive
    have sent {t : ToolDefinition} (member : t ∈ req.tools) :
        (nameMap req.tools (sanitizeToolName t.name)).getD (sanitizeToolName t.name) = t.name := by
      obtain ⟨i, found⟩ := List.getElem?_of_mem member
      have raw : (itemNames "tools" (client.buildBody text req stream))[i]? = some (sanitizeToolName t.name) := by
        rw [itemNames_tools, List.getElem?_map, found]
        rfl
      have started := survive.back i t _ _ found raw (callsBy_callEvent _)
      rw [parseEvent_call (callsBy_callEvent _)] at started
      simpa using started
    apply List.Nodup.map_on
    · intro t member u other same
      have name : t.name = u.name := by rw [← sent member, ← sent other, same]
      exact List.inj_on_of_nodup_map distinct member other name
    · exact distinct.of_map
  · intro apart
    refine ⟨sent_allowed, ?_⟩
    intro i t raw v found sent calls
    rw [itemNames_tools, List.getElem?_map, found] at sent
    cases sent
    rw [parseEvent_call calls, nameMap_sent apart (List.mem_of_getElem? found)]
    rfl

/-! ## Two capabilities with one sent name -/

def namedTool (name : String) : ToolDefinition := ⟨name, "", .null⟩

def requestWith (names : List String) : CompletionRequest := ⟨"", [], none, names.map namedTool⟩

def codexClient : ChatGptOAuthClient := ⟨"gpt-5.5", "low"⟩

theorem listed_survive :
    NamesSurvive (codexClient.buildBody (fun _ => "") (requestWith ["fw.list"]) true) (requestWith ["fw.list"]).tools ↔
      ((requestWith ["fw.list"]).tools.map fun t => sanitizeToolName t.name).Nodup :=
  names_survive_iff (fun _ => "") codexClient (requestWith ["fw.list"]) true (List.nodup_singleton _)

def twoTools : CompletionRequest := requestWith ["fw.list", "fw_list"]

theorem twoTools_call : parseEvent (.value (callEvent "fw_list")) (nameMap twoTools.tools) =
    [.ok (.toolUseStart "" "fw_list")] := by
  rw [parseEvent_call (callsBy_callEvent "fw_list")]
  rfl

/-- A call of `fw.list` by its sent name starts `fw_list`. -/
theorem renamed_call : (twoTools.tools.map fun t => t.name).Nodup ∧
    ¬NamesSurvive (codexClient.buildBody (fun _ => "") twoTools true) twoTools.tools := by
  constructor
  · simp [twoTools, requestWith, namedTool]
  · intro survive
    have sent : (itemNames "tools" (codexClient.buildBody (fun _ => "") twoTools true))[0]? = some "fw_list" := by
      rw [itemNames_tools]
      rfl
    have started := survive.back 0 (namedTool "fw.list") "fw_list" _ rfl sent (callsBy_callEvent "fw_list")
    rw [twoTools_call] at started
    simp [namedTool] at started

end Daimon.Proof.Llm.ChatGpt
