import Daimon.Lib.Serde
import Daimon.Llm.Types

/-!
# Reading what a provider sends

The wire values of a provider decode to what they were written for, and the chat turn's fold over runs of deltas of one
kind.
-/

namespace Daimon.Proof.Llm
open Daimon.App.Chat Lib Daimon.Llm
open Daimon.Driver.NetworkResponse (structFields decodeOptional)

/-! ## Decoding what a provider writes -/

theorem structFields_ofFields {pairs : List (String × Json)} (distinct : (pairs.map Prod.fst).Nodup)
    (names : List String) :
    structFields names (Json.ofFields pairs) = some (names.map fun name => pairs.lookup name) := by
  simp only [Json.ofFields, structFields, Json.lookup_foldl_insertField distinct, List.lookup_nil, Option.or_none]

theorem decodeTag_ofFields {pairs : List (String × Json)} (distinct : (pairs.map Prod.fst).Nodup) {tag : String}
    (tagged : pairs.lookup "type" = some (.string tag)) :
    decodeTag (Json.ofFields pairs) = some (tag, Json.ofFields pairs) := by
  simp only [Json.ofFields, decodeTag, Json.lookup_foldl_insertField distinct, List.lookup_nil, Option.or_none, tagged,
    Option.bind_some, Json.asStr?, Option.map_some]

def u32 (n : UInt32) : Json := .number (.posInt n.toUInt64)

@[simp] theorem decodeU32_u32 (n : UInt32) : decodeU32 (u32 n) = some n := by
  have small : n.toNat < 4294967296 := n.toNat_lt
  simp [u32, decodeU32, small]

def optional (value : Option Json) : Json := value.getD .null

theorem decodeOptional_optional {α : Type} {decode : Json → Option α} {encode : α → Json}
    (round : ∀ a, decode (encode a) = some a) (present : ∀ a, encode a ≠ .null) (value : Option α) :
    decodeOptional decode (some (optional (value.map encode))) = some value := by
  cases value with
  | none => rfl
  | some a =>
      have some_eq : decodeOptional decode (some (encode a)) = (decode (encode a)).map some := by
        have other := present a
        cases shape : encode a with
        | null => exact absurd shape other
        | _ => rfl
      rw [Option.map_some, optional, Option.getD_some, some_eq, round, Option.map_some]

@[simp] theorem asStr?_string (text : String) : (Json.string text).asStr? = some text := rfl

@[simp] theorem decodeOptional_string (value : Option String) :
    decodeOptional Json.asStr? (some (optional (value.map .string))) = some value :=
  decodeOptional_optional asStr?_string (by simp) value

theorem decodeVec_map {α : Type} {decode : Json → Option α} {encode : α → Json}
    (round : ∀ a, decode (encode a) = some a) (values : List α) :
    decodeVec decode (.array (values.map encode)) = some values := by
  rw [decodeVec]
  induction values with
  | nil => rfl
  | cons a rest ih => simp [round, ih]

/-! ## Reading deltas -/

section Reading
variable (parseInput : String → Option Json) (sessionId : String)

theorem read_deltas (reply : Reply) (deltas : List ContentDelta) :
    reply.read parseInput sessionId (deltas.map .ok) = (deltas.foldl (Reply.delta parseInput sessionId) reply, none) := by
  induction deltas generalizing reply with
  | nil => rfl
  | cons d rest ih => exact ih _

theorem foldl_textDelta (reply : Reply) (pieces : List String) :
    (pieces.map .textDelta).foldl (Reply.delta parseInput sessionId) reply =
      { reply with
        accumulatedText := reply.accumulatedText ++ String.join pieces
        events := reply.events ++ pieces.map (.tokenDelta sessionId) } := by
  induction pieces generalizing reply with
  | nil => simp
  | cons p rest ih =>
      rw [List.map_cons, List.foldl_cons, ih]
      simp [Reply.delta, String.append_assoc]

theorem foldl_toolUseInputDelta {reply : Reply} {p : PendingToolCall} (pending : reply.pendingTool = some p)
    (pieces : List String) :
    (pieces.map .toolUseInputDelta).foldl (Reply.delta parseInput sessionId) reply =
      { reply with pendingTool := some { p with inputJson := p.inputJson ++ String.join pieces } } := by
  induction pieces generalizing reply p with
  | nil => simp [← pending]
  | cons piece rest ih =>
      rw [List.map_cons, List.foldl_cons]
      have next : (reply.delta parseInput sessionId (.toolUseInputDelta piece)).pendingTool =
          some { p with inputJson := p.inputJson ++ piece } := by
        simp [Reply.delta, pending]
      rw [ih next]
      simp [Reply.delta, String.append_assoc]

theorem mapEvents_cons {texts : ErrorTexts} {delta : SseEvent → Except Error (Option ContentDelta)} {event : SseEvent}
    {d : Option ContentDelta} (decoded : delta event = .ok d) (rest : List SseEvent) :
    mapEvents texts delta ((event :: rest).map .ok) =
      d.toList.map .ok ++ mapEvents texts delta (rest.map .ok) := by
  rw [List.map_cons, mapEvents, List.filterMap_cons]
  cases d with
  | none => simp [decoded, mapEvents]
  | some d => simp [decoded, mapEvents]

theorem mapEvents_append (texts : ErrorTexts) (delta : SseEvent → Except Error (Option ContentDelta))
    (earlier later : List SseEvent) :
    mapEvents texts delta ((earlier ++ later).map .ok) =
      mapEvents texts delta (earlier.map .ok) ++ mapEvents texts delta (later.map .ok) := by
  rw [List.map_append, mapEvents, List.filterMap_append]
  rfl

end Reading
end Daimon.Proof.Llm
