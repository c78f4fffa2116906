import Daimon.App.Inbound
import Daimon.Proof.App.Turn

/-!
# One reply for each message

What a `BufferSink` sends for a list of events, and that every way through the handler of inbound messages ends with
the one call of `finish`.
-/

namespace Daimon.Proof.App
open Daimon.Core Daimon.App.Chat Daimon.App.Inbound Daimon.Gateway Lib
open Daimon.Guard (ApprovalTable)
open Daimon.Redis (ConvMessage)

/-! ## The text of a reply -/

def isError : TurnEvent → Bool
  | .error _ => true
  | _ => false

/-- The pieces of a reply, in order; an error notice starts a line once there is text before it. -/
def pieces (started : Bool) : List TurnEvent → List String
  | [] => []
  | .tokenDelta _ content :: rest => content :: pieces (started || !decide (content = "")) rest
  | .error message :: rest =>
      ((if started then "\n" else "") ++ BufferSink.notice message) :: pieces true rest
  | .toolUse .. :: rest | .toolResult .. :: rest | .done .. :: rest => pieces started rest

def replyText (events : List TurnEvent) : String :=
  let text := String.join (pieces false events)
  if trim text = "" ∧ ¬ events.any isError then "(no reply)" else text

theorem pieces_visible {started : Bool} {events : List TurnEvent} (failed : events.any isError = true) :
    trim (String.join (pieces started events)) ≠ "" := by
  rw [Ne, trim_eq_empty_iff]
  intro blank
  induction events generalizing started with
  | nil => simp at failed
  | cons event rest ih =>
      cases event with
      | error message =>
          -- The sign of a notice is no white space.
          have sign : '⚠' ∈ (String.join (pieces started (.error message :: rest))).toList := by
            simp [pieces, BufferSink.notice]
          exact absurd (blank _ sign) (by decide)
      | tokenDelta session content =>
          refine @ih (started || !decide (content = "")) (by simpa [isError] using failed) ?_
          intro c member
          refine blank c ?_
          simp only [pieces, String.join_cons, String.toList_append, List.mem_append]
          exact .inr member
      | toolUse | toolResult | done => exact ih (by simpa [isError] using failed) blank

theorem run_emits (sink : BufferSink) (events : List TurnEvent) :
    sink.run (events.map .emit) = { sink with
      buf := sink.buf ++ String.join (pieces (!decide (sink.buf = "")) events)
      hadError := sink.hadError || events.any isError } := by
  induction events generalizing sink with
  | nil => simp [BufferSink.run, pieces]
  | cons event rest ih =>
      have later := ih (sink.emit event)
      simp only [BufferSink.run, List.map_cons, List.foldl_cons, BufferSink.call] at later ⊢
      rw [later]
      cases event with
      | tokenDelta session content =>
          simp [BufferSink.emit, pieces, isError, String.append_assoc, String.append_eq_empty_iff,
            Bool.decide_and, Bool.not_and]
      | error message =>
          by_cases blank : sink.buf = "" <;>
            simp [BufferSink.emit, pieces, isError, blank, String.append_assoc, BufferSink.notice]
      | toolUse | toolResult | done => rfl

theorem sent_once (events : List TurnEvent) :
    (BufferSink.new.run (events.map .emit ++ [.finish])).sent = [replyText events] := by
  have emitted := run_emits .new events
  simp only [BufferSink.run, BufferSink.new] at emitted
  simp only [BufferSink.run, BufferSink.new, List.foldl_append, emitted, List.foldl_cons, List.foldl_nil,
    BufferSink.call, BufferSink.finish, replyText]
  by_cases failed : events.any isError = true
  · have visible := @pieces_visible false _ failed
    simp [failed, visible]
  · by_cases blank : trim (String.join (pieces false events)) = "" <;> simp [failed, blank]

def event? : Effect → Option TurnEvent
  | .emit event => some event
  | _ => none

/-! ## Only the end of a turn finishes it -/

theorem sinkCalls_of_unfinished {effects : List Effect} (unfinished : .finish ∉ effects) :
    effects.filterMap Effect.sinkCall? = (effects.filterMap event?).map .emit := by
  induction effects with
  | nil => rfl
  | cons effect rest ih =>
      have later := ih fun member => unfinished (List.mem_cons_of_mem _ member)
      cases effect with
      | finish => exact absurd List.mem_cons_self unfinished
      | emit event => simp [Effect.sinkCall?, event?, later]
      | request | append | push | capture | dispatch | decide => exact later

/-! ## The handler -/

def Finishes (effects : List Effect) : Prop := ∃ before, effects = before ++ [.finish] ∧ .finish ∉ before

theorem refuse_finishes (message : String) : Finishes (refuse message).effects :=
  ⟨[.emit (.error message)], rfl, by simp⟩

theorem handleChatSend_finishes (answers : Answers) (send : ChatSend) (owner : Option Uuid)
    (recent : Except String (List ConvMessage)) : Finishes (handleChatSend answers send owner recent).effects := by
  by_cases opens : Opens answers send ∧ ∃ list, recent = .ok list
  · obtain ⟨opens, list, rfl⟩ := opens
    rw [handleChatSend_opened opens]
    refine ⟨_, rfl, @Speaking.unfinished owner _ fun effect member => ?_⟩
    simp only [List.mem_append, List.mem_singleton, or_assoc] at member
    rcases member with first | rfl | later
    · exact .inl (mirror_answering owner _ _ _ effect first)
    · exact .inl trivial
    · exact turnLoop_speaking answers send owner _ _ effect later
  · have closed : Opens answers send → ∃ e, recent = .error e := by
      intro checked
      cases recent with
      | error e => exact ⟨e, rfl⟩
      | ok list => exact absurd ⟨checked, list, rfl⟩ opens
    obtain ⟨message, refused⟩ := @handleChatSend_refused answers send owner recent closed
    rw [refused]
    exact refuse_finishes message

theorem finish_not_mem_decideOverChat (answers : InboundAnswers) (approvals : ApprovalTable) (actor : GatewayActor)
    (approved : Bool) (id : Uuid) (sessionId : String) :
    .finish ∉ (decideOverChat answers approvals actor approved id sessionId).effects := by
  unfold decideOverChat
  split
  · simp [reply]
  · split
    · simp [reply]
    · dsimp only
      cases answers.decidedAt.bind fun now =>
        approvals.decide id actor.userId (if approved then .approved else .denied) now with
      | none => simp [reply]
      | some decided => simp [reply]

theorem handle_finishes (uuids : UuidText) (answers : InboundAnswers) (deliveries : List AlertDelivery)
    (approvals : ApprovalTable) (msg : InboundMessage) :
    Finishes (handle uuids answers deliveries approvals msg).effects := by
  unfold handle
  split
  · exact ⟨[_], rfl, by simp⟩
  · exact ⟨[_], rfl, by simp⟩
  · split
    · exact ⟨_, rfl, finish_not_mem_decideOverChat _ _ _ _ _ _⟩
    · exact handleChatSend_finishes _ _ _ _

theorem one_reply (uuids : UuidText) (answers : InboundAnswers) (deliveries : List AlertDelivery)
    (approvals : ApprovalTable) (msg : InboundMessage) :
    let effects := (handle uuids answers deliveries approvals msg).effects
    let calls := effects.filterMap Effect.sinkCall?
    let events := effects.filterMap event?
    calls = events.map .emit ++ [.finish] ∧ (BufferSink.new.run calls).sent = [replyText events] := by
  intro effects calls events
  obtain ⟨before, ends, unfinished⟩ := handle_finishes uuids answers deliveries approvals msg
  have shape : calls = events.map .emit ++ [.finish] := by
    simp only [calls, events, effects, ends, List.filterMap_append, sinkCalls_of_unfinished unfinished]
    simp [Effect.sinkCall?, event?]
  exact ⟨shape, shape ▸ sent_once events⟩

end Daimon.Proof.App
