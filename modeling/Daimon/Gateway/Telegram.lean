import Daimon.Driver.Param
import Daimon.Gateway.Message
import Daimon.Lib.Text

/-!
# The Telegram poller

`TelegramPollAdapter` of `daimon-gateway/src/adapters/telegram.rs`: the loop of `run_ingress` between Telegram's queue
of updates and the saved offset. The log of a world holds what happened, the latest first.
-/

namespace Daimon.Gateway.Telegram
open Daimon.Lib Daimon.Driver

structure TgMessage where
  text : Option String
  sender : Option Int
  chat : Int
  replyToMessage : Option Int
  deriving DecidableEq, Repr

structure Update where
  updateId : Int
  message : Option TgMessage
  deriving DecidableEq, Repr

def updateToInbound (update : Update) : Except GatewayError InboundMessage :=
  match update.message with
  | none => .error (.ignored "update has no message")
  | some message =>
      match message.text.filter fun text => trim text ≠ "" with
      | none => .error (.ignored "message has no text")
      | some text =>
          match message.sender with
          | none => .error (.ignored "message has no sender")
          | some sender => .ok {
              channel := "telegram", platformHandle := toString sender, text,
              correlation := { thread := some (toString message.chat), replyTo := toString message.chat },
              replyToMessageId := message.replyToMessage.map toString }

/-- `update_id + 1` on `i64`. -/
def next (update : Update) : Int := (update.updateId + 1).bmod 0x10000000000000000

inductive Poller where
  | down
  | starting
  | polling (offset : Option Int)
  /-- The first update is next in the response. -/
  | batch (update : Update) (rest : List Update)
  | handling (update : Update) (msg : InboundMessage) (rest : List Update)
  | saving (next : Int) (rest : List Update)
  deriving DecidableEq, Repr

inductive Entry where
  | posted (update : Update)
  | started
  /-- A crash, or a failed load or save of the cursor. -/
  | trouble
  | sent (offset : Int)
  /-- The offset reached the server, which forgets what is below it. -/
  | acked (offset : Int)
  | handled (msg : InboundMessage)
  | passed (update : Update)
  | saved (offset : Int)
  deriving DecidableEq, Repr

structure World where
  pending : List Update
  lastId : Option Int
  row : Option String
  poller : Poller
  log : List Entry

def World.new : World := ⟨[], none, none, .down, []⟩

inductive Fetched where
  | unreached
  /-- The server has seen the offset, but its response is lost or not understood. -/
  | lost
  | answered (count : Nat)
  deriving DecidableEq, Repr

inductive Label where
  | post (update : Update)
  | start
  | load (answered : Bool)
  | fetch (outcome : Fetched)
  | inbound
  | handlerReturns
  | save (outcome : Saved)
  | crash
  deriving DecidableEq, Repr

/-- Update ids are positive, they increase, and the next one is an `i64` too. -/
def idFollows (lastId : Option Int) (id : Int) : Bool :=
  0 < id && id < 0x7fffffffffffffff && lastId.all (· < id)

def afterOffset (offset : Option Int) (pending : List Update) : List Update :=
  match offset with
  | some o => pending.filter fun u => o ≤ u.updateId
  | none => pending

def next? (offset : Option Int) : List Update → Poller
  | [] => .polling offset
  | u :: rest => .batch u rest

def step (w : World) : Label → Option World
  | .post update =>
      if idFollows w.lastId update.updateId then
        some { w with
          pending := w.pending ++ [update], lastId := some update.updateId, log := .posted update :: w.log }
      else none
  | .start =>
      match w.poller with
      | .down => some { w with poller := .starting, log := .started :: w.log }
      | _ => none
  | .load answered =>
      match w.poller with
      | .starting => some { w with
          poller := .polling ((loadCursor answered w.row).bind fun text => parseI64 text.toList)
          log := if answered then w.log else .trouble :: w.log }
      | _ => none
  | .fetch outcome =>
      match w.poller with
      | .polling offset =>
          let sent := (offset.map Entry.sent).toList ++ w.log
          let acked := (offset.map Entry.acked).toList ++ sent
          match outcome with
          | .unreached => some { w with log := sent }
          | .lost => some { w with pending := afterOffset offset w.pending, log := acked }
          | .answered count => some { w with
              pending := afterOffset offset w.pending
              poller := next? offset ((afterOffset offset w.pending).take count)
              log := acked }
      | _ => none
  | .inbound =>
      match w.poller with
      | .batch update rest =>
          match updateToInbound update with
          | .ok msg => some { w with poller := .handling update msg rest }
          | .error _ => some { w with poller := .saving (next update) rest, log := .passed update :: w.log }
      | _ => none
  | .handlerReturns =>
      match w.poller with
      | .handling update msg rest =>
          some { w with poller := .saving (next update) rest, log := .passed update :: .handled msg :: w.log }
      | _ => none
  | .save outcome =>
      match w.poller with
      | .saving offset rest =>
          let written := if outcome.written then .saved offset :: w.log else w.log
          some { w with
            row := outcome.store (toString offset) w.row
            poller := next? (some offset) rest
            log := if outcome = .done then written else .trouble :: written }
      | _ => none
  | .crash => some { w with poller := .down, log := .trouble :: w.log }

end Daimon.Gateway.Telegram
