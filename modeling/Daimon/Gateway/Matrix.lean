import Daimon.Driver.Reply
import Daimon.Gateway.Message
import Daimon.Lib.Percent
import Daimon.Lib.Text

/-!
# The Matrix adapter

`daimon-gateway/src/adapters/matrix.rs`: the transaction ids of what it sends, the `/sync` responses it reads, and the
loop of `run_ingress` with the homeserver's timeline and the saved cursor around it.
-/

namespace Daimon.Gateway.Matrix
open Daimon.Lib
open Daimon.Driver.NetworkResponse (structFields decodeOptional)

/-! ## Sending -/

inductive Outgoing where
  | reply (roomId text : String)
  | alert (recipient text : String)
  deriving DecidableEq, Repr

def Outgoing.room : Outgoing → String
  | .reply roomId _ => roomId
  | .alert recipient _ => recipient

def Outgoing.text : Outgoing → String
  | .reply _ text => text
  | .alert _ text => text

structure Put where
  room : String
  txn : UInt64
  text : String
  deriving DecidableEq, Repr

/-- `MatrixOutbound::send` and `deliver_alert` both take the next number of the adapter's counter. -/
def put (txn : UInt64) (out : Outgoing) : UInt64 × Put := (txn + 1, ⟨out.room, txn, out.text⟩)

def putsFrom : UInt64 → List Outgoing → List Put
  | _, [] => []
  | txn, out :: rest => (put txn out).2 :: putsFrom (put txn out).1 rest

def lifetimePuts (sent : List Outgoing) : List Put := putsFrom 1 sent

def puts (lifetimes : List (List Outgoing)) : List Put := lifetimes.flatMap lifetimePuts

def isUnreserved (c : Char) : Bool := c.isAlphanum || ['-', '_', '.', '~'].contains c

def urlencode (s : String) : String :=
  String.ofList (Percent.encode (fun b => isUnreserved (Char.ofNat b.toNat)) (bytesOf s))

/-- The address that `MatrixOutbound::send` puts the message to. -/
def Put.url (homeserver : String) (p : Put) : String :=
  homeserver ++ "/_matrix/client/v3/rooms/" ++ urlencode p.room ++ "/send/m.room.message/" ++ toString p.txn.toNat

/-- A homeserver that takes a known transaction id in a room for a retransmission, and drops it. -/
def keep (kept : List Put) (p : Put) : List Put :=
  if kept.any fun q => q.room = p.room && q.txn = p.txn then kept else kept ++ [p]

def homeserver (requests : List Put) : List Put := requests.foldl keep []

/-! ## Reading `/sync` -/

structure EventContent where
  msgtype : Option String
  body : Option String
  /-- `m.relates_to`, `m.in_reply_to` and `event_id`, where all three are there. -/
  replyTo : Option String
  deriving DecidableEq, Repr

structure Event where
  kind : String
  sender : String
  content : EventContent
  deriving DecidableEq, Repr

/-- A response whose timeline events are read by `ε`'s decoder; the objects around them have one field each. -/
structure SyncResponse (ε : Type) where
  nextBatch : String
  join : List (String × List ε)

/-- A field with `#[serde(default)]` that is not an `Option`: only an absent one is the default. -/
def decodeDefault {α : Type} (default : α) (decode : Json → Option α) : Option Json → Option α
  | none => some default
  | some value => decode value

def decodeInReplyTo (value : Json) : Option (Option String) :=
  match structFields ["event_id"] value with
  | some [eventId] => decodeOptional Json.asStr? eventId
  | _ => none

def decodeRelatesTo (value : Json) : Option (Option String) :=
  match structFields ["m.in_reply_to"] value with
  | some [inReplyTo] => (decodeOptional decodeInReplyTo inReplyTo).map Option.join
  | _ => none

def decodeContent (value : Json) : Option EventContent :=
  match structFields ["msgtype", "body", "m.relates_to"] value with
  | some [msgtype, body, relatesTo] => do
      let msgtype ← decodeOptional Json.asStr? msgtype
      let body ← decodeOptional Json.asStr? body
      let relatesTo ← decodeOptional decodeRelatesTo relatesTo
      return { msgtype, body, replyTo := relatesTo.join }
  | _ => none

def Event.fromValue (value : Json) : Option Event :=
  match structFields ["type", "sender", "content"] value with
  | some [kind, sender, content] => do
      let kind ← kind.bind Json.asStr?
      let sender ← decodeDefault "" Json.asStr? sender
      let content ← decodeDefault ⟨none, none, none⟩ decodeContent content
      return { kind, sender, content }
  | _ => none

namespace SyncResponse
variable {ε : Type} (event : Json → Option ε)

def decodeEvents : Json → Option (List ε)
  | .array items => items.mapM event
  | _ => none

def decodeTimeline (value : Json) : Option (List ε) :=
  match structFields ["events"] value with
  | some [events] => decodeDefault [] (decodeEvents event) events
  | _ => none

def decodeJoinedRoom (value : Json) : Option (List ε) :=
  match structFields ["timeline"] value with
  | some [timeline] => decodeDefault [] (decodeTimeline event) timeline
  | _ => none

def decodeJoin : Json → Option (List (String × List ε))
  | .object rooms => rooms.mapM fun room => (decodeJoinedRoom event room.2).map (room.1, ·)
  | _ => none

def decodeRooms (value : Json) : Option (List (String × List ε)) :=
  match structFields ["join"] value with
  | some [join] => decodeDefault [] (decodeJoin event) join
  | _ => none

def fromValue (value : Json) : Option (SyncResponse ε) :=
  match structFields ["next_batch", "rooms"] value with
  | some [nextBatch, rooms] => do
      let nextBatch ← nextBatch.bind Json.asStr?
      let join ← decodeDefault [] (decodeRooms event) rooms
      return { nextBatch, join }
  | _ => none

end SyncResponse

/-- The message of a text event, as `text_messages` and `dispatch_sync` make it. -/
def Event.message (roomId : String) (ev : Event) : Option InboundMessage :=
  if ev.kind ≠ "m.room.message" then none
  else if ev.content.msgtype ≠ some "m.text" then none
  else
    ev.content.body.bind fun body =>
      if trim body = "" then none
      else some {
        channel := "matrix", platformHandle := ev.sender, text := body,
        correlation := { thread := some roomId, replyTo := roomId }, replyToMessageId := ev.content.replyTo }

/-- The order in which a hash map gives its entries. -/
structure HashOrder where
  order : List (String × List Event) → List (String × List Event)
  perm : ∀ rooms, (order rooms).Perm rooms

def textMessages (hash : HashOrder) (sync : SyncResponse Event) : List InboundMessage :=
  (hash.order sync.join).flatMap fun room => room.2.filterMap (Event.message room.1)

/-- What one iteration hands to the handler, and the cursor it goes on to; without a response that decodes, the
iteration starts over. -/
def iteration (hash : HashOrder) (botId : String) (response : Option Json) : Option (List InboundMessage × String) := do
  let value ← response
  let sync ← SyncResponse.fromValue Event.fromValue value
  return ((textMessages hash sync).filter fun msg => msg.platformHandle ≠ botId, sync.nextBatch)

/-! ## The loop -/

inductive Poller where
  | down
  | starting
  | cold
  | seeding (next : String)
  | polling (since : String)
  | dispatching (since : String) (pending : List InboundMessage) (next : String)
  deriving DecidableEq, Repr

/-- The homeserver's timeline of the joined rooms, the row of `app_config`, the poller, and what the handler was
given. `seed` is the length of the timeline at the first start that got as far as the loop. -/
structure World where
  timeline : List (String × Json)
  row : Option String
  poller : Poller
  handled : List InboundMessage
  seed : Option Nat

def World.new (timeline : List (String × Json)) : World := ⟨timeline, none, .down, [], none⟩

inductive Label where
  | post (roomId : String) (event : Json)
  | whoami (answered : Bool)
  | load (answered : Bool)
  | initial (response : Option Json)
  | sync (response : Option Json)
  /-- The handler returns from the next message. -/
  | handle
  | save (outcome : Saved)
  | crash

def step (hash : HashOrder) (botId : String) (w : World) : Label → Option World
  | .post roomId event => some { w with timeline := w.timeline ++ [(roomId, event)] }
  | .whoami answered =>
      match w.poller with
      | .down => some { w with poller := if answered then .starting else .down }
      | _ => none
  | .load answered =>
      match w.poller with
      | .starting =>
          match loadCursor answered w.row with
          | some since => some { w with poller := .polling since }
          | none => some { w with poller := .cold }
      | _ => none
  | .initial response =>
      match w.poller with
      | .cold =>
          match response.bind (SyncResponse.fromValue Event.fromValue) with
          | some sync =>
              some { w with poller := .seeding sync.nextBatch, seed := w.seed.or (some w.timeline.length) }
          | none => some { w with poller := .down }
      | _ => none
  | .sync response =>
      match w.poller with
      | .polling since =>
          match iteration hash botId response with
          | some (messages, next) => some { w with poller := .dispatching since messages next }
          | none => some w
      | _ => none
  | .handle =>
      match w.poller with
      | .dispatching since (msg :: pending) next =>
          some { w with poller := .dispatching since pending next, handled := w.handled ++ [msg] }
      | _ => none
  | .save outcome =>
      match w.poller with
      | .seeding next | .dispatching _ [] next =>
          some { w with row := outcome.store next w.row, poller := .polling next }
      | _ => none
  | .crash => some { w with poller := .down }

end Daimon.Gateway.Matrix
