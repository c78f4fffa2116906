import Mathlib.Logic.Function.Basic
import Daimon.Driver.Reply
import Daimon.Lib.Serde

/-!
# Working memory

The two backends of the `WorkingMemory` trait (`daimon-redis/src/inproc.rs`, `daimon-redis/src/redis_impl.rs`). Times
are in nanoseconds; an operation takes effect at one time. The Redis server is modelled by its documented commands on
one keyspace, and the time at which a key past its deadline is taken away is left to the server.
-/

namespace Daimon.Redis
open Daimon.Lib
open Daimon.Driver (presentFields)
open Daimon.Driver.NetworkResponse (structFields decodeOptional)

structure ConvMessage where
  role : String
  content : String
  toolUseId : Option String
  ts : Int
  deriving DecidableEq, Repr

namespace ConvMessage

def toValue (times : TimeText) (m : ConvMessage) : Json :=
  presentFields [("role", some (.string m.role)), ("content", some (.string m.content)),
    ("tool_use_id", m.toolUseId.map .string), ("ts", some (.string (times.display m.ts)))]

def fromValue (times : TimeText) (value : Json) : Option ConvMessage :=
  match structFields ["role", "content", "tool_use_id", "ts"] value with
  | some [role, content, toolUseId, ts] => do
      let role ← role.bind Json.asStr?
      let content ← content.bind Json.asStr?
      let toolUseId ← decodeOptional Json.asStr? toolUseId
      let ts ← (ts.bind Json.asStr?).bind times.parse
      return { role, content, toolUseId, ts }
  | _ => none

end ConvMessage

structure Duration where
  secs : UInt64
  nanos : Fin 1000000000
  deriving DecidableEq, Repr

namespace Duration

def isZero (d : Duration) : Bool := d.secs = 0 && d.nanos = 0

def asNanos (d : Duration) : Nat := d.secs.toNat * 1000000000 + d.nanos

end Duration

inductive Op where
  | convPush (sessionId : String) (msg : ConvMessage)
  | convRecent (sessionId : String) (n : UInt64)
  | kvSet (agentId key : String) (value : Json) (ttl : Duration)
  | kvGet (agentId key : String)
  | kvDelete (agentId key : String)
  deriving DecidableEq

def Op.isRead : Op → Bool
  | .convRecent _ _ | .kvGet _ _ => true
  | _ => false

inductive Error where
  | redis (message : String)
  | decode (message : String)
  deriving DecidableEq, Repr

inductive Answer where
  | done
  | messages (list : List ConvMessage)
  | value (found : Option Json)
  | failed (error : Error)
  | panicked
  deriving DecidableEq

def reads {σ : Type} (step : σ → Nat → Op → σ × Answer) : σ → List (Nat × Op) → List Answer
  | _, [] => []
  | s, (now, op) :: rest =>
      if op.isRead then (step s now op).2 :: reads step (step s now op).1 rest
      else reads step (step s now op).1 rest

/-! ## In process -/

structure Inner where
  conv : String → List ConvMessage
  kv : String → Option (Json × Option Nat)

namespace InProc

def new : Inner := ⟨fun _ => [], fun _ => none⟩

def kvKey (agentId key : String) : String := agentId ++ ":" ++ key

/-- The sum of an instant and a duration must fit the seconds of a timespec, an `i64`. -/
def instantFits (t : Nat) : Bool := t < 0x8000000000000000 * 1000000000

def expired (now : Nat) : Option (Json × Option Nat) → Bool
  | some (_, some deadline) => deadline < now
  | _ => false

def step (s : Inner) (now : Nat) : Op → Inner × Answer
  | .convPush sessionId msg =>
      ({ s with conv := Function.update s.conv sessionId (s.conv sessionId ++ [msg]) }, .done)
  | .convRecent sessionId n =>
      let list := s.conv sessionId
      let start := list.length - n.toNat
      (s, .messages (list.drop start))
  | .kvSet agentId key value ttl =>
      if ttl.isZero then
        ({ s with kv := Function.update s.kv (kvKey agentId key) (some (value, none)) }, .done)
      else if instantFits (now + ttl.asNanos) then
        ({ s with kv := Function.update s.kv (kvKey agentId key) (some (value, some (now + ttl.asNanos))) }, .done)
      else (s, .panicked)
  | .kvGet agentId key =>
      let k := kvKey agentId key
      let kv := if expired now (s.kv k) then Function.update s.kv k none else s.kv
      ({ s with kv }, .value ((kv k).map Prod.fst))
  | .kvDelete agentId key => ({ s with kv := Function.update s.kv (kvKey agentId key) none }, .done)

end InProc

/-! ## The server -/

inductive Stored (Text : Type) where
  | string (text : Text)
  | list (items : List Text)

structure Entry (Text : Type) where
  stored : Stored Text
  expireAt : Option Nat

abbrev Keyspace (Text : Type) := String → Option (Entry Text)

/-- When a key with a deadline is gone: never before the deadline, and at most a millisecond after it. -/
structure Server where
  gone : (deadline now : Nat) → Bool
  kept : ∀ {deadline now}, now < deadline → gone deadline now = false
  removed : ∀ {deadline now}, deadline + 1000000 ≤ now → gone deadline now = true

def Server.millis : Server where
  gone deadline now := deadline / 1000000 < now / 1000000
  kept := by
    intro deadline now before
    exact decide_eq_false (by omega)
  removed := by
    intro deadline now after
    exact decide_eq_true (by omega)

namespace Server
variable {Text : Type} (server : Server)

def wrongType : Error := .redis "WRONGTYPE Operation against a key holding the wrong kind of value"

def invalidExpire : Error := .redis "ERR invalid expire time in 'setex' command"

def lookup (ks : Keyspace Text) (now : Nat) (key : String) : Option (Entry Text) :=
  (ks key).filter fun entry => entry.expireAt.all fun deadline => !server.gone deadline now

def rpush (ks : Keyspace Text) (now : Nat) (key : String) (text : Text) : Except Error (Keyspace Text) :=
  match server.lookup ks now key with
  | none => .ok (Function.update ks key (some ⟨.list [text], none⟩))
  | some ⟨.list items, expireAt⟩ => .ok (Function.update ks key (some ⟨.list (items ++ [text]), expireAt⟩))
  | some ⟨.string _, _⟩ => .error wrongType

def expire (ks : Keyspace Text) (now : Nat) (key : String) (secs : Nat) : Keyspace Text :=
  match server.lookup ks now key with
  | none => ks
  | some entry => Function.update ks key (some { entry with expireAt := some (now + secs * 1000000000) })

def llen (ks : Keyspace Text) (now : Nat) (key : String) : Except Error Nat :=
  match server.lookup ks now key with
  | none => .ok 0
  | some ⟨.list items, _⟩ => .ok items.length
  | some ⟨.string _, _⟩ => .error wrongType

/-- `LRANGE key start -1` for a `start` that is not negative. -/
def lrange (ks : Keyspace Text) (now : Nat) (key : String) (start : Nat) : Except Error (List Text) :=
  match server.lookup ks now key with
  | none => .ok []
  | some ⟨.list items, _⟩ => .ok (items.drop start)
  | some ⟨.string _, _⟩ => .error wrongType

/-- The deadline in milliseconds must fit an `i64`. -/
def setexAccepts (now secs : Nat) : Bool := secs * 1000 + now / 1000000 < 0x8000000000000000

def setEx (ks : Keyspace Text) (now : Nat) (key : String) (text : Text) (secs : Nat) :
    Except Error (Keyspace Text) :=
  if setexAccepts now secs then
    .ok (Function.update ks key (some ⟨.string text, some (now + secs * 1000000000)⟩))
  else .error invalidExpire

def get (ks : Keyspace Text) (now : Nat) (key : String) : Except Error (Option Text) :=
  match server.lookup ks now key with
  | none => .ok none
  | some ⟨.string text, _⟩ => .ok (some text)
  | some ⟨.list _, _⟩ => .error wrongType

def del (ks : Keyspace Text) (key : String) : Keyspace Text := Function.update ks key none

end Server

/-! ## Redis -/

namespace RedisWorkingMemory
variable {Text : Type} (server : Server) (texts : JsonText Text) (times : TimeText)

def new : Keyspace Text := fun _ => none

def convKey (sessionId : String) : String := "daimon:conv:" ++ sessionId

def kvKey (agentId key : String) : String := "daimon:kv:" ++ agentId ++ ":" ++ key

/-- `n as isize`, and the subtraction on `isize`. -/
def start (len n : Nat) : Nat :=
  ((len - (n : Int).bmod 0x10000000000000000).bmod 0x10000000000000000).toNat

def decodeConv (text : Text) : Except Error ConvMessage :=
  match texts.decode text with
  | .error e => .error (.decode ("conv decode: " ++ e))
  | .ok value =>
      match ConvMessage.fromValue times value with
      | none => .error (.decode ("conv decode: " ++ texts.shapeError text))
      | some m => .ok m

def convRecent (ks : Keyspace Text) (now : Nat) (sessionId : String) (n : UInt64) :
    Except Error (List ConvMessage) := do
  let key := convKey sessionId
  let len ← server.llen ks now key
  let raw ← server.lrange ks now key (start len n.toNat)
  raw.mapM (decodeConv texts times)

def kvGet (ks : Keyspace Text) (now : Nat) (agentId key : String) : Except Error (Option Json) := do
  match ← server.get ks now (kvKey agentId key) with
  | some text =>
      match texts.decode text with
      | .error e => throw (.decode ("kv decode: " ++ e))
      | .ok value => return some value
  | none => return none

def step (ks : Keyspace Text) (now : Nat) : Op → Keyspace Text × Answer
  | .convPush sessionId msg =>
      let key := convKey sessionId
      match server.rpush ks now key (texts.encode (msg.toValue times)) with
      | .error e => (ks, .failed e)
      | .ok ks => (server.expire ks now key 86400, .done)
  | .convRecent sessionId n =>
      match convRecent server texts times ks now sessionId n with
      | .error e => (ks, .failed e)
      | .ok list => (ks, .messages list)
  | .kvSet agentId key value ttl =>
      match Server.setEx ks now (kvKey agentId key) (texts.encode value) (max ttl.secs.toNat 1) with
      | .error e => (ks, .failed e)
      | .ok ks => (ks, .done)
  | .kvGet agentId key =>
      match kvGet server texts ks now agentId key with
      | .error e => (ks, .failed e)
      | .ok found => (ks, .value found)
  | .kvDelete agentId key => (Server.del ks (kvKey agentId key), .done)

end RedisWorkingMemory
end Daimon.Redis
