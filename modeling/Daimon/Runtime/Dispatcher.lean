import Daimon.Runtime.Registry
import Daimon.Runtime.Traffic

/-!
# Dispatch calls

`Dispatcher::dispatch` (`daimon-runtime/src/dispatcher.rs`), one step for each thing it does that others can
see or that the clock can pass between. The bus outlives the call, which holds a sender of it, so neither the
`BusClosed` arm nor an error of `send` is reached. Times and durations are in nanoseconds.
-/

namespace Daimon.Runtime
open Daimon.Core Lib

namespace Dispatcher

inductive DispatchError where
  | capabilityNotFound (what : String)
  | timeout (duration : Nat)
  | busClosed
  | core (error : CoreError)
  deriving DecidableEq, Repr

/-- Where a call stands. `poll` has computed what remains of its time, `recv` waits for the bus and for its timer. -/
inductive Phase where
  | resolve
  | subscribe
  | send
  | arm
  | check
  | poll (remaining : Nat)
  | recv (timer : Nat)
  | returned (outcome : Except DispatchError Json)
  deriving DecidableEq

inductive CallAction where
  | resolve
  | subscribe
  | arm
  | check
  | poll
  | receive
  | timeout
  deriving DecidableEq, Repr

/-- The arguments of a call and its local variables, which are `none` until they are set. -/
structure Call (sv : Semver) where
  sender : AgentId
  name : String
  versionReq : sv.VersionReq
  body : Json
  timeout : Nat
  phase : Phase
  receiver : Option (Receiver (Message sv))
  request : Option (Message sv)
  deadline : Option Nat
  deriving DecidableEq

variable {sv : Semver}

namespace Call

def new (sender : AgentId) (name : String) (versionReq : sv.VersionReq) (body : Json) (timeout : Nat) : Call sv :=
  { sender, name, versionReq, body, timeout, phase := .resolve, receiver := none, request := none, deadline := none }

def hasReturned (call : Call sv) : Bool :=
  match call.phase with
  | .returned _ => true
  | _ => false

def deliver (call : Call sv) (m : Message sv) : Call sv :=
  if call.hasReturned then call
  else { call with receiver := call.receiver.map fun rx => rx.deliver inProcBusCapacity m }

def envelope (call : Call sv) (correlationId : Uuid) : AgentEnvelope sv :=
  { correlationId, sender := call.sender, recipient := .byCapability call.name call.versionReq, body := call.body }

def accepts (call : Call sv) (m : Message sv) : Bool :=
  match call.request with
  | some request =>
      m.envelope.correlationId == request.envelope.correlationId && m.envelope.recipient == .direct call.sender
  | none => false

def awaits (call : Call sv) (request : Message sv) : Call sv :=
  { call with phase := .arm, request := some request }

def returns (call : Call sv) (outcome : Except DispatchError Json) : Call sv :=
  { call with phase := .returned outcome }

/-- One step of the call by itself; its `send` is a step of the bus. -/
def advance (now : Nat) (registry : CapabilityRegistry) (call : Call sv) (action : CallAction) : Option (Call sv) :=
  match call.phase, action with
  | .resolve, .resolve =>
      match registry.requireByCapability sv call.name call.versionReq with
      | .ok _ => some { call with phase := .subscribe }
      | .error _ =>
          some (call.returns (.error (.capabilityNotFound (call.name ++ " @ " ++ sv.display call.versionReq))))
  | .subscribe, .subscribe => some { call with phase := .send, receiver := some .new }
  | .arm, .arm => some { call with phase := .check, deadline := some (now + call.timeout) }
  | .check, .check =>
      call.deadline.map fun deadline =>
        if deadline - now = 0 then call.returns (.error (.timeout call.timeout))
        else { call with phase := .poll (deadline - now) }
  | .poll remaining, .poll => some { call with phase := .recv (now + remaining) }
  | .recv _, .receive =>
      match call.receiver.bind Receiver.recv with
      | some (.item m, rx) =>
          let call := { call with receiver := some rx }
          some (if call.accepts m then call.returns (.ok m.envelope.body) else { call with phase := .check })
      | some (.lagged _, rx) => some { call with phase := .check, receiver := some rx }
      | none => none
  -- the timer is looked at after the bus, and a message may arrive in between
  | .recv timer, .timeout => if timer ≤ now then some (call.returns (.error (.timeout call.timeout))) else none
  | _, _ => none

example (call : Call sv) (arming : call.phase = .arm) (now : Nat) (registry : CapabilityRegistry) :
    call.advance now registry .arm = some { call with phase := .check, deadline := some (now + call.timeout) } := by
  simp only [advance, arming]

end Call
end Dispatcher

/-! ## The bus -/

open Dispatcher

/-- Everyone on the bus. `handled` lists, in order, which loop passed which message to `handle`. -/
structure Traffic (sv : Semver) where
  loops : List (HandlerLoop sv)
  calls : List (Call sv)
  bus : List (Message sv)
  handled : List (Nat × Nat)
  deriving DecidableEq

namespace Traffic

variable {sv : Semver}

def new : Traffic sv := { loops := [], calls := [], bus := [], handled := [] }

/-- The message that an envelope becomes on the bus; `parent` is the message it replies to, if any. -/
def message (t : Traffic sv) (source : Source) (parent : Option (Message sv)) (envelope : AgentEnvelope sv) :
    Message sv :=
  { serial := t.bus.length, origin := (parent.map Message.origin).getD t.bus.length, source, envelope }

def put (t : Traffic sv) (m : Message sv) : Traffic sv :=
  { t with
    bus := t.bus ++ [m]
    loops := t.loops.map fun loop => loop.deliver m
    calls := t.calls.map fun call => call.deliver m }

def send (t : Traffic sv) (i : Nat) (correlationId : Uuid) : Option (Traffic sv) :=
  match t.calls[i]? with
  | some call =>
      match call.phase with
      | .send =>
          let m := t.message (.call i) none (call.envelope correlationId)
          let sent := t.put m
          some { sent with calls := sent.calls.modify i fun c => c.awaits m }
      | _ => none
  | none => none

/-- `AgentEnvelope::reply_to` on the envelope being handled, then `send`. -/
def reply (t : Traffic sv) (l : Nat) (sender : AgentId) (body : Json) : Option (Traffic sv) :=
  match t.loops[l]? with
  | some loop =>
      match loop.handling with
      | some m => some (t.put (t.message (.loop l) (some m) (m.envelope.replyTo sender body)))
      | none => none
  | none => none

def advanceCall (t : Traffic sv) (now : Nat) (registry : CapabilityRegistry) (i : Nat) (action : CallAction) :
    Option (Traffic sv) :=
  match t.calls[i]? with
  | some call => (call.advance now registry action).map fun after => { t with calls := t.calls.set i after }
  | none => none

def advanceLoop (t : Traffic sv) (l : Nat) (action : LoopAction) : Option (Traffic sv) :=
  match t.loops[l]? with
  | some loop => (loop.advance action).map fun (after, passed) =>
      { t with
        loops := t.loops.set l after
        handled := t.handled ++ (passed.map fun m => (l, m.serial)).toList }
  | none => none

end Traffic
end Daimon.Runtime
