import Daimon.Lib.Broadcast
import Daimon.Runtime.Bus

/-!
# Handler loops on the bus

`run_agent_loop` (`daimon-runtime/src/supervisor.rs`) over `InProcBus` (`daimon-runtime/src/bus.rs`): every
message on the bus goes to every subscribed receiver, and a loop passes to its agent's `handle` what is addressed
to it. The channel never closes, since each loop holds a sender, so a loop ends only when `handle` panics.
-/

namespace Daimon.Runtime
open Daimon.Core Lib

/-- An agent is its id and its capabilities; what its `handle` does is left open. -/
structure Agent where
  id : AgentId
  capabilities : List Capability
  deriving DecidableEq

/-- Who put a message on the bus: a dispatch call its request, a handler loop a reply to what it is
handling, or anyone else anything else. -/
inductive Source where
  | call (i : Nat)
  | loop (l : Nat)
  | other
  deriving DecidableEq

/-- An envelope on the bus. `serial` is its place there; `origin` is the serial of the message whose handling
led to it, directly or through replies to replies, and its own serial if it is not a reply. -/
structure Message (sv : Semver) where
  serial : Nat
  origin : Nat
  source : Source
  envelope : AgentEnvelope sv
  deriving DecidableEq

inductive LoopStatus where
  | created
  | subscribed
  | ended
  deriving DecidableEq, Repr

structure HandlerLoop (sv : Semver) where
  runner : Nat
  agent : Agent
  status : LoopStatus
  receiver : Receiver (Message sv)
  handling : Option (Message sv)
  deriving DecidableEq

inductive LoopAction where
  | subscribe
  | receive
  | finish
  | panic
  deriving DecidableEq, Repr

variable {sv : Semver}

namespace HandlerLoop

def start (runner : Nat) (agent : Agent) : HandlerLoop sv :=
  { runner, agent, status := .created, receiver := .new, handling := none }

def addressed (loop : HandlerLoop sv) (m : Message sv) : Bool :=
  envelopeAddressedTo m.envelope loop.agent.id loop.agent.capabilities

def deliver (loop : HandlerLoop sv) (m : Message sv) : HandlerLoop sv :=
  if loop.status = .subscribed then { loop with receiver := loop.receiver.deliver inProcBusCapacity m } else loop

/-- One step of the loop by itself, with the message it passes to `handle`, if it does. -/
def advance (loop : HandlerLoop sv) (action : LoopAction) : Option (HandlerLoop sv × Option (Message sv)) :=
  match loop.status, action, loop.handling with
  | .created, .subscribe, _ => some ({ loop with status := .subscribed, receiver := .new }, none)
  | .subscribed, .receive, none =>
      match loop.receiver.recv with
      | some (.item m, rx) =>
          if loop.addressed m then some ({ loop with receiver := rx, handling := some m }, some m)
          else some ({ loop with receiver := rx }, none)
      -- a lag is logged and nothing else
      | some (.lagged _, rx) => some ({ loop with receiver := rx }, none)
      | none => none
  | .subscribed, .finish, some _ => some ({ loop with handling := none }, none)
  | .subscribed, .panic, some _ => some ({ loop with status := .ended, handling := none }, none)
  | _, _, _ => none

example (loop : HandlerLoop sv) (ended : loop.status = .ended) : loop.advance .receive = none := by
  simp only [advance, ended]

end HandlerLoop
end Daimon.Runtime
