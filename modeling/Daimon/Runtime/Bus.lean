import Daimon.Core.Capability

/-!
# The bus

Envelopes and the in-process bus (`daimon-core/src/envelope.rs`, `daimon-runtime/src/bus.rs`): every envelope
goes to every subscriber, and each agent filters by the recipient (`daimon-runtime/src/supervisor.rs`). The
audit metadata of an envelope is left out.
-/

namespace Daimon.Runtime
open Daimon.Core Lib

inductive Recipient (sv : Semver) where
  | direct (id : AgentId)
  | byCapability (name : String) (versionReq : sv.VersionReq)
  deriving DecidableEq

structure AgentEnvelope (sv : Semver) where
  correlationId : Uuid
  sender : AgentId
  recipient : Recipient sv
  body : Json
  deriving DecidableEq

variable {sv : Semver}

namespace AgentEnvelope

def replyTo (request : AgentEnvelope sv) (sender : AgentId) (body : Json) : AgentEnvelope sv :=
  { correlationId := request.correlationId, sender, recipient := .direct request.sender, body }

def isRequest (env : AgentEnvelope sv) : Bool :=
  match env.recipient with
  | .byCapability _ _ => true
  | .direct _ => false

end AgentEnvelope

def envelopeAddressedTo (env : AgentEnvelope sv) (me : AgentId) (myCapabilities : List Capability) : Bool :=
  match env.recipient with
  | .direct id => id == me
  | .byCapability name versionReq =>
      myCapabilities.any fun cap => cap.name == name && sv.satisfies versionReq cap.version

def inProcBusCapacity : Nat := 1024

/-- What a receiver holds after one more envelope: a receiver that lags behind loses the oldest. -/
def enqueue (backlog : List (AgentEnvelope sv)) (env : AgentEnvelope sv) : List (AgentEnvelope sv) :=
  if backlog.length < inProcBusCapacity then backlog ++ [env] else backlog.tail ++ [env]

theorem mem_enqueue {backlog : List (AgentEnvelope sv)} {env e : AgentEnvelope sv}
    (member : e ∈ enqueue backlog env) :
    e ∈ backlog ∨ e = env := by
  unfold enqueue at member
  split at member
  · simpa using member
  · rcases List.mem_append.mp member with kept | new
    · exact Or.inl (List.mem_of_mem_tail kept)
    · exact Or.inr (List.mem_singleton.mp new)

end Daimon.Runtime
