import Daimon.Broker.Request
import Daimon.Guard.PreFlight
import Daimon.Lib.Run

/-!
# The action broker

`Broker::execute_inner` and `Broker::lint_write_capabilities` (`daimon-broker/src/broker.rs`). A world
holds any number of `execute` calls over one guard; operators, the kill switch and the clock act
between any two of their steps. The audit event that `execute` emits after its result is known is
left out: it reads the result and changes none of this state.
-/

namespace Daimon.Broker
open Daimon.Core Lib
open Guard (PreFlight ApprovalStatus)

structure Config where
  guard : Option Guard.Config
  transports : List TransportKind
  deriving DecidableEq

def Config.withGuard (b : Config) (guard : Guard.Config) : Config := { b with guard := some guard }

/-! ## Boot lint -/

namespace Config

def lintCapability (b : Config) (present : List String) (cap : Capability) : Except String Unit :=
  match cap.compensating.filter fun comp => !present.contains comp.name with
  | some comp => .error ("capability `" ++ cap.name ++ "` names compensator `" ++ comp.name ++
      "` which is not present in the registered capability set — " ++
      "saga rollback would have nothing to dispatch")
  | none =>
      if cap.isRead then .ok ()
      else
        match b.guard with
        | some guard =>
            if (guard.policy.evaluate cap.name).decision = .allow then
              .error ("write capability `" ++ cap.name ++ "` resolves to Allow under the shipped " ++
                "policy — must be deny or require_approval")
            else .ok ()
        | none => .ok ()

def lintWriteCapabilities (b : Config) (caps : List Capability) : Except String Unit :=
  caps.forM (lintCapability b (caps.map Capability.name))

end Config

/-! ## Execution -/

inductive BrokerError where
  | inventory (error : InventoryError)
  | vault (error : VaultError)
  | transport (error : TransportError)
  | guard (error : Guard.Error)
  | credentialRefParse (error : CredentialRef.ParseError)
  | noTransport (kind : TransportKind)
  deriving DecidableEq

inductive Phase where
  | preFlight (phase : Guard.Phase)
  | inventory
  | vault (managed : ManagedTarget) (ref : CredentialRef)
  | dispatch (managed : ManagedTarget) (credential : Credential)
  | transport
  | done (result : Except BrokerError OpResult)
  | panicked
  deriving DecidableEq

structure Call where
  req : ExecRequest
  phase : Phase
  deriving DecidableEq

inductive Event where
  | guard (call : Nat) (event : Guard.Event)
  | transportStarted (call : Nat) (target : TransportTarget) (op : Op) (credential : Credential)
  deriving DecidableEq

structure World where
  guard : Guard.State
  calls : List Call
  log : List Event
  deriving DecidableEq

def World.new : World := { guard := .new, calls := [], log := [] }

inductive Answer where
  | guard (answer : Guard.Answer)
  | managed (result : Except InventoryError ManagedTarget)
  | credential (result : Except VaultError Credential)
  | go
  | executed (result : Except TransportError OpResult)
  deriving DecidableEq

inductive Action where
  | submit (req : ExecRequest)
  | advance (call : Nat) (answer : Answer)
  | decide (id operator : Uuid) (status : ApprovalStatus)
  | engage (reason : String)
  | release
  | setApprovalTimeoutSecs (secs : Nat)
  | setBus
  | elapse (millis : Nat)
  deriving DecidableEq

def preFlightArgs (req : ExecRequest) : PreFlight where
  subject := {
    actorId := req.actorId
    capability := req.guardCapability
    targetRef := some req.targetRef.display
    params := Json.ofFields [("target_ref", .string req.targetRef.display),
      ("op_summary", .string (opSummaryFor req.op))] }
  isReadOnly := req.deriveReadOnly

def firstPhase (b : Config) : Phase :=
  match b.guard with
  | some _ => .preFlight .killCheck
  | none => .inventory

structure CallStep where
  guard : Guard.State
  events : List Event
  phase : Phase
  deriving DecidableEq

def afterPreFlight : Guard.Outcome → Phase
  | .next phase => .preFlight phase
  | .returned (.ok ()) => .inventory
  | .returned (.error e) => .done (.error (.guard e))
  | .panicked => .panicked

def stepCall (b : Config) (s : Guard.State) (i : Nat) (req : ExecRequest) :
    Phase → Answer → Option CallStep
  | .preFlight phase, .guard answer =>
      match b.guard with
      | some guard => (Guard.advance guard s (preFlightArgs req) phase answer).map fun r =>
          ⟨r.state, r.events.map (.guard i), afterPreFlight r.outcome⟩
      | none => none
  | .inventory, .managed (.ok managed) =>
      match CredentialRef.parse managed.credentialRef with
      | .ok ref => some ⟨s, [], .vault managed ref⟩
      | .error e => some ⟨s, [], .done (.error (.credentialRefParse e))⟩
  | .inventory, .managed (.error e) => some ⟨s, [], .done (.error (.inventory e))⟩
  | .vault managed _, .credential (.ok credential) => some ⟨s, [], .dispatch managed credential⟩
  | .vault _ _, .credential (.error e) => some ⟨s, [], .done (.error (.vault e))⟩
  | .dispatch managed credential, .go =>
      if managed.transport ∈ b.transports then
        some ⟨s, [.transportStarted i ⟨managed.host, managed.port⟩ req.op credential], .transport⟩
      else some ⟨s, [], .done (.error (.noTransport managed.transport))⟩
  | .transport, .executed (.ok result) => some ⟨s, [], .done (.ok result)⟩
  | .transport, .executed (.error e) => some ⟨s, [], .done (.error (.transport e))⟩
  | _, _ => none

def step (b : Config) (w : World) : Action → Option World
  | .submit req => some { w with calls := w.calls ++ [⟨req, firstPhase b⟩] }
  | .advance i answer =>
      match w.calls[i]? with
      | some call => (stepCall b w.guard i call.req call.phase answer).map fun r =>
          { guard := r.guard, calls := w.calls.set i { call with phase := r.phase },
            log := w.log ++ r.events }
      | none => none
  -- An operator's decision on a row that is not pending is refused and changes nothing.
  | .decide id operator status =>
      match w.guard.approvals.decide id operator status w.guard.now with
      | some (table, _) => some { w with guard := { w.guard with approvals := table } }
      | none => some w
  | .engage reason => some { w with guard := { w.guard with kill := w.guard.kill.engage reason } }
  | .release => some { w with guard := { w.guard with kill := w.guard.kill.release } }
  | .setApprovalTimeoutSecs secs => some { w with guard := w.guard.setApprovalTimeoutSecs secs }
  | .setBus => some { w with guard := { w.guard with bus := true } }
  | .elapse millis => some { w with guard := { w.guard with now := w.guard.now + millis } }

/-- The step on `action` starts `transport.execute` for `call`. -/
def StartsTransport (b : Config) (w : World) (action : Action) (call : Nat) : Prop :=
  ∃ w' target op credential, step b w action = some w' ∧
    w'.log = w.log ++ [.transportStarted call target op credential]

end Daimon.Broker
