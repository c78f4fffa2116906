import Daimon.Broker.Execute

/-!
# The audit of an execution

`Broker::execute` around `execute_inner`, with `audit_execute` (`daimon-broker/src/broker.rs`). The inventory is part of the
state here, and administrators write to it between any two steps of the calls: the record of a target is read once on the
way to the transport and once more, by another `get_managed`, for the event. Every event of this sink is a
`BrokerExecute`.
-/

namespace Daimon.Broker.Audited
open Daimon.Core Lib

structure Config where
  broker : Broker.Config
  audit : Bool
  /-- `Display` of a broker error. -/
  display : BrokerError → String

abbrev Inventory := List (TargetRef × ManagedTarget)

namespace Inventory

/-- `get_managed`, where `failed` is what the database fails with, if it does. -/
def getManaged (inventory : Inventory) (ref : TargetRef) (failed : Option String) : Except InventoryError ManagedTarget :=
  match failed with
  | some message => .error (.other message)
  | none =>
      match inventory.lookup ref with
      | some managed => .ok managed
      | none => .error (.notFound ref.display)

def remove (inventory : Inventory) (ref : TargetRef) : Inventory := inventory.filter fun entry => entry.1 != ref

def upsert (inventory : Inventory) (ref : TargetRef) (managed : ManagedTarget) : Inventory :=
  (ref, managed) :: inventory.remove ref

end Inventory

inductive AuditResult where
  | success
  | error
  | denied
  deriving DecidableEq, Repr

structure NewAuditEvent where
  actorId : String
  targetRef : Option String
  credentialRef : Option String
  opSummary : Option String
  result : AuditResult
  latencyMs : Option Nat
  metadata : List (String × String)
  deriving DecidableEq, Repr

def executeEvent (display : BrokerError → String) (req : ExecRequest) (result : Except BrokerError OpResult)
    (credentialRef : Option String) (latencyMs : Nat) : NewAuditEvent where
  actorId := req.actorId
  targetRef := some req.targetRef.display
  credentialRef
  opSummary := some (opSummaryFor req.op)
  result := match result with
    | .ok _ => .success
    | .error _ => .error
  latencyMs := some latencyMs
  metadata := match result with
    | .ok _ => []
    | .error e => [("error", display e)]

inductive AuditPhase where
  /-- `execute_inner` runs, or has just returned. -/
  | inner
  | append (event : NewAuditEvent)
  | returned
  deriving DecidableEq

/-- What `execute` has besides the call of `execute_inner`: when it started, and the record that was read for it. -/
structure Audit where
  start : Nat
  managed : Option ManagedTarget
  phase : AuditPhase
  deriving DecidableEq

/-- The sink keeps with an event the call that appended it. -/
structure World where
  broker : Broker.World
  inventory : Inventory
  audits : List Audit
  sink : List (Nat × NewAuditEvent)
  deriving DecidableEq

def World.new (inventory : Inventory) : World := { broker := .new, inventory, audits := [], sink := [] }

inductive Action where
  /-- A step of the broker other than an answer of the inventory. -/
  | broker (action : Broker.Action)
  | getManaged (call : Nat) (failed : Option String)
  | upsert (ref : TargetRef) (managed : ManagedTarget)
  | remove (ref : TargetRef)
  /-- The second `get_managed`. -/
  | lookup (call : Nat) (failed : Option String)
  | append (call : Nat) (worked : Bool)
  deriving DecidableEq

def step (b : Config) (w : World) : Action → Option World
  | .broker (.advance _ (.managed _)) => none
  | .broker (.submit req) => (Broker.step b.broker w.broker (.submit req)).map fun broker =>
      { w with broker, audits := w.audits ++ [⟨w.broker.guard.now, none, .inner⟩] }
  | .broker action => (Broker.step b.broker w.broker action).map fun broker => { w with broker }
  | .getManaged i failed =>
      match w.broker.calls[i]?, w.audits[i]? with
      | some call, some audit =>
          let answer := w.inventory.getManaged call.req.targetRef failed
          (Broker.step b.broker w.broker (.advance i (.managed answer))).map fun broker =>
            { w with broker, audits := w.audits.set i { audit with managed := answer.toOption } }
      | _, _ => none
  | .upsert ref managed => some { w with inventory := w.inventory.upsert ref managed }
  | .remove ref => some { w with inventory := w.inventory.remove ref }
  | .lookup i failed =>
      match w.broker.calls[i]?, w.audits[i]? with
      | some ⟨req, .done result⟩, some ⟨start, managed, .inner⟩ =>
          let read := (w.inventory.getManaged req.targetRef failed).toOption
          let event := executeEvent b.display req result (read.map ManagedTarget.credentialRef)
            (w.broker.guard.now - start)
          let next := if b.audit then AuditPhase.append event else .returned
          some { w with audits := w.audits.set i ⟨start, managed, next⟩ }
      | _, _ => none
  | .append i worked =>
      match w.audits[i]? with
      | some ⟨start, managed, .append event⟩ => some { w with
          audits := w.audits.set i ⟨start, managed, .returned⟩
          sink := if worked then w.sink ++ [(i, event)] else w.sink }
      | _ => none

example (b : Config) (inventory : Inventory) (ref : TargetRef) :
    (step b (.new inventory) (.remove ref)).map World.inventory = some (inventory.remove ref) := by
  simp only [step, World.new, Option.map_some]

end Daimon.Broker.Audited
