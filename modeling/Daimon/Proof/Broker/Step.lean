import Daimon.Broker.Execute
import Daimon.Lib.Lists
import Daimon.Proof.Guard.Approvals

/-!
# What one step of the broker can do
-/

namespace Daimon.Proof.Broker
open Daimon.Core Lib Daimon.Broker Proof.Guard

/-- A step either is an `advance` of one call, or leaves the phases of all calls and the log alone
(a submitted call is appended). -/
theorem step_cases {b : Config} {w w' : World} {action : Action} (moved : step b w action = some w') :
    (∃ i answer call r, action = .advance i answer ∧ w.calls[i]? = some call ∧
      stepCall b w.guard i call.req call.phase answer = some r ∧
      w' = { guard := r.guard, calls := w.calls.set i { call with phase := r.phase },
             log := w.log ++ r.events }) ∨
    (∃ req, action = .submit req ∧ w' = { w with calls := w.calls ++ [⟨req, firstPhase b⟩] }) ∨
    ((∀ i answer, action ≠ .advance i answer) ∧ w'.calls = w.calls ∧ w'.log = w.log ∧
      KeepsRows w.guard.approvals w'.guard.approvals ∧
      (w'.guard.kill = w.guard.kill ∨ w'.guard.kill = w.guard.kill.release ∨
        ∃ reason, action = .engage reason ∧ w'.guard.kill = w.guard.kill.engage reason)) := by
  cases action with
  | submit req =>
      simp only [step, Option.some.injEq] at moved
      exact Or.inr (Or.inl ⟨req, rfl, moved.symm⟩)
  | advance i answer =>
      simp only [step] at moved
      split at moved
      · rename_i call found
        obtain ⟨r, callMoved, rfl⟩ := Option.map_eq_some_iff.mp moved
        exact Or.inl ⟨i, answer, call, r, rfl, found, callMoved, rfl⟩
      · cases moved
  | decide id operator status =>
      refine Or.inr (Or.inr ⟨by simp, ?_⟩)
      simp only [step] at moved
      split at moved
      · rename_i table row decided
        cases moved
        exact ⟨rfl, rfl, keepsRows_decide decided, Or.inl rfl⟩
      · cases moved
        exact ⟨rfl, rfl, keepsRows_refl _, Or.inl rfl⟩
  | engage reason =>
      cases moved
      exact Or.inr (Or.inr ⟨by simp, rfl, rfl, keepsRows_refl _, Or.inr (Or.inr ⟨reason, rfl, rfl⟩)⟩)
  | release =>
      cases moved
      exact Or.inr (Or.inr ⟨by simp, rfl, rfl, keepsRows_refl _, Or.inr (Or.inl rfl)⟩)
  | setApprovalTimeoutSecs secs =>
      refine Or.inr (Or.inr ⟨by simp, ?_⟩)
      cases moved
      unfold Guard.State.setApprovalTimeoutSecs
      split <;> exact ⟨rfl, rfl, keepsRows_refl _, Or.inl rfl⟩
  | setBus =>
      cases moved
      exact Or.inr (Or.inr ⟨by simp, rfl, rfl, keepsRows_refl _, Or.inl rfl⟩)
  | elapse millis =>
      cases moved
      exact Or.inr (Or.inr ⟨by simp, rfl, rfl, keepsRows_refl _, Or.inl rfl⟩)

/-! ## One step of a call -/

inductive CallMove (b : Config) (s : Guard.State) (i : Nat) (req : ExecRequest) : Phase → CallStep → Prop where
  | preFlight {g : Guard.Config} {phase : Guard.Phase} {answer : Guard.Answer} {result : Guard.StepResult}
      (attached : b.guard = some g)
      (advanced : Guard.advance g s (preFlightArgs req) phase answer = some result) :
      CallMove b s i req (.preFlight phase)
        ⟨result.state, result.events.map (.guard i), afterPreFlight result.outcome⟩
  | resolve {managed : ManagedTarget} {ref : CredentialRef}
      (parsed : CredentialRef.parse managed.credentialRef = .ok ref) :
      CallMove b s i req .inventory ⟨s, [], .vault managed ref⟩
  | unlock {managed : ManagedTarget} {ref : CredentialRef} {credential : Credential} :
      CallMove b s i req (.vault managed ref) ⟨s, [], .dispatch managed credential⟩
  | start {managed : ManagedTarget} {credential : Credential} (registered : managed.transport ∈ b.transports) :
      CallMove b s i req (.dispatch managed credential)
        ⟨s, [.transportStarted i ⟨managed.host, managed.port⟩ req.op credential], .transport⟩
  | finish {phase : Phase} {result : Except BrokerError OpResult} (outside : ∀ p, phase ≠ .preFlight p) :
      CallMove b s i req phase ⟨s, [], .done result⟩

section
variable {b : Config} {s : Guard.State} {i : Nat} {req : ExecRequest} {phase : Phase} {answer : Answer} {r : CallStep}

theorem stepCall_move (moved : stepCall b s i req phase answer = some r) : CallMove b s i req phase r := by
  cases phase with
  | preFlight p =>
      cases answer with
      | guard a =>
          simp only [stepCall] at moved
          split at moved
          · rename_i g attached
            obtain ⟨result, advanced, rfl⟩ := Option.map_eq_some_iff.mp moved
            exact .preFlight attached advanced
          · cases moved
      | _ => simp [stepCall] at moved
  | inventory =>
      cases answer with
      | managed result =>
          cases result with
          | error e => cases moved; exact .finish (by simp)
          | ok managed =>
              simp only [stepCall] at moved
              split at moved
              · rename_i ref parsed
                cases moved
                exact .resolve parsed
              · cases moved
                exact .finish (by simp)
      | _ => simp [stepCall] at moved
  | vault managed ref =>
      cases answer with
      | credential result =>
          cases result with
          | error e => cases moved; exact .finish (by simp)
          | ok credential => cases moved; exact .unlock
      | _ => simp [stepCall] at moved
  | dispatch managed credential =>
      cases answer with
      | go =>
          simp only [stepCall] at moved
          split at moved
          · rename_i registered
            cases moved
            exact .start registered
          · cases moved
            exact .finish (by simp)
      | _ => simp [stepCall] at moved
  | transport =>
      cases answer with
      | executed result => cases result <;> cases moved <;> exact .finish (by simp)
      | _ => simp [stepCall] at moved
  | done result => cases answer <;> simp [stepCall] at moved
  | panicked => cases answer <;> simp [stepCall] at moved

theorem stepCall_kill (moved : stepCall b s i req phase answer = some r) : r.guard.kill = s.kill := by
  cases stepCall_move moved with
  | preFlight attached advanced => exact advance_kill advanced
  | _ => rfl

theorem stepCall_keepsRows (moved : stepCall b s i req phase answer = some r) :
    KeepsRows s.approvals r.guard.approvals := by
  cases stepCall_move moved with
  | preFlight attached advanced => exact advance_keepsRows advanced
  | _ => exact keepsRows_refl _

/-- Only the step from `dispatch` starts a transport, and it hands over the request's own operation. -/
theorem stepCall_started {call : Nat} {target : TransportTarget} {op : Op} {credential : Credential}
    (moved : stepCall b s i req phase answer = some r)
    (started : .transportStarted call target op credential ∈ r.events) :
    call = i ∧ op = req.op ∧ ∃ managed, phase = .dispatch managed credential := by
  cases stepCall_move moved with
  | start registered =>
      simp only [List.mem_singleton, Event.transportStarted.injEq] at started
      obtain ⟨rfl, -, rfl, rfl⟩ := started
      exact ⟨rfl, rfl, _, rfl⟩
  | _ => simp at started

end

theorem startsTransport_dispatch {b : Config} {w : World} {action : Action} {i : Nat}
    (starts : StartsTransport b w action i) :
    ∃ call managed credential, w.calls[i]? = some call ∧ call.phase = .dispatch managed credential := by
  obtain ⟨w', target, op, credential, moved, logged⟩ := starts
  rcases step_cases moved with ⟨j, answer, call, r, rfl, found, callMoved, rfl⟩ | ⟨req, -, rfl⟩ |
    ⟨-, -, same, -⟩
  · have events : r.events = [.transportStarted i target op credential] := by simpa using logged
    obtain ⟨rfl, -, managed, atDispatch⟩ :=
      stepCall_started callMoved (events ▸ List.mem_singleton_self _)
    exact ⟨call, managed, credential, found, atDispatch⟩
  · simp at logged
  · simp [same] at logged

/-! ## Calls and their events -/

theorem set_keeps_requests {calls : List Call} {i : Nat} {old : Call} (phase : Phase)
    (found : calls[i]? = some old) (j : Nat) (call : Call) (at_j : calls[j]? = some call) :
    ∃ c, (calls.set i { old with phase })[j]? = some c ∧ c.req = call.req := by
  by_cases same : i = j
  · subst same
    obtain rfl : old = call := Option.some.inj (found.symm.trans at_j)
    have bound : i < calls.length := (List.getElem?_eq_some_iff.mp found).1
    exact ⟨{ old with phase }, List.getElem?_set_self bound, rfl⟩
  · exact ⟨call, (List.getElem?_set_ne same).trans at_j, rfl⟩

theorem step_keeps_requests {b : Config} {w w' : World} {action : Action}
    (moved : step b w action = some w') (i : Nat) (call : Call) (found : w.calls[i]? = some call) :
    ∃ c, w'.calls[i]? = some c ∧ c.req = call.req := by
  rcases step_cases moved with ⟨j, answer, old, r, rfl, at_j, -, rfl⟩ | ⟨req, rfl, rfl⟩ | ⟨-, calls, -⟩
  · exact set_keeps_requests r.phase at_j i call found
  · have bound : i < w.calls.length := (List.getElem?_eq_some_iff.mp found).1
    exact ⟨call, (List.getElem?_append_left bound).trans found, rfl⟩
  · exact ⟨call, calls ▸ found, rfl⟩

theorem first_request {b : Config} {req : ExecRequest} {actions : List Action} {w : World}
    (reached : run (step b) .new (.submit req :: actions) = some w) : w.calls[0]?.map Call.req = some req := by
  obtain ⟨first, moved, rest⟩ := (run_cons).mp reached
  obtain rfl := Option.some.inj moved
  have kept : ∃ call, w.calls[0]? = some call ∧ call.req = req := by
    have preserved (v : World) (action : Action) (v' : World)
        (had : ∃ call, v.calls[0]? = some call ∧ call.req = req) (stepped : step b v action = some v') :
        ∃ call, v'.calls[0]? = some call ∧ call.req = req := by
      obtain ⟨call, found, rfl⟩ := had
      exact step_keeps_requests stepped 0 call found
    exact invariant_of_run preserved ⟨⟨req, firstPhase b⟩, rfl, rfl⟩ rest
  obtain ⟨call, found, rfl⟩ := kept
  rw [found, Option.map_some]

def callOf : Event → Nat
  | .guard call _ => call
  | .transportStarted call _ _ _ => call

def EventsOf (P : ExecRequest → Event → Prop) (w : World) : Prop :=
  ∀ e ∈ w.log, ∃ call, w.calls[callOf e]? = some call ∧ P call.req e

theorem run_events {b : Config} {P : ExecRequest → Event → Prop}
    (emits : ∀ s i req phase answer r, stepCall b s i req phase answer = some r →
      ∀ e ∈ r.events, callOf e = i ∧ P req e)
    {actions : List Action} {w : World} (reached : run (step b) .new actions = some w) :
    EventsOf P w := by
  have start : EventsOf P .new := by simp [EventsOf, World.new]
  refine invariant_of_run ?_ start reached
  intro w action w' inv moved e member
  have old (logged : e ∈ w.log) : ∃ call, w'.calls[callOf e]? = some call ∧ P call.req e := by
    obtain ⟨call, found, fits⟩ := inv e logged
    obtain ⟨c, found', same⟩ := step_keeps_requests moved _ call found
    exact ⟨c, found', same ▸ fits⟩
  rcases step_cases moved with ⟨i, answer, call, r, rfl, found, callMoved, rfl⟩ | ⟨req, rfl, rfl⟩ |
    ⟨-, -, log, -⟩
  · rcases List.mem_append.mp member with logged | new
    · exact old logged
    · obtain ⟨rfl, fits⟩ := emits _ _ _ _ _ _ callMoved e new
      obtain ⟨c, found', same⟩ := set_keeps_requests r.phase found _ call found
      exact ⟨c, found', same ▸ fits⟩
  · exact old member
  · exact old (log ▸ member)

/-! ## A sample write

The RouterOS drop rule of the driver's own tests, under a policy that asks for approval.
-/

def samplePolicy : Guard.PolicyEngine := .new [⟨"network.routeros.*", .requireApproval, none⟩]

def sampleGuard : Guard.Config := { policy := samplePolicy, instantMax := 0x8000000000000000 }

def sampleBroker : Config := { guard := none, transports := [.ssh] }

def sampleWrite : Capability :=
  { name := "network.routeros.firewall_add_drop_rule", version := .new 1 0 0, description := none,
    schema := none, irreversible := false,
    compensating := some { name := "network.routeros.firewall_remove_rule", versionReq := none } }

def sampleRemove : Capability :=
  { name := "network.routeros.firewall_remove_rule", version := .new 1 0 0, description := none,
    schema := none, compensating := none, irreversible := true }

def sampleOp : Op :=
  .shellCommand "/ip firewall filter add chain=forward action=drop dst-address=10.0.0.0/24" 30

def sampleRequest : ExecRequest :=
  { (ExecRequest.new "user:alice" ⟨"mikrotik-edge"⟩ sampleOp).withCapabilityMeta sampleWrite with
    isReadOnly := true }

def sampleTarget : ManagedTarget :=
  { transport := .ssh, host := "10.100.10.1", port := 22, credentialRef := "vault://mikrotik-edge" }

def park (req : ExecRequest) : List Action :=
  [.submit req, .advance 0 (.guard .go), .advance 0 (.guard .go),
   .advance 0 (.guard (.inserted 1)), .advance 0 (.guard .go), .advance 0 (.guard .go)]

/-- The operator approves row 1, the call sees it, resolves target and credential, and stands at
`dispatch`. -/
def approve : List Action :=
  [.decide 1 7 .approved, .advance 0 (.guard .go), .advance 0 (.managed (.ok sampleTarget)),
   .advance 0 (.credential (.ok (.sshPassword "admin" "secret")))]

end Daimon.Proof.Broker
