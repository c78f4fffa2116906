import Daimon.Deployment
import Daimon.Driver.RouterOs
import Daimon.Proof.Broker.Step
import Daimon.Proof.Orchestrator.Saga

/-!
# Late execution

A dispatch gives up after its own budget, and nothing tells the agent. An agent that still has the request
in its queue, or whose `broker.execute` is parked on an approval, goes on to the device.
-/

namespace Daimon.Proof.Deployment
open Daimon.Core Lib Daimon.Deployment Daimon.Orchestrator
open Daimon.Runtime (AgentEnvelope CapabilityRegistry envelopeAddressedTo mem_enqueue)

variable {sv : Semver} {b : Daimon.Broker.Config} {handler : AgentId → Handler sv} {d d' : System sv}

/-! ## Outstanding requests -/

def unstarted : Daimon.Broker.Phase → Bool
  | .preFlight _ | .inventory | .vault _ _ | .dispatch _ _ => true
  | .transport | .done _ | .panicked => false

def Unstarted (world : Daimon.Broker.World) (call : Nat) : Bool :=
  (world.calls[call]?).any fun c => unstarted c.phase

def asks (corr : Uuid) (env : AgentEnvelope sv) : Bool := env.isRequest && env.correlationId == corr

/-- The agent has the request in its queue, or in a broker call that has not started its transport. -/
def holds (world : Daimon.Broker.World) (corr : Uuid) (w : Worker sv) : Bool :=
  (w.backlog.any fun env => asks corr env && envelopeAddressedTo env w.id w.capabilities) ||
    w.current.any fun held => asks corr held.1 && Unstarted world held.2

def outstanding (d : System sv) (corr : Uuid) : Bool := d.workers.any (holds d.broker corr)

theorem holds_iff {world : Daimon.Broker.World} {corr : Uuid} {w : Worker sv} :
    holds world corr w = true ↔
      (∃ env ∈ w.backlog, asks corr env = true ∧ envelopeAddressedTo env w.id w.capabilities = true) ∨
      ∃ env call, w.current = some (env, call) ∧ asks corr env = true ∧ Unstarted world call = true := by
  simp [holds, Option.any_eq_true]

theorem outstanding_iff {corr : Uuid} :
    outstanding d corr = true ↔ ∃ w ∈ d.workers, holds d.broker corr w = true :=
  List.any_eq_true

def returnsDispatch (d : System sv) : Action sv → Bool
  | .timeout => true
  | .receive => d.dispatch.any fun wt => wt.backlog.head?.any wt.accepts
  | _ => false

/-- A dispatch returns only when no agent holds its request. -/
def ReturnsWhenSettled (d : System sv) (action : Action sv) : Prop :=
  returnsDispatch d action = true → ∀ wt ∈ d.dispatch, outstanding d wt.correlationId = false

instance (d : System sv) (action : Action sv) : Decidable (ReturnsWhenSettled d action) :=
  inferInstanceAs (Decidable (_ → _))

def Handles (call : Nat) (corr : Uuid) (w : Worker sv) : Prop :=
  ∃ env, w.current = some (env, call) ∧ asks corr env = true

structure Settling (d : System sv) : Prop where
  awaitedOnly : ∀ corr ∈ d.sent, outstanding d corr = true →
    ∃ wt, d.dispatch = some wt ∧ wt.correlationId = corr
  handled : ∀ call corr, (call, corr) ∈ d.served → Unstarted d.broker call = true →
    ∃ w ∈ d.workers, Handles call corr w
  inDispatch : d.dispatch ≠ none → awaited d.runner.phase ≠ none
  servedCalls : ∀ call corr, (call, corr) ∈ d.served → call < d.broker.calls.length
  currentCalls : ∀ w ∈ d.workers, ∀ env call, w.current = some (env, call) → call < d.broker.calls.length

theorem settling_start (rows : PlanRows) : Settling (System.start sv rows) where
  awaitedOnly := by simp [System.start]
  handled := by simp [System.start]
  inDispatch := by simp [System.start]
  servedCalls := by simp [System.start]
  currentCalls := by simp [System.start]

/-! ## What one step can do -/

inductive Move (b : Daimon.Broker.Config) (handler : AgentId → Handler sv) (d : System sv) :
    Action sv → System sv → Prop where
  | plan {answer : Answer} {d' : System sv} (idle : awaited d.runner.phase = none)
      (advanced : d.advance answer = some d') : Move b handler d (.plan answer) d'
  | refuse {registry : CapabilityRegistry} {corr : Uuid} {outcome : Except DispatchError Json} {d' : System sv}
      (quiet : d.dispatch = none) (returned : d.dispatched outcome = some d') :
      Move b handler d (.dispatch registry corr) d'
  | request {registry : CapabilityRegistry} {corr : Uuid} {wt : Waiting sv} {request : Request sv}
      {env : AgentEnvelope sv} (waits : awaited d.runner.phase = some request) (quiet : d.dispatch = none)
      (own : wt.correlationId = corr) (sameId : env.correlationId = corr) :
      Move b handler d (.dispatch registry corr)
        ({ d with dispatch := some wt, sent := corr :: d.sent }.send env)
  | wait {action : Action sv} {wt wt' : Waiting sv} (isWaiting : d.dispatch = some wt)
      (sameId : wt'.correlationId = wt.correlationId) : Move b handler d action { d with dispatch := some wt' }
  | returned {action : Action sv} {outcome : Except DispatchError Json} {d' : System sv}
      (returns : returnsDispatch d action = true) (returned : d.dispatched outcome = some d') :
      Move b handler d action d'
  | publish {env : AgentEnvelope sv} (foreign : env.correlationId ∉ d.sent) :
      Move b handler d (.publish env) (d.send env)
  | spawn {id : AgentId} {capabilities : List Capability} : Move b handler d (.spawn id capabilities)
      { d with workers := d.workers ++ [{ id, capabilities, backlog := [], current := none }] }
  | skip {i : Nat} {w : Worker sv} {env : AgentEnvelope sv} {rest : List (AgentEnvelope sv)}
      (found : d.workers[i]? = some w) (backlog : w.backlog = env :: rest) : Move b handler d (.take i)
      { d with workers := d.workers.set i { w with backlog := rest } }
  | decline {i : Nat} {w : Worker sv} {env : AgentEnvelope sv} {rest : List (AgentEnvelope sv)} {body : Json}
      (found : d.workers[i]? = some w) (backlog : w.backlog = env :: rest) : Move b handler d (.take i)
      ({ d with workers := d.workers.set i { w with backlog := rest } }.send (env.replyTo w.id body))
  | take {i : Nat} {w : Worker sv} {env : AgentEnvelope sv} {rest : List (AgentEnvelope sv)}
      {req : Daimon.Broker.ExecRequest} {world : Daimon.Broker.World}
      (found : d.workers[i]? = some w) (backlog : w.backlog = env :: rest) (idle : w.current = none)
      (addressed : envelopeAddressedTo env w.id w.capabilities = true)
      (submitted : Daimon.Broker.step b d.broker (.submit req) = some world) : Move b handler d (.take i) { d with
        broker := world
        workers := d.workers.set i { w with backlog := rest, current := some (env, d.broker.calls.length) }
        served := if env.isRequest then (d.broker.calls.length, env.correlationId) :: d.served else d.served }
  | finish {i : Nat} {w : Worker sv} {env : AgentEnvelope sv} {call : Nat} {body : Json}
      (found : d.workers[i]? = some w) (isCurrent : w.current = some (env, call))
      (ended : Unstarted d.broker call = false) : Move b handler d (.finish i)
      ({ d with workers := d.workers.set i { w with current := none } }.send (env.replyTo w.id body))
  | restart {i : Nat} {w : Worker sv} {env : AgentEnvelope sv} {call : Nat}
      (found : d.workers[i]? = some w) (isCurrent : w.current = some (env, call))
      (ended : Unstarted d.broker call = false) : Move b handler d (.restart i)
      { d with workers := d.workers.set i { w with backlog := [], current := none } }
  | broker {action : Daimon.Broker.Action} {world : Daimon.Broker.World}
      (moved : Daimon.Broker.step b d.broker action = some world) :
      Move b handler d (.broker action) { d with broker := world }

theorem step_move {action : Action sv} (moved : step b handler d action = some d') : Move b handler d action d' := by
  cases action with
  | plan answer =>
      simp only [step] at moved
      split at moved
      · rename_i idle
        exact .plan idle moved
      · cases moved
  | dispatch registry correlationId =>
      simp only [step] at moved
      split at moved
      · rename_i request waits quiet
        split at moved
        · exact .refuse quiet moved
        · cases moved
          exact .request waits quiet rfl rfl
      · cases moved
  | arm =>
      simp only [step] at moved
      split at moved
      · rename_i isWaiting
        cases moved
        exact .wait isWaiting rfl
      · cases moved
  | receive =>
      simp only [step] at moved
      split at moved
      · rename_i isWaiting
        split at moved
        · rename_i accepted
          exact .returned (by simp [returnsDispatch, isWaiting, accepted]) moved
        · cases moved
          exact .wait isWaiting rfl
      · cases moved
  | timeout =>
      simp only [step] at moved
      split at moved
      · split at moved
        · exact .returned rfl moved
        · cases moved
      · cases moved
  | publish env =>
      simp only [step] at moved
      split at moved
      · cases moved
      · rename_i foreign
        cases moved
        exact .publish foreign
  | spawn id capabilities =>
      cases moved
      exact .spawn
  | take i =>
      simp only [step] at moved
      split at moved
      · rename_i found
        split at moved
        · rename_i addressed
          split at moved
          · cases moved
            exact .decline found rfl
          · obtain ⟨world, submitted, rfl⟩ := Option.map_eq_some_iff.mp moved
            exact .take found rfl rfl addressed submitted
        · cases moved
          exact .skip found rfl
      · cases moved
  | finish i =>
      simp only [step] at moved
      split at moved
      · rename_i found
        split at moved
        · rename_i ended
          cases moved
          exact .finish found rfl (by simp [Unstarted, ended, unstarted])
        · cases moved
      · cases moved
  | restart i =>
      simp only [step] at moved
      split at moved
      · rename_i found
        split at moved
        · rename_i ended
          cases moved
          exact .restart found rfl (by simp [Unstarted, ended, unstarted])
        · cases moved
      · cases moved
  | broker action =>
      obtain ⟨world, brokerMoved, rfl⟩ := Option.map_eq_some_iff.mp moved
      exact .broker brokerMoved

/-! ## The broker moves -/

theorem stepCall_unstarted {s : Guard.State} {i : Nat} {req : Daimon.Broker.ExecRequest}
    {phase : Daimon.Broker.Phase} {answer : Daimon.Broker.Answer} {r : Daimon.Broker.CallStep}
    (moved : Daimon.Broker.stepCall b s i req phase answer = some r) (still : unstarted r.phase = true) :
    unstarted phase = true := by
  cases Broker.stepCall_move moved with
  | start registered => rfl
  | finish outside => simp [unstarted] at still
  | _ => rfl

theorem step_unstarted {w w' : Daimon.Broker.World} {action : Daimon.Broker.Action} {call : Nat}
    (moved : Daimon.Broker.step b w action = some w') (old : call < w.calls.length)
    (still : Unstarted w' call = true) : Unstarted w call = true := by
  rcases Broker.step_cases moved with ⟨i, answer, c, r, -, found, callMoved, rfl⟩ | ⟨req, -, rfl⟩ |
    ⟨-, calls, -⟩
  · obtain ⟨c', found', phase⟩ := (Option.any_eq_true _ _).mp still
    rcases set_cases found' with ⟨rfl, rfl⟩ | ⟨-, kept⟩
    · simp [Unstarted, found, stepCall_unstarted callMoved phase]
    · simp [Unstarted, kept, phase]
  · simpa [Unstarted, List.getElem?_append_left old] using still
  · simpa [Unstarted, calls] using still

theorem step_calls_length {w w' : Daimon.Broker.World} {action : Daimon.Broker.Action}
    (moved : Daimon.Broker.step b w action = some w') : w.calls.length ≤ w'.calls.length := by
  rcases Broker.step_cases moved with ⟨i, answer, c, r, -, -, -, rfl⟩ | ⟨req, -, rfl⟩ | ⟨-, calls, -⟩
  · simp
  · simp
  · rw [calls]

theorem settling_broker {world : Daimon.Broker.World} {action : Daimon.Broker.Action} (inv : Settling d)
    (moved : Daimon.Broker.step b d.broker action = some world) : Settling { d with broker := world } where
  awaitedOnly corr sent out := by
    apply inv.awaitedOnly corr sent
    obtain ⟨w, member, held⟩ := (outstanding_iff).mp out
    refine (outstanding_iff).mpr ⟨w, member, (holds_iff).mpr ?_⟩
    rcases (holds_iff).mp held with queued | ⟨env, call, isCurrent, asked, still⟩
    · exact Or.inl queued
    · have before := step_unstarted moved (inv.currentCalls w member env call isCurrent) still
      exact Or.inr ⟨env, call, isCurrent, asked, before⟩
  handled call corr served still :=
    inv.handled call corr served (step_unstarted moved (inv.servedCalls call corr served) still)
  inDispatch := inv.inDispatch
  servedCalls call corr served := lt_of_lt_of_le (inv.servedCalls call corr served) (step_calls_length moved)
  currentCalls w member env call isCurrent :=
    lt_of_lt_of_le (inv.currentCalls w member env call isCurrent) (step_calls_length moved)

/-! ## Agents move -/

theorem settling_set {i : Nat} {w w' : Worker sv} (inv : Settling d) (found : d.workers[i]? = some w)
    (fewer : ∀ corr, holds d.broker corr w' = true → holds d.broker corr w = true)
    (keeps : ∀ env call, w.current = some (env, call) → Unstarted d.broker call = true → w'.current = w.current)
    (bound : ∀ env call, w'.current = some (env, call) → call < d.broker.calls.length) :
    Settling { d with workers := d.workers.set i w' } where
  awaitedOnly corr sent out := by
    apply inv.awaitedOnly corr sent
    obtain ⟨v, member, held⟩ := (outstanding_iff).mp out
    rcases List.mem_or_eq_of_mem_set member with kept | rfl
    · exact (outstanding_iff).mpr ⟨v, kept, held⟩
    · exact (outstanding_iff).mpr ⟨w, List.mem_of_getElem? found, fewer corr held⟩
  handled call corr served still := by
    obtain ⟨v, member, env, isCurrent, asked⟩ := inv.handled call corr served still
    obtain ⟨j, at_j⟩ := List.getElem?_of_mem member
    by_cases same : i = j
    · subst same
      obtain rfl : w = v := Option.some.inj (found.symm.trans at_j)
      have inside : i < d.workers.length := (List.getElem?_eq_some_iff.mp found).1
      exact ⟨w', List.mem_of_getElem? (List.getElem?_set_self inside), env,
        (keeps env call isCurrent still).trans isCurrent, asked⟩
    · exact ⟨v, List.mem_of_getElem? ((List.getElem?_set_ne same).trans at_j), env, isCurrent, asked⟩
  inDispatch := inv.inDispatch
  servedCalls := inv.servedCalls
  currentCalls v member env call isCurrent := by
    rcases List.mem_or_eq_of_mem_set member with kept | rfl
    · exact inv.currentCalls v kept env call isCurrent
    · exact bound env call isCurrent

theorem settling_skip {i : Nat} {w : Worker sv} {env : AgentEnvelope sv} {rest : List (AgentEnvelope sv)}
    (inv : Settling d) (found : d.workers[i]? = some w) (backlog : w.backlog = env :: rest) :
    Settling { d with workers := d.workers.set i { w with backlog := rest } } := by
  refine settling_set inv found ?_ (fun _ _ _ _ => rfl) (inv.currentCalls w (List.mem_of_getElem? found))
  intro corr held
  rcases (holds_iff).mp held with ⟨e, queued, asked⟩ | current
  · exact (holds_iff).mpr (Or.inl ⟨e, backlog ▸ List.mem_cons_of_mem env queued, asked⟩)
  · exact (holds_iff).mpr (Or.inr current)

theorem settling_idle {i : Nat} {w : Worker sv} {env : AgentEnvelope sv} {call : Nat} (inv : Settling d)
    (found : d.workers[i]? = some w) (isCurrent : w.current = some (env, call))
    (ended : Unstarted d.broker call = false) (backlog : List (AgentEnvelope sv)) (fewer : backlog ⊆ w.backlog) :
    Settling { d with workers := d.workers.set i { w with backlog, current := none } } := by
  refine settling_set inv found ?_ ?_ (by simp)
  · intro corr held
    rcases (holds_iff).mp held with ⟨e, queued, asked⟩ | ⟨e, c, isNone, -⟩
    · exact (holds_iff).mpr (Or.inl ⟨e, fewer queued, asked⟩)
    · cases isNone
  · intro env' call' isCurrent' still
    obtain ⟨-, rfl⟩ : env = env' ∧ call = call' := by simpa [isCurrent] using isCurrent'
    simp [ended] at still

theorem settling_served {call : Nat} {corr : Uuid} {w : Worker sv} (inv : Settling d) (member : w ∈ d.workers)
    (handles : Handles call corr w) : Settling { d with served := (call, corr) :: d.served } where
  awaitedOnly := inv.awaitedOnly
  handled call' corr' served still := by
    rcases List.mem_cons.mp served with same | old
    · obtain ⟨rfl, rfl⟩ := Prod.mk.inj same
      exact ⟨w, member, handles⟩
    · exact inv.handled call' corr' old still
  inDispatch := inv.inDispatch
  servedCalls call' corr' served := by
    rcases List.mem_cons.mp served with same | old
    · obtain ⟨rfl, rfl⟩ := Prod.mk.inj same
      obtain ⟨env, isCurrent, -⟩ := handles
      exact inv.currentCalls w member env _ isCurrent
    · exact inv.servedCalls call' corr' old
  currentCalls := inv.currentCalls

theorem settling_spawn {w : Worker sv} (inv : Settling d) (idle : w.backlog = [] ∧ w.current = none) :
    Settling { d with workers := d.workers ++ [w] } where
  awaitedOnly corr sent out := by
    apply inv.awaitedOnly corr sent
    simpa [outstanding, holds, idle.1, idle.2] using out
  handled call corr served still := by
    obtain ⟨v, member, handles⟩ := inv.handled call corr served still
    exact ⟨v, List.mem_append_left _ member, handles⟩
  inDispatch := inv.inDispatch
  servedCalls := inv.servedCalls
  currentCalls v member env call isCurrent := by
    rcases List.mem_append.mp member with old | new
    · exact inv.currentCalls v old env call isCurrent
    · rw [List.mem_singleton.mp new, idle.2] at isCurrent
      cases isCurrent

/-! ## The bus and the plan -/

theorem holds_deliver {world : Daimon.Broker.World} {corr : Uuid} {env : AgentEnvelope sv} {w : Worker sv}
    (held : holds world corr (w.deliver env) = true) : holds world corr w = true ∨ asks corr env = true := by
  simp only [holds_iff, Worker.deliver] at held
  rcases held with ⟨e, queued, asked⟩ | current
  · rcases mem_enqueue queued with old | rfl
    · exact Or.inl ((holds_iff).mpr (Or.inl ⟨e, old, asked⟩))
    · exact Or.inr asked.1
  · exact Or.inl ((holds_iff).mpr (Or.inr current))

theorem settling_send {env : AgentEnvelope sv} (inv : Settling d)
    (own : ∀ corr ∈ d.sent, asks corr env = true → ∃ wt, d.dispatch = some wt ∧ wt.correlationId = corr) :
    Settling (d.send env) where
  awaitedOnly corr sent out := by
    have waiting : ∃ wt, d.dispatch = some wt ∧ wt.correlationId = corr := by
      obtain ⟨w', member', held⟩ := (outstanding_iff).mp out
      obtain ⟨w, member, rfl⟩ := List.mem_map.mp member'
      rcases holds_deliver held with before | asked
      · exact inv.awaitedOnly corr sent ((outstanding_iff).mpr ⟨w, member, before⟩)
      · exact own corr sent asked
    obtain ⟨wt, isWaiting, same⟩ := waiting
    exact ⟨wt.deliver env, by simp [System.send, isWaiting], by simpa using same⟩
  handled call corr served still := by
    obtain ⟨w, member, e, isCurrent, asked⟩ := inv.handled call corr served still
    exact ⟨w.deliver env, List.mem_map.mpr ⟨w, member, rfl⟩, e, by simpa using isCurrent, asked⟩
  inDispatch waiting := inv.inDispatch (by simpa [System.send] using waiting)
  servedCalls := inv.servedCalls
  currentCalls w' member' env call isCurrent := by
    obtain ⟨w, member, rfl⟩ := List.mem_map.mp member'
    rw [Worker.deliver_current] at isCurrent
    exact inv.currentCalls w member env call isCurrent

theorem settling_reply {request : AgentEnvelope sv} {id : AgentId} {body : Json} (inv : Settling d) :
    Settling (d.send (request.replyTo id body)) :=
  settling_send inv fun corr _ asked => by
    simp [asks, AgentEnvelope.isRequest, AgentEnvelope.replyTo] at asked

theorem advance_settling {answer : Answer} (inv : Settling d) (quiet : d.dispatch = none)
    (moved : d.advance answer = some d') : Settling d' := by
  obtain ⟨m, -, rfl⟩ := Option.map_eq_some_iff.mp moved
  exact ⟨inv.awaitedOnly, inv.handled, fun waiting => absurd quiet waiting, inv.servedCalls, inv.currentCalls⟩

theorem dispatched_settling {outcome : Except DispatchError Json} (inv : Settling d)
    (settled : ∀ wt ∈ d.dispatch, outstanding d wt.correlationId = false)
    (moved : d.dispatched outcome = some d') : Settling d' := by
  have quiet : Settling { d with dispatch := none } := by
    refine ⟨?_, inv.handled, fun waiting => absurd rfl waiting, inv.servedCalls, inv.currentCalls⟩
    intro corr sent out
    have out : outstanding d corr = true := out
    obtain ⟨wt, isWaiting, rfl⟩ := inv.awaitedOnly corr sent out
    simp [settled wt isWaiting] at out
  exact advance_settling quiet rfl moved

theorem settling_wait {wt wt' : Waiting sv} (inv : Settling d) (isWaiting : d.dispatch = some wt)
    (same : wt'.correlationId = wt.correlationId) : Settling { d with dispatch := some wt' } where
  awaitedOnly corr sent out := by
    obtain ⟨v, isWaiting', rfl⟩ := inv.awaitedOnly corr sent out
    obtain rfl : wt = v := Option.some.inj (isWaiting.symm.trans isWaiting')
    exact ⟨wt', rfl, same⟩
  handled := inv.handled
  inDispatch _ := inv.inDispatch (by simp [isWaiting])
  servedCalls := inv.servedCalls
  currentCalls := inv.currentCalls

theorem settling_begin {wt : Waiting sv} {request : Request sv} (inv : Settling d) (quiet : d.dispatch = none)
    (waits : awaited d.runner.phase = some request) :
    Settling { d with dispatch := some wt, sent := wt.correlationId :: d.sent } where
  awaitedOnly corr sent out := by
    rcases List.mem_cons.mp sent with rfl | earlier
    · exact ⟨wt, rfl, rfl⟩
    · obtain ⟨v, isWaiting, -⟩ := inv.awaitedOnly corr earlier out
      simp [quiet] at isWaiting
  handled := inv.handled
  inDispatch _ := by simp [waits]
  servedCalls := inv.servedCalls
  currentCalls := inv.currentCalls

/-! ## Whole runs -/

theorem settling_take {i : Nat} {w : Worker sv} {env : AgentEnvelope sv} {rest : List (AgentEnvelope sv)}
    {req : Daimon.Broker.ExecRequest} {world : Daimon.Broker.World} (inv : Settling d)
    (found : d.workers[i]? = some w) (backlog : w.backlog = env :: rest) (idle : w.current = none)
    (addressed : envelopeAddressedTo env w.id w.capabilities = true)
    (submitted : Daimon.Broker.step b d.broker (.submit req) = some world) :
    Settling { d with
      broker := world
      workers := d.workers.set i { w with backlog := rest, current := some (env, d.broker.calls.length) }
      served := if env.isRequest then (d.broker.calls.length, env.correlationId) :: d.served else d.served } := by
  have longer : d.broker.calls.length < world.calls.length := by
    cases submitted
    simp
  have moved := settling_broker inv submitted
  have taken : Settling { d with
      broker := world
      workers := d.workers.set i { w with backlog := rest, current := some (env, d.broker.calls.length) } } := by
    refine settling_set moved found ?_ (by simp [idle]) ?_
    · intro corr held
      refine (holds_iff).mpr (Or.inl ?_)
      rcases (holds_iff).mp held with ⟨e, queued, asked⟩ | ⟨e, call, isCurrent, asked, -⟩
      · exact ⟨e, backlog ▸ List.mem_cons_of_mem env queued, asked⟩
      · obtain ⟨rfl, -⟩ := Prod.mk.inj (Option.some.inj isCurrent)
        exact ⟨env, backlog ▸ List.mem_cons_self, asked, addressed⟩
    · intro e call isCurrent
      obtain ⟨-, rfl⟩ := Prod.mk.inj (Option.some.inj isCurrent)
      exact longer
  cases request : env.isRequest with
  | false => exact taken
  | true =>
      have inside : i < d.workers.length := (List.getElem?_eq_some_iff.mp found).1
      refine settling_served taken (List.mem_of_getElem? (List.getElem?_set_self inside)) ⟨env, rfl, ?_⟩
      simp [asks, request]

theorem step_settling (b : Daimon.Broker.Config) (handler : AgentId → Handler sv) (d : System sv)
    (action : Action sv) (d' : System sv) (condition : ReturnsWhenSettled d action) (inv : Settling d)
    (moved : step b handler d action = some d') : Settling d' := by
  cases step_move moved with
  | plan idle advanced =>
      have quiet : d.dispatch = none := by
        by_contra waiting
        exact inv.inDispatch waiting idle
      exact advance_settling inv quiet advanced
  | refuse quiet returned => exact dispatched_settling inv (by simp [quiet]) returned
  | request waits quiet own sameId =>
      subst own
      apply settling_send (settling_begin inv quiet waits)
      intro corr _ asked
      refine ⟨_, rfl, ?_⟩
      simp only [asks, Bool.and_eq_true, beq_iff_eq] at asked
      exact sameId.symm.trans asked.2
  | wait isWaiting sameId => exact settling_wait inv isWaiting sameId
  | returned returns returned => exact dispatched_settling inv (condition returns) returned
  | publish foreign =>
      apply settling_send inv
      intro corr sent asked
      simp only [asks, Bool.and_eq_true, beq_iff_eq] at asked
      exact absurd (asked.2 ▸ sent) foreign
  | spawn => exact settling_spawn inv ⟨rfl, rfl⟩
  | skip found backlog => exact settling_skip inv found backlog
  | decline found backlog => exact settling_reply (settling_skip inv found backlog)
  | take found backlog idle addressed submitted => exact settling_take inv found backlog idle addressed submitted
  | finish found isCurrent ended =>
      exact settling_reply (settling_idle inv found isCurrent ended _ (List.Subset.refl _))
  | restart found isCurrent ended => exact settling_idle inv found isCurrent ended [] (List.nil_subset _)
  | broker brokerMoved => exact settling_broker inv brokerMoved

theorem advance_broker {answer : Answer} (moved : d.advance answer = some d') : d'.broker = d.broker := by
  obtain ⟨m, -, rfl⟩ := Option.map_eq_some_iff.mp moved
  rfl

theorem dispatched_broker {outcome : Except DispatchError Json} (moved : d.dispatched outcome = some d') :
    d'.broker = d.broker := by
  obtain ⟨m, -, rfl⟩ := Option.map_eq_some_iff.mp moved
  rfl

theorem step_broker {action : Action sv} (moved : step b handler d action = some d') :
    d'.broker = d.broker ∨ ∃ a, Daimon.Broker.step b d.broker a = some d'.broker := by
  cases step_move moved with
  | plan idle advanced => exact Or.inl (advance_broker advanced)
  | refuse quiet returned => exact Or.inl (dispatched_broker returned)
  | returned returns returned => exact Or.inl (dispatched_broker returned)
  | take found backlog idle addressed submitted => exact Or.inr ⟨_, submitted⟩
  | broker brokerMoved => exact Or.inr ⟨_, brokerMoved⟩
  | _ => exact Or.inl rfl

theorem startsTransport_unstarted {action : Action sv} {call : Nat}
    (starts : StartsTransport b handler d action call) : Unstarted d.broker call = true := by
  obtain ⟨d', target, op, credential, moved, logged⟩ := starts
  rcases step_broker moved with same | ⟨a, brokerMoved⟩
  · simp [same] at logged
  · obtain ⟨c, managed, held, found, atDispatch⟩ :=
      Broker.startsTransport_dispatch ⟨d'.broker, target, op, credential, brokerMoved, logged⟩
    simp [Unstarted, found, atDispatch, unstarted]

theorem no_late_execution (b : Daimon.Broker.Config) (handler : AgentId → Handler sv) (rows : PlanRows)
    (actions : List (Action sv)) (d : System sv)
    (reached : run (step b handler) (System.start sv rows) actions = some d)
    (settled : AllSteps (step b handler) ReturnsWhenSettled (System.start sv rows) actions)
    (result : Except Error PlanStatus) (ended : d.runner.phase = .returned result)
    (call : Nat) (corr : Uuid) (sent : corr ∈ d.sent) (served : (call, corr) ∈ d.served) (action : Action sv) :
    ¬ StartsTransport b handler d action call := by
  intro starts
  have inv : Settling d := invariant_of_allSteps (step_settling b handler) settled (settling_start rows) reached
  have still := startsTransport_unstarted starts
  obtain ⟨w, member, env, isCurrent, asked⟩ := inv.handled call corr served still
  have held : holds d.broker corr w = true := (holds_iff).mpr (Or.inr ⟨env, call, isCurrent, asked, still⟩)
  obtain ⟨wt, isWaiting, -⟩ := inv.awaitedOnly corr sent ((outstanding_iff).mpr ⟨w, member, held⟩)
  have waits := inv.inDispatch (by simp [isWaiting])
  simp [ended, awaited] at waits

/-! ## A plan of one write

The RouterOS agent runs the drop rule of a one-step plan; the policy asks for approval.
-/

open Daimon.Driver.RouterOs in
def routerOsHandler : Handler Semver.caret where
  render env :=
    let built := do
      let capability ← requireStr env.body "request" "capability"
      let targetRef ← requireStr env.body "request" "target_ref"
      let command ← buildCommand capability (env.body.get? "params")
      let timeoutSecs := ((env.body.get? "timeout_secs").bind Json.asU64?).getD 30
      buildExecRequest env.sender.name capability targetRef command timeoutSecs.toNat buildCapabilities
    match built with
    | .ok req => .ok req
    | .error _ => .error (Json.ofFields [("success", .bool false)])
  respond _ result := Json.ofFields [("success", .bool result.toOption.isSome)]

def guardedBroker : Daimon.Broker.Config := Broker.sampleBroker.withGuard Broker.sampleGuard

def oneWrite : PlanRows :=
  { status := .planning
    steps := [{ Orchestrator.sampleStep 0 [] with params := .object [("dst_address", .string "10.0.0.0/24")] }]
    distinct := by decide }

def parkWrite : List (Action Semver.caret) :=
  [.spawn ⟨"routeros"⟩ Daimon.Driver.RouterOs.buildCapabilities] ++ List.replicate 5 (.plan .go) ++
    [.dispatch Orchestrator.sampleRegistry 5, .arm, .take 0] ++ (Broker.park Broker.sampleRequest).tail.map .broker

def timelyRun : List (Action Semver.caret) :=
  parkWrite ++ Broker.approve.map .broker ++
    [.broker (.advance 0 .go), .broker (.advance 0 (.executed (.error (.connect "refused")))), .finish 0,
     .receive, .receive, .plan .go, .plan .go, .plan .go]

def lateRun : List (Action Semver.caret) :=
  parkWrite ++ [.broker (.elapse 60000), .timeout, .plan .go, .plan .go, .plan .go] ++
    Broker.approve.map .broker

theorem timelyRun_not_late :
    ∃ d, run (step guardedBroker fun _ => routerOsHandler) (System.start _ oneWrite) timelyRun = some d ∧
      d.runner.phase = .returned (.ok .failed) ∧ 5 ∈ d.sent ∧ (0, 5) ∈ d.served ∧
      ∀ action, ¬ StartsTransport guardedBroker (fun _ => routerOsHandler) d action 0 := by
  have timely : (run (step guardedBroker fun _ => routerOsHandler) (System.start _ oneWrite) timelyRun).any (fun d =>
      d.runner.phase = .returned (.ok .failed) ∧ 5 ∈ d.sent ∧ (0, 5) ∈ d.served) = true := by
    decide +kernel
  obtain ⟨d, ran, facts⟩ := (Option.any_eq_true _ _).mp timely
  obtain ⟨ended, sent, served⟩ := of_decide_eq_true facts
  refine ⟨d, ran, ended, sent, served, ?_⟩
  exact no_late_execution guardedBroker (fun _ => routerOsHandler) oneWrite timelyRun d ran (by decide +kernel)
    (.ok .failed) ended 0 5 sent served

/-- The write reaches the device after its step was recorded `Failed` and the call has returned. -/
theorem approved_write_runs_after_plan_failed :
    ∃ (actions : List (Action Semver.caret)) (d : System Semver.caret) (call : Nat) (corr : Uuid)
      (action : Action Semver.caret),
      run (step guardedBroker fun _ => routerOsHandler) (System.start _ oneWrite) actions = some d ∧
      d.rows.steps.map Step.status = [.failed] ∧ d.runner.phase = .returned (.ok .failed) ∧
      corr ∈ d.sent ∧ (call, corr) ∈ d.served ∧
      StartsTransport guardedBroker (fun _ => routerOsHandler) d action call := by
  have late : (run (step guardedBroker fun _ => routerOsHandler) (System.start _ oneWrite) lateRun).any (fun d =>
      d.rows.steps.map Step.status = [.failed] ∧ d.runner.phase = .returned (.ok .failed) ∧
      5 ∈ d.sent ∧ (0, 5) ∈ d.served ∧
      (step guardedBroker (fun _ => routerOsHandler) d (.broker (.advance 0 .go))).any fun d' =>
        d'.broker.log = d.broker.log ++ [.transportStarted 0 ⟨"10.100.10.1", 22⟩
          (.shellCommand "/ip firewall filter add chain=forward action=drop dst-address=10.0.0.0/24" 30)
          (.sshPassword "admin" "secret")]) = true := by
    decide +kernel
  obtain ⟨d, ran, facts⟩ := (Option.any_eq_true _ _).mp late
  obtain ⟨recorded, ended, sent, served, started⟩ := of_decide_eq_true facts
  obtain ⟨d', moved, logged⟩ := (Option.any_eq_true _ _).mp started
  exact ⟨lateRun, d, 0, 5, .broker (.advance 0 .go), ran, recorded, ended, sent, served,
    d', _, _, _, moved, of_decide_eq_true logged⟩

end Daimon.Proof.Deployment
