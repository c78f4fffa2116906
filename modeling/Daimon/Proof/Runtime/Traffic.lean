import Daimon.Runtime.Supervisor

/-!
# What a step does on the bus

Inversion of the runtime's step function: what a dispatch call, a handler loop and the whole world can do to the
messages in flight. The supervisor touches them only by starting loops.
-/

namespace Daimon.Proof.Runtime
open Daimon.Core Lib
open Daimon.Runtime Daimon.Runtime.Dispatcher

variable {sv : Semver} {config : SupervisorConfig} {w w' : World sv} {a : Action sv}
  {t t' : Traffic sv} {call after : Call sv} {loop loop' : HandlerLoop sv} {m : Message sv}
  {now : Nat} {registry : CapabilityRegistry} {bus : List (Message sv)}

/-! ## Calls -/

inductive CallStep (now : Nat) (registry : CapabilityRegistry) (call : Call sv) : CallAction → Call sv → Prop
  | resolved {entry : RegistryEntry} (phase : call.phase = .resolve)
      (found : registry.requireByCapability sv call.name call.versionReq = .ok entry) :
      CallStep now registry call .resolve { call with phase := .subscribe }
  | notFound {error : CoreError} (phase : call.phase = .resolve)
      (missing : registry.requireByCapability sv call.name call.versionReq = .error error) :
      CallStep now registry call .resolve
        (call.returns (.error (.capabilityNotFound (call.name ++ " @ " ++ sv.display call.versionReq))))
  | subscribed (phase : call.phase = .subscribe) :
      CallStep now registry call .subscribe { call with phase := .send, receiver := some .new }
  | armed (phase : call.phase = .arm) :
      CallStep now registry call .arm { call with phase := .check, deadline := some (now + call.timeout) }
  | expired {deadline : Nat} (phase : call.phase = .check) (set : call.deadline = some deadline)
      (past : deadline ≤ now) :
      CallStep now registry call .check (call.returns (.error (.timeout call.timeout)))
  | checked {deadline : Nat} (phase : call.phase = .check) (set : call.deadline = some deadline)
      (ahead : now < deadline) :
      CallStep now registry call .check { call with phase := .poll (deadline - now) }
  | polled {remaining : Nat} (phase : call.phase = .poll remaining) :
      CallStep now registry call .poll { call with phase := .recv (now + remaining) }
  | accepted {timer : Nat} {rx rx' : Receiver (Message sv)} {m : Message sv} (phase : call.phase = .recv timer)
      (listening : call.receiver = some rx) (read : rx.recv = some (.item m, rx')) (accepts : call.accepts m = true) :
      CallStep now registry call .receive
        { call with receiver := some rx', phase := .returned (.ok m.envelope.body) }
  | skipped {timer : Nat} {rx rx' : Receiver (Message sv)} {m : Message sv} (phase : call.phase = .recv timer)
      (listening : call.receiver = some rx) (read : rx.recv = some (.item m, rx')) (accepts : call.accepts m = false) :
      CallStep now registry call .receive { call with receiver := some rx', phase := .check }
  | lagged {timer lost : Nat} {rx rx' : Receiver (Message sv)} (phase : call.phase = .recv timer)
      (listening : call.receiver = some rx) (read : rx.recv = some (.lagged lost, rx')) :
      CallStep now registry call .receive { call with receiver := some rx', phase := .check }
  | timedOut {timer : Nat} (phase : call.phase = .recv timer) (past : timer ≤ now) :
      CallStep now registry call .timeout (call.returns (.error (.timeout call.timeout)))

theorem advance_callStep {action : CallAction} (moved : call.advance now registry action = some after) :
    CallStep now registry call action after := by
  unfold Call.advance at moved
  split at moved
  · next phase =>
      split at moved <;> obtain rfl := Option.some.inj moved
      · next found => exact .resolved phase found
      · next missing => exact .notFound phase missing
  · next phase =>
      obtain rfl := Option.some.inj moved
      exact .subscribed phase
  · next phase =>
      obtain rfl := Option.some.inj moved
      exact .armed phase
  · next phase =>
      obtain ⟨deadline, set, rfl⟩ := Option.map_eq_some_iff.mp moved
      split
      · exact .expired phase set (by omega)
      · exact .checked phase set (by omega)
  · next phase =>
      obtain rfl := Option.some.inj moved
      exact .polled phase
  · next phase =>
      split at moved
      · next read =>
          obtain ⟨rx, listening, read⟩ := Option.bind_eq_some_iff.mp read
          obtain rfl := Option.some.inj moved
          split
          · next accepts => exact .accepted phase listening read accepts
          · next rejects => exact .skipped phase listening read (eq_false_of_ne_true rejects)
      · next read =>
          obtain ⟨rx, listening, read⟩ := Option.bind_eq_some_iff.mp read
          obtain rfl := Option.some.inj moved
          exact .lagged phase listening read
      · cases moved
  · next phase =>
      split at moved
      · next past =>
          obtain rfl := Option.some.inj moved
          exact .timedOut phase past
      · cases moved
  · cases moved

/-! ## Handler loops -/

inductive LoopStep (loop : HandlerLoop sv) : LoopAction → HandlerLoop sv → Option (Message sv) → Prop
  | subscribed (status : loop.status = .created) :
      LoopStep loop .subscribe { loop with status := .subscribed, receiver := .new } none
  | passed {rx : Receiver (Message sv)} {m : Message sv} (status : loop.status = .subscribed)
      (idle : loop.handling = none) (read : loop.receiver.recv = some (.item m, rx)) (addressed : loop.addressed m) :
      LoopStep loop .receive { loop with receiver := rx, handling := some m } (some m)
  | skipped {rx : Receiver (Message sv)} {m : Message sv} (status : loop.status = .subscribed)
      (idle : loop.handling = none) (read : loop.receiver.recv = some (.item m, rx))
      (foreign : loop.addressed m = false) :
      LoopStep loop .receive { loop with receiver := rx } none
  | lagged {rx : Receiver (Message sv)} {lost : Nat} (status : loop.status = .subscribed)
      (idle : loop.handling = none) (read : loop.receiver.recv = some (.lagged lost, rx)) :
      LoopStep loop .receive { loop with receiver := rx } none
  | finished (status : loop.status = .subscribed) : LoopStep loop .finish { loop with handling := none } none
  | panicked (status : loop.status = .subscribed) :
      LoopStep loop .panic { loop with status := .ended, handling := none } none

theorem advance_loopStep {action : LoopAction} {passed : Option (Message sv)}
    (moved : loop.advance action = some (loop', passed)) : LoopStep loop action loop' passed := by
  unfold HandlerLoop.advance at moved
  split at moved
  · next status =>
      obtain ⟨rfl, rfl⟩ := Prod.mk.inj (Option.some.inj moved)
      exact .subscribed status
  · next status idle =>
      split at moved
      · next read =>
          split at moved <;> obtain ⟨rfl, rfl⟩ := Prod.mk.inj (Option.some.inj moved)
          · next addressed => exact .passed status idle read addressed
          · next foreign => exact .skipped status idle read (eq_false_of_ne_true foreign)
      · next read =>
          obtain ⟨rfl, rfl⟩ := Prod.mk.inj (Option.some.inj moved)
          exact .lagged status idle read
      · cases moved
  · next status _ =>
      obtain ⟨rfl, rfl⟩ := Prod.mk.inj (Option.some.inj moved)
      exact .finished status
  · next status _ =>
      obtain ⟨rfl, rfl⟩ := Prod.mk.inj (Option.some.inj moved)
      exact .panicked status
  · cases moved

/-! ## The world -/

def requestOf (t : Traffic sv) (i : Nat) (call : Call sv) (correlationId : Uuid) : Message sv :=
  t.message (.call i) none (call.envelope correlationId)

inductive TrafficStep (now : Nat) (registry : CapabilityRegistry) (t : Traffic sv) : Action sv → Traffic sv → Prop
  | unchanged {a : Action sv} : TrafficStep now registry t a t
  | started {action : SupervisorAction} (runner : Nat) (agent : Agent) :
      TrafficStep now registry t (.supervise action) { t with loops := t.loops ++ [.start runner agent] }
  | called {sender : AgentId} {name : String} {versionReq : sv.VersionReq} {body : Json} {timeout : Nat} :
      TrafficStep now registry t (.dispatch sender name versionReq body timeout)
        { t with calls := t.calls ++ [.new sender name versionReq body timeout] }
  | call {i : Nat} {action : CallAction} {call after : Call sv} (found : t.calls[i]? = some call)
      (moved : CallStep now registry call action after) :
      TrafficStep now registry t (.call i action) { t with calls := t.calls.set i after }
  | sent {i : Nat} {correlationId : Uuid} {call : Call sv} (found : t.calls[i]? = some call)
      (phase : call.phase = .send) :
      TrafficStep now registry t (.send i correlationId)
        { t.put (requestOf t i call correlationId) with
          calls := (t.put (requestOf t i call correlationId)).calls.modify i fun c =>
            c.awaits (requestOf t i call correlationId) }
  | loop {l : Nat} {action : LoopAction} {loop after : HandlerLoop sv} {passed : Option (Message sv)}
      (found : t.loops[l]? = some loop) (moved : LoopStep loop action after passed) :
      TrafficStep now registry t (.loop l action)
        { t with
          loops := t.loops.set l after
          handled := t.handled ++ (passed.map fun m => (l, m.serial)).toList }
  | replied {l : Nat} {sender : AgentId} {body : Json} {loop : HandlerLoop sv} {m : Message sv}
      (found : t.loops[l]? = some loop) (handling : loop.handling = some m) :
      TrafficStep now registry t (.reply l sender body)
        (t.put (t.message (.loop l) (some m) (m.envelope.replyTo sender body)))
  | published {envelope : AgentEnvelope sv} :
      TrafficStep now registry t (.publish envelope) (t.put (t.message .other none envelope))

theorem runnerStep_traffic {r : Nat} {runner : Runner} (moved : w.runnerStep config r runner = some w') :
    w'.now = w.now ∧ (w'.traffic = w.traffic ∨
      w'.traffic = { w.traffic with loops := w.traffic.loops ++ [.start r runner.agent] }) := by
  unfold World.runnerStep World.setRunner at moved
  split at moved
  case h_2 =>
      obtain rfl := Option.some.inj moved
      exact ⟨rfl, Or.inr rfl⟩
  case h_3 | h_4 =>
      split at moved
      · obtain rfl := Option.some.inj moved
        exact ⟨rfl, Or.inl rfl⟩
      · cases moved
  case h_8 | h_9 => cases moved
  all_goals
    obtain rfl := Option.some.inj moved
    exact ⟨rfl, Or.inl rfl⟩

theorem supervise_traffic {action : SupervisorAction} (moved : w.supervise config action = some w') :
    w'.now = w.now ∧ TrafficStep w.now w.supervisor.registry w.traffic (.supervise action) w'.traffic := by
  unfold World.supervise World.setRunner at moved
  split at moved
  case h_1 | h_2 =>
      obtain rfl := Option.some.inj moved
      exact ⟨rfl, .unchanged⟩
  case h_3 | h_4 =>
      split at moved
      · obtain ⟨supervisor, -, rfl⟩ := Option.map_eq_some_iff.mp moved
        exact ⟨rfl, .unchanged⟩
      · cases moved
  case h_5 =>
      split at moved
      · obtain ⟨time, same | started⟩ := runnerStep_traffic moved
        · exact ⟨time, same ▸ .unchanged⟩
        · exact ⟨time, started ▸ .started _ _⟩
      · cases moved
  case h_6 =>
      split at moved
      · split at moved
        · obtain rfl := Option.some.inj moved
          exact ⟨rfl, .unchanged⟩
        · cases moved
      · cases moved

theorem step_traffic (moved : w.step config a = some w') :
    w.now ≤ w'.now ∧ TrafficStep w.now w.supervisor.registry w.traffic a w'.traffic := by
  cases a with
  | supervise action =>
      obtain ⟨time, traffic⟩ := supervise_traffic moved
      exact ⟨time.ge, traffic⟩
  | dispatch sender name versionReq body timeout =>
      obtain rfl := Option.some.inj moved
      exact ⟨le_rfl, .called⟩
  | call i action =>
      obtain ⟨traffic, done, rfl⟩ := Option.map_eq_some_iff.mp moved
      unfold Traffic.advanceCall at done
      split at done
      · next found =>
          obtain ⟨after, advanced, rfl⟩ := Option.map_eq_some_iff.mp done
          exact ⟨le_rfl, .call found (advance_callStep advanced)⟩
      · cases done
  | send i correlationId =>
      obtain ⟨traffic, done, rfl⟩ := Option.map_eq_some_iff.mp moved
      unfold Traffic.send at done
      split at done
      · next found =>
          split at done
          · next phase =>
              obtain rfl := Option.some.inj done
              exact ⟨le_rfl, .sent found phase⟩
          · cases done
      · cases done
  | loop l action =>
      obtain ⟨traffic, done, rfl⟩ := Option.map_eq_some_iff.mp moved
      unfold Traffic.advanceLoop at done
      split at done
      · next found =>
          obtain ⟨⟨after, passed⟩, advanced, rfl⟩ := Option.map_eq_some_iff.mp done
          exact ⟨le_rfl, .loop found (advance_loopStep advanced)⟩
      · cases done
  | reply l sender body =>
      obtain ⟨traffic, done, rfl⟩ := Option.map_eq_some_iff.mp moved
      unfold Traffic.reply at done
      split at done
      · next found =>
          split at done
          · next handling =>
              obtain rfl := Option.some.inj done
              exact ⟨le_rfl, .replied found handling⟩
          · cases done
      · cases done
  | publish envelope =>
      obtain rfl := Option.some.inj moved
      exact ⟨le_rfl, .published⟩
  | elapse nanos =>
      obtain rfl := Option.some.inj moved
      exact ⟨Nat.le_add_right _ _, .unchanged⟩

/-! ## The bus as a log -/

/-- Messages are numbered in the order of the bus, only a loop's reply belongs to an earlier exchange, and loops
hold nothing but messages of the bus. -/
structure Logged (t : Traffic sv) : Prop where
  serials : ∀ (k : Nat) (m : Message sv), t.bus[k]? = some m → m.serial = k
  roots : ∀ m ∈ t.bus, (∀ l, m.source ≠ .loop l) → m.origin = m.serial
  loops : ∀ loop ∈ t.loops, (∀ m ∈ loop.receiver.backlog, m ∈ t.bus) ∧ ∀ m, loop.handling = some m → m ∈ t.bus

theorem Logged.eq_of_serial {m' : Message sv} (inv : Logged t) (member : m ∈ t.bus) (member' : m' ∈ t.bus)
    (same : m.serial = m'.serial) : m = m' := by
  obtain ⟨k, at_k⟩ := List.mem_iff_getElem?.mp member
  obtain ⟨k', at_k'⟩ := List.mem_iff_getElem?.mp member'
  have place : k = k' := by rw [← inv.serials k m at_k, ← inv.serials k' m' at_k', same]
  exact Option.some.inj ((place ▸ at_k).symm.trans at_k')

theorem Logged.serial_lt (inv : Logged t) (member : m ∈ t.bus) : m.serial < t.bus.length := by
  obtain ⟨k, at_k⟩ := List.mem_iff_getElem?.mp member
  rw [inv.serials k m at_k]
  exact (List.getElem?_eq_some_iff.mp at_k).1

theorem Logged.withCalls (inv : Logged t) (calls : List (Call sv)) : Logged { t with calls } :=
  ⟨inv.serials, inv.roots, inv.loops⟩

theorem logged_new : Logged (Traffic.new : Traffic sv) := by
  constructor <;> simp [Traffic.new]

theorem serials_put (inv : Logged t) (last : m.serial = t.bus.length) :
    ∀ (k : Nat) (y : Message sv), (t.put m).bus[k]? = some y → y.serial = k := by
  intro k y found
  rcases snoc_cases found with old | ⟨rfl, rfl⟩
  · exact inv.serials k y old
  · exact last

theorem roots_put (inv : Logged t) (root : (∀ l, m.source ≠ .loop l) → m.origin = m.serial) :
    ∀ y ∈ (t.put m).bus, (∀ l, y.source ≠ .loop l) → y.origin = y.serial := by
  intro y member
  rcases (mem_snoc).mp member with old | rfl
  · exact inv.roots y old
  · exact root

theorem loops_put (inv : Logged t) (m : Message sv) :
    ∀ loop ∈ (t.put m).loops, (∀ y ∈ loop.receiver.backlog, y ∈ (t.put m).bus) ∧
      ∀ y, loop.handling = some y → y ∈ (t.put m).bus := by
  intro loop member
  obtain ⟨old, present, rfl⟩ := List.mem_map.mp member
  obtain ⟨backlog, handling⟩ := inv.loops old present
  unfold HandlerLoop.deliver
  split
  · refine ⟨?_, fun y held => (mem_snoc).mpr (Or.inl (handling y held))⟩
    intro y queued
    rcases Receiver.mem_deliver queued with before | rfl
    · exact (mem_snoc).mpr (Or.inl (backlog y before))
    · exact (mem_snoc).mpr (Or.inr rfl)
  · exact ⟨fun y queued => (mem_snoc).mpr (Or.inl (backlog y queued)),
      fun y held => (mem_snoc).mpr (Or.inl (handling y held))⟩

theorem logged_put (inv : Logged t) (last : m.serial = t.bus.length)
    (root : (∀ l, m.source ≠ .loop l) → m.origin = m.serial) : Logged (t.put m) :=
  ⟨serials_put inv last, roots_put inv root, loops_put inv m⟩

theorem loopStep_within {loop loop' : HandlerLoop sv} {action : LoopAction} {passed : Option (Message sv)}
    (moved : LoopStep loop action loop' passed)
    (within : (∀ m ∈ loop.receiver.backlog, m ∈ bus) ∧ ∀ m, loop.handling = some m → m ∈ bus) :
    (∀ m ∈ loop'.receiver.backlog, m ∈ bus) ∧ ∀ m, loop'.handling = some m → m ∈ bus := by
  obtain ⟨backlog, handling⟩ := within
  cases moved with
  | subscribed status => exact ⟨by simp [Receiver.new], handling⟩
  | passed status idle read addressed =>
      have reads := Receiver.recv_reads read
      refine ⟨fun m queued => backlog m (reads.mem queued), ?_⟩
      cases reads with
      | item clear next =>
          intro m held
          obtain rfl := Option.some.inj held
          exact backlog _ (next ▸ List.mem_cons_self)
  | skipped status idle read foreign =>
      exact ⟨fun m queued => backlog m ((Receiver.recv_reads read).mem queued), handling⟩
  | lagged status idle read =>
      exact ⟨fun m queued => backlog m ((Receiver.recv_reads read).mem queued), handling⟩
  | finished status => exact ⟨backlog, by simp⟩
  | panicked status => exact ⟨backlog, by simp⟩

theorem logged_step (inv : Logged t) (step : TrafficStep now registry t a t') : Logged t' := by
  cases step with
  | unchanged => exact inv
  | started runner agent =>
      refine { inv with loops := fun loop member => ?_ }
      rcases (mem_snoc).mp member with old | rfl
      · exact inv.loops loop old
      · exact ⟨by simp [HandlerLoop.start, Receiver.new], by simp [HandlerLoop.start]⟩
  | called => exact inv.withCalls _
  | call found moved => exact inv.withCalls _
  | sent found phase => exact (logged_put inv rfl (fun _ => rfl)).withCalls _
  | loop found moved =>
      refine { inv with loops := fun loop member => ?_ }
      rcases List.mem_or_eq_of_mem_set member with old | rfl
      · exact inv.loops loop old
      · exact loopStep_within moved (inv.loops _ (List.mem_of_getElem? found))
  | replied found handling => exact logged_put inv rfl (fun other => absurd rfl (other _))
  | published => exact logged_put inv rfl (fun _ => rfl)

theorem mem_bus_step (step : TrafficStep now registry t a t') (member : m ∈ t.bus) : m ∈ t'.bus := by
  cases step with
  | unchanged | started | called | call | loop => exact member
  | sent | replied | published => exact (mem_snoc).mpr (Or.inl member)

/-! ## A sample -/

def subscribedEcho (k : Nat) (name : String) : List (Action .caret) :=
  [.supervise (.spawn ⟨⟨name⟩, [.readOnly "test.echo" (.new 1 0 0)]⟩),
   .supervise (.advanceSpawn k), .supervise (.advanceSpawn k), .supervise (.advanceSpawn k),
   .supervise (.advanceSpawn k), .supervise (.advanceSpawn k),
   .supervise (.advanceRunner k), .supervise (.advanceRunner k), .loop k .subscribe]

def echoRequest : List (Action .caret) :=
  [.dispatch ⟨"client"⟩ "test.echo" (.caret 1 0 0) (.string "ping") 2000000000,
   .call 0 .resolve, .call 0 .subscribe, .send 0 7]

end Daimon.Proof.Runtime
