import Daimon.Proof.Runtime.Traffic

/-!
# Replies reach the call they were made for

Every call subscribes before it sends, its request carries an id that nothing on the bus has, and agents answer
with `AgentEnvelope::reply_to`; so the messages with the id of a request are the request and what its
handling led to, and a call that did not lag has passed none of them by.
-/

namespace Daimon.Proof.Runtime
open Daimon.Core Lib
open Daimon.Runtime Daimon.Runtime.Dispatcher

variable {sv : Semver} {config : SupervisorConfig} {w w' : World sv} {a : Action sv}
  {t t' : Traffic sv} {call after : Call sv} {m q : Message sv} {bus : List (Message sv)}
  {now : Nat} {registry : CapabilityRegistry}

/-! ## One call -/

section Deliver
variable (call : Call sv) (m y : Message sv)

@[simp] theorem deliver_request : (call.deliver m).request = call.request := by
  unfold Call.deliver
  split <;> rfl

@[simp] theorem deliver_sender : (call.deliver m).sender = call.sender := by
  unfold Call.deliver
  split <;> rfl

@[simp] theorem deliver_phase : (call.deliver m).phase = call.phase := by
  unfold Call.deliver
  split <;> rfl

@[simp] theorem deliver_deadline : (call.deliver m).deadline = call.deadline := by
  unfold Call.deliver
  split <;> rfl

@[simp] theorem deliver_envelope (correlationId : Uuid) :
    (call.deliver m).envelope correlationId = call.envelope correlationId := by
  unfold Call.deliver
  split <;> rfl

@[simp] theorem deliver_accepts : (call.deliver m).accepts y = call.accepts y := by
  unfold Call.accepts
  rw [deliver_request, deliver_sender]

end Deliver

theorem accepts_request {y : Message sv} (accepted : call.accepts y = true) :
    ∃ q, call.request = some q ∧ y.envelope.correlationId = q.envelope.correlationId ∧
      y.envelope.recipient = .direct call.sender := by
  unfold Call.accepts at accepted
  split at accepted
  · next q request =>
      rw [Bool.and_eq_true, beq_iff_eq, beq_iff_eq] at accepted
      exact ⟨q, request, accepted.1, accepted.2⟩
  · cases accepted

/-- The call holds a receiver of the bus, and one that did not lag has passed by no reply to it. -/
def Listening (bus : List (Message sv)) (call : Call sv) : Prop :=
  ∃ rx, call.receiver = some rx ∧ (∀ m ∈ rx.backlog, m ∈ bus) ∧ rx.Follows bus (fun m => call.accepts m = true)

def FirstReply (bus : List (Message sv)) (call : Call sv) (m : Message sv) : Prop :=
  ∃ seen rest, bus = seen ++ m :: rest ∧ (∀ y ∈ seen, ¬call.accepts y = true) ∧ call.accepts m = true

def Unlagged (call : Call sv) : Prop := ∀ rx, call.receiver = some rx → rx.lagged = false

def Standing (now : Nat) (bus : List (Message sv)) (call : Call sv) : Prop :=
  match call.phase with
  | .resolve | .subscribe => call.request = none ∧ call.deadline = none
  | .send => call.request = none ∧ call.deadline = none ∧ Listening bus call
  | .arm => call.deadline = none ∧ Listening bus call
  | .check => call.deadline.isSome ∧ Listening bus call
  | .poll remaining => (∃ deadline, call.deadline = some deadline ∧ deadline ≤ now + remaining) ∧ Listening bus call
  | .recv timer => (∃ deadline, call.deadline = some deadline ∧ deadline ≤ timer) ∧ Listening bus call
  | .returned (.ok body) =>
      ∃ m ∈ bus, call.accepts m = true ∧ m.envelope.body = body ∧ (Unlagged call → FirstReply bus call m)
  | .returned (.error (.timeout duration)) =>
      duration = call.timeout ∧ ∃ deadline, call.deadline = some deadline ∧ deadline ≤ now
  | .returned (.error _) => call.request = none

theorem listening_deliver (m : Message sv) (waiting : call.hasReturned = false) (listening : Listening bus call) :
    Listening (bus ++ [m]) (call.deliver m) := by
  obtain ⟨rx, held, within, follows⟩ := listening
  refine ⟨rx.deliver inProcBusCapacity m, by simp [Call.deliver, waiting, held], ?_, ?_⟩
  · intro y member
    rcases Receiver.mem_deliver member with old | rfl
    · exact (mem_snoc).mpr (Or.inl (within y old))
    · exact (mem_snoc).mpr (Or.inr rfl)
  · simpa only [deliver_accepts] using Receiver.follows_deliver follows

theorem firstReply_deliver (x : Message sv) (returned : call.hasReturned = true) (first : FirstReply bus call m) :
    FirstReply (bus ++ [x]) (call.deliver x) m := by
  obtain ⟨seen, rest, split, passed, accepted⟩ := first
  rw [Call.deliver, if_pos returned]
  exact ⟨seen, rest ++ [x], by rw [split, List.append_assoc]; rfl, passed, accepted⟩

theorem standing_deliver (x : Message sv) (standing : Standing now bus call) :
    Standing now (bus ++ [x]) (call.deliver x) := by
  unfold Standing at standing ⊢
  rw [deliver_phase]
  have waiting (p : Phase) (phase : call.phase = p) (open_ : ∀ outcome, p ≠ .returned outcome) :
      call.hasReturned = false := by
    unfold Call.hasReturned
    rw [phase]
    cases p with
    | returned outcome => exact absurd rfl (open_ outcome)
    | _ => rfl
  cases phase : call.phase with
  | resolve | subscribe => simpa [phase] using standing
  | send =>
      simp only [phase, deliver_request, deliver_deadline] at standing ⊢
      exact ⟨standing.1, standing.2.1, listening_deliver x (waiting _ phase (by simp)) standing.2.2⟩
  | arm | check | poll remaining | recv timer =>
      simp only [phase, deliver_deadline] at standing ⊢
      exact ⟨standing.1, listening_deliver x (waiting _ phase (by simp)) standing.2⟩
  | returned outcome =>
      have returned : call.hasReturned = true := by simp [Call.hasReturned, phase]
      have same : call.deliver x = call := by rw [Call.deliver, if_pos returned]
      cases outcome with
      | ok body =>
          simp only [phase] at standing ⊢
          obtain ⟨m, member, accepted, answer, first⟩ := standing
          refine ⟨m, (mem_snoc).mpr (Or.inl member), by simpa using accepted, answer, ?_⟩
          intro unlagged
          exact firstReply_deliver x returned (first (same ▸ unlagged))
      | error e =>
          rw [same]
          simp only [phase] at standing
          cases e <;> exact standing

theorem standing_later {later : Nat} (standing : Standing now bus call) (elapsed : now ≤ later) :
    Standing later bus call := by
  unfold Standing at standing ⊢
  cases phase : call.phase with
  | poll remaining =>
      simp only [phase] at standing ⊢
      obtain ⟨⟨deadline, set, bound⟩, listening⟩ := standing
      exact ⟨⟨deadline, set, by omega⟩, listening⟩
  | returned outcome =>
      simp only [phase] at standing
      cases outcome with
      | ok body => exact standing
      | error e =>
          cases e with
          | timeout duration =>
              obtain ⟨whole, deadline, set, bound⟩ := standing
              exact ⟨whole, deadline, set, bound.trans elapsed⟩
          | _ => exact standing
  | _ => simpa only [phase] using standing

theorem standing_step {action : CallAction} (standing : Standing now bus call)
    (moved : CallStep now registry call action after) : Standing now bus after := by
  unfold Standing at standing
  cases moved with
  | resolved phase found => simpa [Standing, phase] using standing
  | notFound phase missing =>
      rw [phase] at standing
      exact standing.1
  | subscribed phase =>
      rw [phase] at standing
      refine ⟨standing.1, standing.2, .new, rfl, by simp [Receiver.new], Receiver.follows_new ?_⟩
      intro y _ accepted
      simp [Call.accepts, standing.1] at accepted
  | armed phase =>
      rw [phase] at standing
      exact ⟨rfl, standing.2⟩
  | expired phase set past => exact ⟨rfl, _, set, past⟩
  | checked phase set ahead =>
      rw [phase] at standing
      exact ⟨⟨_, set, by omega⟩, standing.2⟩
  | polled phase =>
      rw [phase] at standing
      exact standing
  | accepted phase listening read accepts =>
      rw [phase] at standing
      obtain ⟨-, rx, held, within, follows⟩ := standing
      obtain rfl := Option.some.inj (held.symm.trans listening)
      cases Receiver.recv_reads read with
      | item clear next =>
          refine ⟨_, within _ (by rw [next]; exact List.mem_cons_self), accepts, rfl, ?_⟩
          intro unlagged
          have quiet := unlagged _ rfl
          obtain ⟨-, seen, split, passed⟩ := follows quiet
          exact ⟨seen, _, by rw [split, next], passed, accepts⟩
  | skipped phase listening read accepts =>
      rw [phase] at standing
      obtain ⟨⟨deadline, set, -⟩, rx, held, within, follows⟩ := standing
      obtain rfl := Option.some.inj (held.symm.trans listening)
      cases Receiver.recv_reads read with
      | item clear next =>
          have rejected := ne_true_of_eq_false accepts
          refine ⟨by simp [set], _, rfl, ?_, Receiver.follows_skip follows next rejected⟩
          intro y member
          exact within y (next ▸ List.mem_cons_of_mem _ member)
  | lagged phase listening read =>
      rw [phase] at standing
      obtain ⟨⟨deadline, set, -⟩, rx, held, within, follows⟩ := standing
      obtain rfl := Option.some.inj (held.symm.trans listening)
      cases Receiver.recv_reads read with
      | lagged positive => exact ⟨by simp [set], _, rfl, within, Receiver.follows_lagged follows⟩
  | timedOut phase past =>
      rw [phase] at standing
      obtain ⟨⟨deadline, set, bound⟩, -⟩ := standing
      exact ⟨rfl, deadline, set, bound.trans past⟩

/-! ## All calls -/

structure Correlated (now : Nat) (t : Traffic sv) : Prop where
  logged : Logged t
  calls : ∀ (i : Nat) (call : Call sv), t.calls[i]? = some call → Standing now t.bus call ∧
    ∀ q, call.request = some q → q ∈ t.bus ∧ q.source = .call i ∧ q.origin = q.serial ∧
      q.envelope = call.envelope q.envelope.correlationId
  sources : ∀ m ∈ t.bus, ∀ i, m.source = .call i → ∃ call, t.calls[i]? = some call ∧ call.request = some m
  exchange : ∀ (i : Nat) (call : Call sv) (q : Message sv), t.calls[i]? = some call → call.request = some q →
    ∀ m ∈ t.bus, m.envelope.correlationId = q.envelope.correlationId → m.origin = q.serial

/-- Correlation ids are fresh: a request has one that is on no message, and unrelated traffic has the id of no
request. -/
def Fresh (t : Traffic sv) : Action sv → Prop
  | .send _ correlationId => ∀ m ∈ t.bus, m.envelope.correlationId ≠ correlationId
  | .publish envelope =>
      ∀ call ∈ t.calls, ∀ q ∈ call.request, envelope.correlationId ≠ q.envelope.correlationId
  | _ => True

instance decidableFresh (t : Traffic sv) : (a : Action sv) → Decidable (Fresh t a)
  | .send _ _ => inferInstanceAs (Decidable (∀ m ∈ t.bus, _))
  | .publish _ => inferInstanceAs (Decidable (∀ call ∈ t.calls, ∀ q ∈ call.request, _))
  | .supervise _ | .dispatch .. | .call .. | .loop .. | .reply .. | .elapse _ => isTrue trivial

theorem put_call {i : Nat} (found : (t.put m).calls[i]? = some after) :
    ∃ call, t.calls[i]? = some call ∧ after = call.deliver m := by
  obtain ⟨call, there, rfl⟩ := Option.map_eq_some_iff.mp ((List.getElem?_map ..).symm.trans found)
  exact ⟨call, there, rfl⟩

theorem calls_put (inv : Correlated now t) (m : Message sv) :
    ∀ (i : Nat) (call : Call sv), (t.put m).calls[i]? = some call → Standing now (t.put m).bus call ∧
      ∀ q, call.request = some q → q ∈ (t.put m).bus ∧ q.source = .call i ∧ q.origin = q.serial ∧
        q.envelope = call.envelope q.envelope.correlationId := by
  intro i after found
  obtain ⟨call, there, rfl⟩ := put_call found
  obtain ⟨standing, request⟩ := inv.calls i call there
  refine ⟨standing_deliver m standing, fun q held => ?_⟩
  obtain ⟨member, own⟩ := request q (by simpa using held)
  exact ⟨(mem_snoc).mpr (Or.inl member), by simpa using own⟩

theorem correlated_put (inv : Correlated now t) (logged : Logged (t.put m)) (other : ∀ i, m.source ≠ .call i)
    (fits : ∀ (i : Nat) (call : Call sv) (q : Message sv), t.calls[i]? = some call → call.request = some q →
      m.envelope.correlationId = q.envelope.correlationId → m.origin = q.serial) :
    Correlated now (t.put m) where
  logged := logged
  calls := calls_put inv m
  sources := by
    intro y member i source
    rcases (mem_snoc).mp member with old | rfl
    · obtain ⟨call, found, request⟩ := inv.sources y old i source
      exact ⟨call.deliver m, by simp [Traffic.put, found], by simpa using request⟩
    · exact absurd source (other i)
  exchange := by
    intro i after q found request y member same
    obtain ⟨call, there, rfl⟩ := put_call found
    rw [deliver_request] at request
    rcases (mem_snoc).mp member with old | rfl
    · exact inv.exchange i call q there request y old same
    · exact fits i call q there request same

section Send
variable {i : Nat} {correlationId : Uuid} (inv : Correlated now t) (found : t.calls[i]? = some call)
  (phase : call.phase = .send) (fresh : ∀ y ∈ t.bus, y.envelope.correlationId ≠ correlationId)
include inv found phase

theorem unsent : call.request = none ∧ call.deadline = none ∧ Listening t.bus call := by
  have standing := (inv.calls i call found).1
  unfold Standing at standing
  rwa [phase] at standing

include fresh

/-- Nothing on the bus is a reply yet, the request itself least of all. -/
theorem listening_sent : Listening (t.bus ++ [requestOf t i call correlationId])
    ((call.deliver (requestOf t i call correlationId)).awaits (requestOf t i call correlationId)) := by
  have waiting : call.hasReturned = false := by simp [Call.hasReturned, phase]
  obtain ⟨rx, held, within, follows⟩ :=
    listening_deliver (requestOf t i call correlationId) waiting (unsent inv found phase).2.2
  refine ⟨rx, held, within, follows.of_none ?_⟩
  intro y member accepted
  obtain ⟨q, request, same, direct⟩ := accepts_request accepted
  obtain rfl := Option.some.inj request
  rcases (mem_snoc).mp member with old | rfl
  · exact fresh y old same
  · cases direct

theorem correlated_send :
    Correlated now { t.put (requestOf t i call correlationId) with
      calls := (t.put (requestOf t i call correlationId)).calls.modify i fun c =>
        c.awaits (requestOf t i call correlationId) } where
  logged := (logged_put inv.logged rfl (fun _ => rfl)).withCalls _
  calls := by
    intro j after located
    rcases modify_cases located with ⟨rfl, old, there, rfl⟩ | ⟨-, there⟩
    · obtain ⟨before, same, rfl⟩ := put_call there
      obtain rfl := Option.some.inj (found.symm.trans same)
      refine ⟨⟨?_, listening_sent inv found phase fresh⟩, ?_⟩
      · exact (deliver_deadline ..).trans (unsent inv found phase).2.1
      · intro q request
        obtain rfl := Option.some.inj request
        exact ⟨(mem_snoc).mpr (Or.inr rfl), rfl, rfl, (deliver_envelope call _ correlationId).symm⟩
    · exact calls_put inv _ j after there
  sources := by
    intro y member j source
    rcases (mem_snoc).mp member with old | rfl
    · obtain ⟨before, there, request⟩ := inv.sources y old j source
      have different : i ≠ j := by
        rintro rfl
        obtain rfl := Option.some.inj (found.symm.trans there)
        rw [(unsent inv found phase).1] at request
        cases request
      refine ⟨before.deliver (requestOf t i call correlationId), ?_, by simpa using request⟩
      rw [List.getElem?_modify_ne _ _ different]
      simp [Traffic.put, there]
    · obtain rfl := Source.call.inj source
      refine ⟨(call.deliver (requestOf t i call correlationId)).awaits (requestOf t i call correlationId), ?_, rfl⟩
      rw [List.getElem?_modify_eq]
      simp [Traffic.put, found]
  exchange := by
    intro j after q located request y member same
    rcases modify_cases located with ⟨rfl, old, there, rfl⟩ | ⟨-, there⟩
    · obtain rfl := Option.some.inj request
      rcases (mem_snoc).mp member with earlier | rfl
      · exact absurd same (fresh y earlier)
      · rfl
    · obtain ⟨before, known, rfl⟩ := put_call there
      rw [deliver_request] at request
      rcases (mem_snoc).mp member with earlier | rfl
      · exact inv.exchange j before q known request y earlier same
      · exact absurd same.symm (fresh q ((inv.calls j before known).2 q request).1)

end Send

theorem callStep_request {action : CallAction} (moved : CallStep now registry call action after) :
    after.request = call.request := by
  cases moved <;> rfl

theorem callStep_envelope {action : CallAction} (moved : CallStep now registry call action after)
    (correlationId : Uuid) : after.envelope correlationId = call.envelope correlationId := by
  cases moved <;> rfl

theorem correlated_call {i : Nat} {action : CallAction} (inv : Correlated now t) (found : t.calls[i]? = some call)
    (moved : CallStep now registry call action after) :
    Correlated now { t with calls := t.calls.set i after } where
  logged := inv.logged.withCalls _
  calls := by
    intro j c located
    rcases set_cases located with ⟨rfl, rfl⟩ | ⟨-, there⟩
    · obtain ⟨standing, request⟩ := inv.calls j call found
      refine ⟨standing_step standing moved, fun q held => ?_⟩
      rw [callStep_envelope moved]
      exact request q ((callStep_request moved).symm.trans held)
    · exact inv.calls j c there
  sources := by
    intro m member j source
    obtain ⟨c, there, request⟩ := inv.sources m member j source
    by_cases same : i = j
    · subst same
      obtain rfl := Option.some.inj (found.symm.trans there)
      have bound := (List.getElem?_eq_some_iff.mp found).1
      exact ⟨after, List.getElem?_set_self bound, (callStep_request moved).trans request⟩
    · exact ⟨c, (List.getElem?_set_ne same).trans there, request⟩
  exchange := by
    intro j c q located request
    rcases set_cases located with ⟨rfl, rfl⟩ | ⟨-, there⟩
    · exact inv.exchange j call q found ((callStep_request moved).symm.trans request)
    · exact inv.exchange j c q there request

theorem correlated_called (inv : Correlated now t) (sender : AgentId) (name : String) (versionReq : sv.VersionReq)
    (body : Json) (timeout : Nat) :
    Correlated now { t with calls := t.calls ++ [.new sender name versionReq body timeout] } where
  logged := inv.logged.withCalls _
  calls := by
    intro j c located
    rcases snoc_cases located with there | ⟨-, rfl⟩
    · exact inv.calls j c there
    · exact ⟨⟨rfl, rfl⟩, fun q request => by cases request⟩
  sources := by
    intro m member j source
    obtain ⟨c, there, request⟩ := inv.sources m member j source
    have bound := (List.getElem?_eq_some_iff.mp there).1
    exact ⟨c, (List.getElem?_append_left bound).trans there, request⟩
  exchange := by
    intro j c q located request
    rcases snoc_cases located with there | ⟨-, rfl⟩
    · exact inv.exchange j c q there request
    · cases request

theorem correlated_later {later : Nat} (inv : Correlated now t) (elapsed : now ≤ later) : Correlated later t :=
  { inv with calls := fun i call found =>
      ⟨standing_later (inv.calls i call found).1 elapsed, (inv.calls i call found).2⟩ }

theorem correlated_traffic (fresh : Fresh t a) (inv : Correlated now t) (step : TrafficStep now registry t a t') :
    Correlated now t' := by
  have logged := logged_step inv.logged step
  cases step with
  | unchanged => exact inv
  | started runner agent => exact { inv with logged := logged }
  | called => exact correlated_called inv ..
  | call found moved => exact correlated_call inv found moved
  | sent found phase => exact correlated_send inv found phase fresh
  | loop found moved => exact { inv with logged := logged }
  | replied found handling =>
      have parent := (inv.logged.loops _ (List.mem_of_getElem? found)).2 _ handling
      refine correlated_put inv logged (by simp [Traffic.message]) ?_
      intro i call q there request same
      exact (inv.exchange i call q there request _ parent same :)
  | published =>
      refine correlated_put inv logged (by simp [Traffic.message]) ?_
      intro i call q there request same
      exact absurd same (fresh call (List.mem_of_getElem? there) q request)

theorem correlated_step (fresh : Fresh w.traffic a) (inv : Correlated w.now w.traffic)
    (moved : w.step config a = some w') : Correlated w'.now w'.traffic := by
  obtain ⟨elapsed, step⟩ := step_traffic moved
  exact correlated_later (correlated_traffic fresh inv step) elapsed

theorem correlated_new (registry : CapabilityRegistry) :
    Correlated (World.new registry : World sv).now (World.new registry : World sv).traffic where
  logged := logged_new
  calls := by simp [World.new, Traffic.new]
  sources := by simp [World.new, Traffic.new]
  exchange := by simp [World.new, Traffic.new]

/-! ## What a waiting call returns -/

/-- The call returns `body` after some steps of its own. -/
def Returns (config : SupervisorConfig) (w : World sv) (i : Nat) (body : Json) : Prop :=
  ∃ actions : List CallAction, ∃ w', run (World.step config) w (actions.map (Action.call i)) = some w' ∧
    ∃ call, w'.traffic.calls[i]? = some call ∧ call.phase = .returned (.ok body)

def setCall (w : World sv) (i : Nat) (call : Call sv) : World sv :=
  { w with traffic := { w.traffic with calls := w.traffic.calls.set i call } }

section Returns
variable {i : Nat} {body : Json} {rx : Receiver (Message sv)} {reply : Message sv} {rest skipped : List (Message sv)}

theorem setCall_found (found : w.traffic.calls[i]? = some call) (after : Call sv) :
    (setCall w i after).traffic.calls[i]? = some after :=
  List.getElem?_set_self (List.getElem?_eq_some_iff.mp found).1

theorem returns_now (found : w.traffic.calls[i]? = some call) (phase : call.phase = .returned (.ok body)) :
    Returns config w i body :=
  ⟨[], w, rfl, call, found, phase⟩

theorem returns_step {action : CallAction} (found : w.traffic.calls[i]? = some call)
    (moved : call.advance w.now w.supervisor.registry action = some after)
    (later : Returns config (setCall w i after) i body) : Returns config w i body := by
  obtain ⟨actions, w', reached, done⟩ := later
  refine ⟨action :: actions, w', (run_cons).mpr ⟨setCall w i after, ?_, reached⟩, done⟩
  simp [World.step, Traffic.advanceCall, found, moved, setCall]

theorem returns_poll {remaining : Nat} (found : w.traffic.calls[i]? = some call)
    (phase : call.phase = .poll remaining)
    (later : Returns config (setCall w i { call with phase := .recv (w.now + remaining) }) i body) :
    Returns config w i body := by
  have polled : call.advance w.now w.supervisor.registry .poll =
      some { call with phase := .recv (w.now + remaining) } := by
    simp [Call.advance, phase]
  exact returns_step found polled later

theorem returns_check {deadline : Nat} (found : w.traffic.calls[i]? = some call) (phase : call.phase = .check)
    (set : call.deadline = some deadline) (ahead : w.now < deadline)
    (later : Returns config (setCall w i { call with phase := .recv (w.now + (deadline - w.now)) }) i body) :
    Returns config w i body := by
  have checked : call.advance w.now w.supervisor.registry .check =
      some { call with phase := .poll (deadline - w.now) } := by
    simp only [Call.advance, phase, set, Option.map_some]
    rw [if_neg (by omega)]
  refine returns_step found checked (returns_poll (setCall_found found _) rfl ?_)
  simpa [setCall] using later

theorem returns_recv {timer deadline : Nat} (found : w.traffic.calls[i]? = some call)
    (phase : call.phase = .recv timer) (set : call.deadline = some deadline) (ahead : w.now < deadline)
    (held : call.receiver = some rx) (clear : rx.lost = 0) (queue : rx.backlog = skipped ++ reply :: rest)
    (passed : ∀ y ∈ skipped, ¬call.accepts y = true) (accepted : call.accepts reply = true) :
    Returns config w i reply.envelope.body := by
  induction skipped generalizing w call rx timer with
  | nil =>
      have read := Receiver.recv_item clear queue
      have received : call.advance w.now w.supervisor.registry .receive =
          some { call with
            receiver := some { rx with backlog := rest }, phase := .returned (.ok reply.envelope.body) } := by
        simp only [Call.advance, phase, held, Option.bind_some, read]
        exact congrArg some (if_pos accepted)
      exact returns_step found received (returns_now (setCall_found found _) rfl)
  | cons y skipped ih =>
      have read := Receiver.recv_item clear queue
      have rejected : ¬call.accepts y = true := passed y List.mem_cons_self
      have received : call.advance w.now w.supervisor.registry .receive =
          some { call with
            receiver := some { rx with backlog := skipped ++ reply :: rest }, phase := .check } := by
        simp only [Call.advance, phase, held, Option.bind_some, read]
        exact congrArg some (if_neg rejected)
      refine returns_step found received ?_
      have again := setCall_found found { call with
        receiver := some { rx with backlog := skipped ++ reply :: rest }, phase := .check }
      refine returns_check again rfl set ahead ?_
      exact ih (setCall_found again _) rfl set ahead rfl clear rfl
        (fun z member => passed z (List.mem_cons_of_mem _ member)) accepted

theorem returns_waiting {deadline : Nat} (found : w.traffic.calls[i]? = some call)
    (standing : Standing w.now bus call) (sent : call.request.isSome) (waiting : call.hasReturned = false)
    (due : call.deadline.getD (w.now + call.timeout) = deadline) (ahead : w.now < deadline)
    (held : call.receiver = some rx) (clear : rx.lost = 0) (queue : rx.backlog = skipped ++ reply :: rest)
    (passed : ∀ y ∈ skipped, ¬call.accepts y = true) (accepted : call.accepts reply = true) :
    Returns config w i reply.envelope.body := by
  unfold Standing at standing
  cases phase : call.phase with
  | resolve | subscribe | send =>
      simp only [phase] at standing
      simp [standing.1] at sent
  | arm =>
      simp only [phase] at standing
      rw [standing.1, Option.getD_none] at due
      subst due
      have armed : call.advance w.now w.supervisor.registry .arm =
          some { call with phase := .check, deadline := some (w.now + call.timeout) } := by
        simp [Call.advance, phase]
      refine returns_step found armed ?_
      have started := setCall_found found { call with phase := .check, deadline := some (w.now + call.timeout) }
      refine returns_check started rfl rfl ahead ?_
      exact returns_recv (setCall_found started _) rfl rfl ahead held clear queue passed accepted
  | check =>
      simp only [phase] at standing
      obtain ⟨d, set⟩ := Option.isSome_iff_exists.mp standing.1
      obtain rfl : d = deadline := by simpa [set] using due
      refine returns_check found phase set ahead ?_
      exact returns_recv (setCall_found found _) rfl set ahead held clear queue passed accepted
  | poll remaining =>
      simp only [phase] at standing
      obtain ⟨⟨d, set, -⟩, -⟩ := standing
      obtain rfl : d = deadline := by simpa [set] using due
      refine returns_poll found phase ?_
      exact returns_recv (setCall_found found _) rfl set ahead held clear queue passed accepted
  | recv timer =>
      simp only [phase] at standing
      obtain ⟨⟨d, set, -⟩, -⟩ := standing
      obtain rfl : d = deadline := by simpa [set] using due
      exact returns_recv found phase set ahead held clear queue passed accepted
  | returned outcome => simp [Call.hasReturned, phase] at waiting

end Returns

theorem firstReply_unique {m m' : Message sv} (first : FirstReply bus call m) (other : FirstReply bus call m') :
    m = m' := by
  obtain ⟨seen, rest, split, passed, accepted⟩ := first
  obtain ⟨seen', rest', split', passed', accepted'⟩ := other
  rcases append_eq_append_cons (split.symm.trans split') with ⟨tail, early⟩ | ⟨middle, early, late⟩
  · exact absurd accepted' (passed m' (by simp [early]))
  · cases middle with
    | nil => exact (List.cons.inj late).1
    | cons y middle =>
        obtain ⟨rfl, -⟩ := List.cons.inj late
        exact absurd accepted (passed' m (by simp [early]))

theorem firstReply_queued (listening : Listening bus call) (unlagged : Unlagged call) (first : FirstReply bus call m) :
    ∃ rx skipped rest, call.receiver = some rx ∧ rx.lost = 0 ∧ rx.backlog = skipped ++ m :: rest ∧
      ∀ y ∈ skipped, ¬call.accepts y = true := by
  obtain ⟨rx, held, -, follows⟩ := listening
  obtain ⟨clear, seen, split, passed⟩ := follows (unlagged rx held)
  obtain ⟨before, rest, place, ahead, accepted⟩ := first
  rcases append_eq_append_cons (split.symm.trans place) with ⟨tail, early⟩ | ⟨middle, late, queue⟩
  · exact absurd accepted (passed m (by simp [early]))
  · exact ⟨rx, middle, rest, held, clear, queue, fun y member => ahead y (by simp [late, member])⟩

theorem standing_listening (standing : Standing now bus call) (sent : call.request.isSome)
    (waiting : call.hasReturned = false) : Listening bus call := by
  unfold Standing at standing
  cases phase : call.phase with
  | resolve | subscribe =>
      simp only [phase] at standing
      simp [standing.1] at sent
  | send =>
      simp only [phase] at standing
      exact standing.2.2
  | arm | check | poll remaining | recv timer =>
      simp only [phase] at standing
      exact standing.2
  | returned outcome => simp [Call.hasReturned, phase] at waiting

section Main
variable {i : Nat} (inv : Correlated w.now w.traffic) (found : w.traffic.calls[i]? = some call)
include inv found

/-- What a call accepts was put on the bus by a handler loop, in the exchange that the call's request began. -/
theorem accepted_reply (member : m ∈ w.traffic.bus) (accepted : call.accepts m = true) :
    ∃ q, call.request = some q ∧ m.envelope.correlationId = q.envelope.correlationId ∧
      m.envelope.recipient = .direct call.sender ∧ (∃ l, m.source = .loop l) ∧ m.origin = q.serial := by
  obtain ⟨q, request, same, direct⟩ := accepts_request accepted
  have origin := inv.exchange i call q found request m member same
  refine ⟨q, request, same, direct, ?_, origin⟩
  by_contra unanswered
  have root := inv.logged.roots m member (fun l source => unanswered ⟨l, source⟩)
  obtain ⟨known, -, -, own⟩ := (inv.calls i call found).2 q request
  obtain rfl := inv.logged.eq_of_serial member known (root.symm.trans origin)
  rw [own] at direct
  cases direct

theorem request_distinct {j : Nat} {other : Call sv} {q' : Message sv} (request : call.request = some q)
    (there : w.traffic.calls[j]? = some other) (requested : other.request = some q') (different : j ≠ i) :
    q.serial ≠ q'.serial := by
  intro same
  obtain ⟨known, source, -⟩ := (inv.calls i call found).2 q request
  obtain ⟨known', source', -⟩ := (inv.calls j other there).2 q' requested
  obtain rfl := inv.logged.eq_of_serial known known' same
  exact different (Source.call.inj (source'.symm.trans source))

theorem returned_ok {body : Json} (phase : call.phase = .returned (.ok body)) :
    ∃ m ∈ w.traffic.bus, call.accepts m = true ∧ m.envelope.body = body ∧
      (Unlagged call → FirstReply w.traffic.bus call m) := by
  have standing := (inv.calls i call found).1
  unfold Standing at standing
  rwa [phase] at standing

theorem returned_first {outcome : Except DispatchError Json} (phase : call.phase = .returned outcome)
    (unlagged : Unlagged call) (first : FirstReply w.traffic.bus call m) :
    outcome = .ok m.envelope.body ∨
      outcome = .error (.timeout call.timeout) ∧ ∃ deadline, call.deadline = some deadline ∧ deadline ≤ w.now := by
  cases outcome with
  | ok body =>
      obtain ⟨reply, -, -, rfl, earliest⟩ := returned_ok inv found phase
      exact Or.inl (by rw [firstReply_unique (earliest unlagged) first])
  | error e =>
      have standing := (inv.calls i call found).1
      unfold Standing at standing
      rw [phase] at standing
      obtain ⟨-, -, -, -, accepted⟩ := first
      obtain ⟨q, request, -⟩ := accepts_request accepted
      cases e with
      | timeout duration =>
          obtain ⟨rfl, past⟩ := standing
          exact Or.inr ⟨rfl, past⟩
      | capabilityNotFound | busClosed | core => cases request.symm.trans standing

theorem waiting_first (unlagged : Unlagged call) (first : FirstReply w.traffic.bus call m)
    (waiting : call.hasReturned = false) (ahead : w.now < call.deadline.getD (w.now + call.timeout)) :
    Returns config w i m.envelope.body := by
  have standing := (inv.calls i call found).1
  obtain ⟨-, -, -, -, accepted⟩ := id first
  obtain ⟨q, request, -⟩ := accepts_request accepted
  have sent : call.request.isSome := by rw [request]; rfl
  obtain ⟨rx, skipped, rest, held, clear, queue, passed⟩ :=
    firstReply_queued (standing_listening standing sent waiting) unlagged first
  exact returns_waiting found standing sent waiting rfl ahead held clear queue passed accepted

end Main

/-- A call returns the reply to its own request: the body of an envelope with its correlation id, addressed to it
and made by an agent in the exchange that its request began; it sends nothing when no agent provides the
capability; and unless its receiver lags or its deadline passes, it returns the first reply on the bus. -/
theorem dispatch_reply_correlated (config : SupervisorConfig) (registry : CapabilityRegistry)
    (actions : List (Action sv)) (w : World sv)
    (fresh : AllSteps (World.step config) (fun w a => Fresh w.traffic a) (World.new registry) actions)
    (reached : run (World.step config) (World.new registry) actions = some w)
    (i : Nat) (call : Call sv) (found : w.traffic.calls[i]? = some call) :
    (∀ body, call.phase = .returned (.ok body) → ∃ request reply, call.request = some request ∧
      reply ∈ w.traffic.bus ∧ reply.envelope.correlationId = request.envelope.correlationId ∧
      reply.envelope.recipient = .direct call.sender ∧ reply.envelope.body = body ∧
      (∃ l, reply.source = .loop l) ∧ reply.origin = request.serial ∧
      ∀ j other request', j ≠ i → w.traffic.calls[j]? = some other → other.request = some request' →
        reply.origin ≠ request'.serial) ∧
    (∀ what, call.phase = .returned (.error (.capabilityNotFound what)) →
      ∀ m ∈ w.traffic.bus, m.source ≠ .call i) ∧
    (Unlagged call → ∀ reply, FirstReply w.traffic.bus call reply →
      (∀ outcome, call.phase = .returned outcome → outcome = .ok reply.envelope.body ∨
        outcome = .error (.timeout call.timeout) ∧ ∃ deadline, call.deadline = some deadline ∧ deadline ≤ w.now) ∧
      (call.hasReturned = false → w.now < call.deadline.getD (w.now + call.timeout) →
        Returns config w i reply.envelope.body)) := by
  have inv : Correlated w.now w.traffic :=
    @invariant_of_allSteps _ _ _ _ (fun w => Correlated w.now w.traffic)
      (fun _ _ _ fresh inv moved => correlated_step fresh inv moved) _ _ _ fresh (correlated_new registry) reached
  refine ⟨?_, ?_, ?_⟩
  · intro body phase
    obtain ⟨reply, member, accepted, answer, -⟩ := returned_ok inv found phase
    obtain ⟨q, request, same, direct, source, origin⟩ := accepted_reply inv found member accepted
    refine ⟨q, reply, request, member, same, direct, answer, source, origin, ?_⟩
    intro j other q' different there requested
    rw [origin]
    exact request_distinct inv found request there requested different
  · intro what phase m member source
    obtain ⟨own, there, request⟩ := inv.sources m member i source
    obtain rfl := Option.some.inj (found.symm.trans there)
    have standing := (inv.calls i call found).1
    unfold Standing at standing
    rw [phase] at standing
    cases request.symm.trans standing
  · intro unlagged reply first
    exact ⟨fun outcome phase => returned_first inv found phase unlagged first,
      fun waiting ahead => waiting_first inv found unlagged first waiting ahead⟩

def echoTraffic : List (Action .caret) :=
  subscribedEcho 0 "echo" ++ echoRequest ++
    [.loop 0 .receive, .reply 0 ⟨"echo"⟩ (.string "pong"),
     .call 0 .arm, .call 0 .check, .call 0 .poll, .call 0 .receive,
     .call 0 .check, .call 0 .poll, .call 0 .receive]

theorem echo_round_trip :
    ∃ w call, run (World.step .default) (World.new .empty) echoTraffic = some w ∧
      w.traffic.calls[0]? = some call ∧ call.phase = .returned (.ok (.string "pong")) ∧
      ∃ request reply, call.request = some request ∧ reply ∈ w.traffic.bus ∧ reply.origin = request.serial := by
  obtain ⟨w, reached⟩ : ∃ w, run (World.step .default) (World.new .empty) echoTraffic = some w :=
    Option.isSome_iff_exists.mp (by decide +kernel)
  have returned : ((run (World.step .default) (World.new .empty) echoTraffic).bind fun w =>
      (w.traffic.calls[0]?).map Call.phase) = some (.returned (.ok (.string "pong"))) := by decide +kernel
  rw [reached, Option.bind_some] at returned
  obtain ⟨call, found, phase⟩ := Option.map_eq_some_iff.mp returned
  obtain ⟨answered, -, -⟩ := dispatch_reply_correlated .default .empty echoTraffic w (by decide +kernel) reached
    0 call found
  obtain ⟨request, reply, requested, member, -, -, -, -, origin, -⟩ := answered _ phase
  exact ⟨w, call, reached, found, phase, request, reply, requested, member, origin⟩

end Daimon.Proof.Runtime
