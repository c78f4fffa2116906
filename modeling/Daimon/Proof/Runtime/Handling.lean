import Daimon.Proof.Runtime.Traffic

/-!
# Which loops handle a request

A request on the bus waits in the backlog of every subscribed loop it is addressed to. Resolution in the registry,
the broadcast and the loops' own filters are three mechanisms, and nothing makes them agree on one loop; where they
do, a conserved quantity says that the request is handled once.
-/

namespace Daimon.Proof.Runtime
open Daimon.Core Lib
open Daimon.Runtime Daimon.Runtime.Dispatcher

variable {sv : Semver} {config : SupervisorConfig} {w w' : World sv} {a : Action sv}
  {t t' : Traffic sv} {call : Call sv} {loop loop' : HandlerLoop sv} {m : Message sv}
  {now : Nat} {registry : CapabilityRegistry} {serial : Nat}

def isDispatch (m : Message sv) : Bool :=
  match m.source with
  | .call _ => true
  | .loop _ | .other => false

def handledCount (t : Traffic sv) (serial : Nat) : Nat :=
  t.handled.countP fun entry => entry.2 == serial

def waitsIn (serial : Nat) (loop : HandlerLoop sv) : Nat :=
  if loop.status = .subscribed then
    loop.receiver.backlog.countP fun m => m.serial == serial && loop.addressed m
  else 0

/-- In how many backlogs a message waits for a loop it is addressed to. -/
def waitingCount (t : Traffic sv) (serial : Nat) : Nat :=
  (t.loops.map (waitsIn serial)).sum

def NoLoss (t : Traffic sv) : Prop :=
  ∀ loop ∈ t.loops, loop.status = .subscribed →
    ∀ m ∈ loop.receiver.overwritten inProcBusCapacity, isDispatch m = true → loop.addressed m = false

/-- A request is sent when exactly one subscribed loop is addressed by it, no request is overwritten in the backlog
of its loop, and no loop panics with a request in its backlog. -/
def OneHandler (t : Traffic sv) : Action sv → Prop
  | .send i correlationId => NoLoss t ∧ ∀ call ∈ t.calls[i]?,
      t.loops.countP (fun loop => loop.status == .subscribed && loop.addressed (requestOf t i call correlationId)) = 1
  | .reply .. | .publish _ => NoLoss t
  | .loop l .panic => ∀ loop ∈ t.loops[l]?, ∀ m ∈ loop.receiver.backlog,
      isDispatch m = true → loop.addressed m = false
  | _ => True

structure Conserved (t : Traffic sv) : Prop where
  logged : Logged t
  handled : ∀ entry ∈ t.handled, entry.2 < t.bus.length
  once : ∀ m ∈ t.bus, isDispatch m = true → handledCount t m.serial + waitingCount t m.serial = 1

/-! ## One more message -/

theorem waitsIn_deliver (kept : loop.status = .subscribed → ∀ y ∈ loop.receiver.overwritten inProcBusCapacity,
      (y.serial == serial && loop.addressed y) = false) :
    waitsIn serial (loop.deliver m) =
      waitsIn serial loop +
        if loop.status == .subscribed && (m.serial == serial && loop.addressed m) then 1 else 0 := by
  unfold HandlerLoop.deliver
  by_cases subscribed : loop.status = .subscribed
  · have counted := Receiver.countP_deliver (x := m) (kept subscribed)
    simp only [waitsIn, subscribed, if_true]
    exact counted.trans (by simp)
  · simp [waitsIn, subscribed]

theorem waitingCount_put (m : Message sv) (serial : Nat)
    (kept : ∀ loop ∈ t.loops, loop.status = .subscribed → ∀ y ∈ loop.receiver.overwritten inProcBusCapacity,
      (y.serial == serial && loop.addressed y) = false) :
    waitingCount (t.put m) serial = waitingCount t serial +
      t.loops.countP fun loop => loop.status == .subscribed && (m.serial == serial && loop.addressed m) := by
  unfold waitingCount Traffic.put
  rw [List.map_map]
  exact sum_map_countP fun loop member => waitsIn_deliver (kept loop member)

section Put
variable (inv : Conserved t)
include inv

theorem kept_of_noLoss (noLoss : NoLoss t) (member : m ∈ t.bus) (request : isDispatch m = true) :
    ∀ loop ∈ t.loops, loop.status = .subscribed → ∀ y ∈ loop.receiver.overwritten inProcBusCapacity,
      (y.serial == m.serial && loop.addressed y) = false := by
  intro loop present subscribed y lost
  have known := (inv.logged.loops loop present).1 y (Receiver.mem_of_overwritten lost)
  by_cases same : y.serial = m.serial
  · obtain rfl := inv.logged.eq_of_serial known member same
    simp [noLoss loop present subscribed y lost request]
  · simp [same]

theorem backlog_serial_ne (present : loop ∈ t.loops) {y : Message sv} (queued : y ∈ loop.receiver.backlog) :
    y.serial ≠ t.bus.length :=
  (inv.logged.serial_lt ((inv.logged.loops loop present).1 y queued)).ne

theorem waitingCount_next : waitingCount t t.bus.length = 0 := by
  refine List.sum_eq_zero_iff_forall_eq_nat.mpr fun n member => ?_
  obtain ⟨loop, present, rfl⟩ := List.mem_map.mp member
  unfold waitsIn
  split
  · rw [List.countP_eq_zero]
    intro y queued
    simp [backlog_serial_ne inv present queued]
  · rfl

theorem handledCount_next : handledCount t t.bus.length = 0 := by
  unfold handledCount
  rw [List.countP_eq_zero]
  intro entry member
  simp [(inv.handled entry member).ne]

theorem conserved_put (logged : Logged (t.put m)) (last : m.serial = t.bus.length) (noLoss : NoLoss t)
    (single : isDispatch m = true →
      t.loops.countP (fun loop => loop.status == .subscribed && loop.addressed m) = 1) :
    Conserved (t.put m) where
  logged := logged
  handled := by
    intro entry member
    have bound := inv.handled entry member
    simp only [Traffic.put, List.length_append, List.length_singleton]
    omega
  once := by
    intro y member request
    rcases (mem_snoc).mp member with old | rfl
    · have different : m.serial ≠ y.serial := by
        rw [last]
        exact (inv.logged.serial_lt old).ne'
      have counted := waitingCount_put m y.serial (kept_of_noLoss inv noLoss old request)
      have none_new : t.loops.countP (fun loop => loop.status == .subscribed &&
          (m.serial == y.serial && loop.addressed m)) = 0 := by
        simp [List.countP_eq_zero, different]
      have before := inv.once y old request
      rw [counted, none_new]
      exact before
    · have counted := waitingCount_put y y.serial (t := t) (by
        intro loop present subscribed z lost
        have ne := backlog_serial_ne inv present (Receiver.mem_of_overwritten lost)
        simp [last, ne])
      have handled : handledCount (t.put y) y.serial = 0 := last ▸ handledCount_next inv
      have waiting : waitingCount t y.serial = 0 := last ▸ waitingCount_next inv
      rw [handled, counted, waiting]
      simpa using single request

end Put

/-! ## One step of a loop -/

theorem loopStep_waits (serial : Nat) {action : LoopAction} {passed : Option (Message sv)}
    (moved : LoopStep loop action loop' passed) (safe : action = .panic → waitsIn serial loop = 0) :
    waitsIn serial loop = waitsIn serial loop' + passed.toList.countP (fun m => m.serial == serial) := by
  cases moved with
  | subscribed status => simp [waitsIn, status, Receiver.new]
  | passed status idle read addressed =>
      cases Receiver.recv_reads read with
      | item clear next =>
          simp only [waitsIn, status, if_true, next, List.countP_cons, addressed, Bool.and_true,
            Option.toList_some, List.countP_nil, Nat.zero_add]
          rfl
  | skipped status idle read foreign =>
      cases Receiver.recv_reads read with
      | item clear next =>
          simp only [waitsIn, status, if_true, next, List.countP_cons, foreign, Bool.and_false]
          rfl
  | lagged status idle read =>
      cases Receiver.recv_reads read with
      | lagged positive => rfl
  | finished status => rfl
  | panicked status =>
      rw [safe rfl]
      simp [waitsIn]

theorem waitsIn_of_safe (inv : Conserved t) (present : loop ∈ t.loops) (member : m ∈ t.bus)
    (request : isDispatch m = true)
    (safe : ∀ y ∈ loop.receiver.backlog, isDispatch y = true → loop.addressed y = false) :
    waitsIn m.serial loop = 0 := by
  unfold waitsIn
  split
  · rw [List.countP_eq_zero]
    intro y queued
    by_cases same : y.serial = m.serial
    · obtain rfl := inv.logged.eq_of_serial ((inv.logged.loops loop present).1 y queued) member same
      simp [safe y queued request]
    · simp [same]
  · rfl

theorem conserved_loop {l : Nat} {action : LoopAction} {passed : Option (Message sv)} (inv : Conserved t)
    (found : t.loops[l]? = some loop) (moved : LoopStep loop action loop' passed)
    (safe : action = .panic → ∀ y ∈ loop.receiver.backlog, isDispatch y = true → loop.addressed y = false)
    (logged : Logged { t with
      loops := t.loops.set l loop'
      handled := t.handled ++ (passed.map fun m => (l, m.serial)).toList }) :
    Conserved { t with
      loops := t.loops.set l loop'
      handled := t.handled ++ (passed.map fun m => (l, m.serial)).toList } where
  logged := logged
  handled := by
    intro entry member
    rcases List.mem_append.mp member with old | new
    · exact inv.handled entry old
    · cases moved with
      | passed status idle read addressed =>
          obtain rfl : entry = _ := by simpa using new
          cases Receiver.recv_reads read with
          | item clear next =>
              have queued := (inv.logged.loops loop (List.mem_of_getElem? found)).1 _ (next ▸ List.mem_cons_self)
              exact inv.logged.serial_lt queued
      | _ => simp at new
  once := by
    intro m member request
    have present := List.mem_of_getElem? found
    have own := loopStep_waits m.serial moved fun panics =>
      waitsIn_of_safe inv present member request (safe panics)
    have total := sum_map_set (waitsIn m.serial) found loop'
    have before := inv.once m member request
    have counted : handledCount { t with
        loops := t.loops.set l loop'
        handled := t.handled ++ (passed.map fun m => (l, m.serial)).toList } m.serial =
        handledCount t m.serial + passed.toList.countP (fun y => y.serial == m.serial) := by
      unfold handledCount
      rw [List.countP_append]
      cases passed <;> simp
    change _ + ((t.loops.set l loop').map (waitsIn m.serial)).sum = 1
    unfold waitingCount at before
    omega

theorem conserved_step (meets : OneHandler t a) (inv : Conserved t) (step : TrafficStep now registry t a t') :
    Conserved t' := by
  have logged := logged_step inv.logged step
  cases step with
  | unchanged => exact inv
  | started runner agent =>
      refine ⟨logged, inv.handled, fun m member request => ?_⟩
      have before := inv.once m member request
      simpa [handledCount, waitingCount, waitsIn, HandlerLoop.start] using before
  | called => exact ⟨logged, inv.handled, inv.once⟩
  | call found moved => exact ⟨logged, inv.handled, inv.once⟩
  | sent found phase =>
      have put := conserved_put inv (logged_put inv.logged rfl fun _ => rfl) rfl meets.1 fun _ => meets.2 _ found
      exact ⟨logged, put.handled, put.once⟩
  | @loop l action loop after passed found moved =>
      refine conserved_loop inv found moved ?_ logged
      rintro rfl
      exact meets loop found
  | replied found handling => exact conserved_put inv logged rfl meets (fun request => by cases request)
  | published => exact conserved_put inv logged rfl meets (fun request => by cases request)

theorem conserved_new : Conserved (Traffic.new : Traffic sv) := by
  refine ⟨logged_new, ?_, ?_⟩ <;> simp [Traffic.new]

/-! ## What waits is handled -/

/-- After some steps of its own, other than a panic, loop `l` has passed `m` to `handle`. -/
def Handles (config : SupervisorConfig) (w : World sv) (l : Nat) (m : Message sv) : Prop :=
  ∃ own : List LoopAction, ∃ w', .panic ∉ own ∧
    run (World.step config) w (own.map (Action.loop l)) = some w' ∧ (l, m.serial) ∈ w'.traffic.handled

def loopMoved (w : World sv) (l : Nat) (loop' : HandlerLoop sv) (passed : Option (Message sv)) : World sv :=
  { w with traffic := { w.traffic with
      loops := w.traffic.loops.set l loop'
      handled := w.traffic.handled ++ (passed.map fun m => (l, m.serial)).toList } }

section Handles
variable (config : SupervisorConfig) {l : Nat} {rest skipped : List (Message sv)}

theorem loopMoved_found (found : w.traffic.loops[l]? = some loop) (loop' : HandlerLoop sv)
    (passed : Option (Message sv)) : (loopMoved w l loop' passed).traffic.loops[l]? = some loop' :=
  List.getElem?_set_self (List.getElem?_eq_some_iff.mp found).1

theorem handles_step {config : SupervisorConfig} {action : LoopAction} {passed : Option (Message sv)}
    (found : w.traffic.loops[l]? = some loop) (moved : loop.advance action = some (loop', passed))
    (calm : action ≠ .panic) (later : Handles config (loopMoved w l loop' passed) l m) : Handles config w l m := by
  obtain ⟨own, w', quiet, reached, handled⟩ := later
  refine ⟨action :: own, w', by simp [calm.symm, quiet], (run_cons).mpr ⟨_, ?_, reached⟩, handled⟩
  simp [World.step, Traffic.advanceLoop, found, moved, loopMoved]

theorem handles_queued (found : w.traffic.loops[l]? = some loop) (status : loop.status = .subscribed)
    (idle : loop.handling = none) (clear : loop.receiver.lost = 0)
    (queue : loop.receiver.backlog = skipped ++ m :: rest) (addressed : loop.addressed m = true) :
    Handles config w l m := by
  induction skipped generalizing w loop with
  | nil =>
      have read := Receiver.recv_item clear queue
      have passed : loop.advance .receive =
          some ({ loop with receiver := { loop.receiver with backlog := rest }, handling := some m }, some m) := by
        simp [HandlerLoop.advance, status, idle, read, addressed]
      refine handles_step found passed (by simp) ⟨[], _, by simp, rfl, ?_⟩
      simp [loopMoved]
  | cons y skipped ih =>
      have read := Receiver.recv_item clear queue
      by_cases own : loop.addressed y = true
      · have passed : loop.advance .receive = some ({ loop with
            receiver := { loop.receiver with backlog := skipped ++ m :: rest }, handling := some y }, some y) := by
          simp [HandlerLoop.advance, status, idle, read, own]
        refine handles_step found passed (by simp) ?_
        have busy := loopMoved_found found { loop with
          receiver := { loop.receiver with backlog := skipped ++ m :: rest }, handling := some y } (some y)
        have finished : HandlerLoop.advance { loop with
            receiver := { loop.receiver with backlog := skipped ++ m :: rest }, handling := some y } .finish =
            some ({ loop with
              receiver := { loop.receiver with backlog := skipped ++ m :: rest }, handling := none }, none) := by
          simp [HandlerLoop.advance, status]
        refine handles_step busy finished (by simp) ?_
        exact ih (loopMoved_found busy _ _) status rfl clear rfl addressed
      · have ignored : loop.advance .receive = some ({ loop with
            receiver := { loop.receiver with backlog := skipped ++ m :: rest } }, none) := by
          simp [HandlerLoop.advance, status, idle, read, own]
        refine handles_step found ignored (by simp) ?_
        exact ih (loopMoved_found found _ _) status idle clear rfl addressed

theorem handles_idle (found : w.traffic.loops[l]? = some loop) (status : loop.status = .subscribed)
    (idle : loop.handling = none) (queued : m ∈ loop.receiver.backlog) (addressed : loop.addressed m = true) :
    Handles config w l m := by
  obtain ⟨skipped, rest, queue⟩ := List.append_of_mem queued
  by_cases clear : loop.receiver.lost = 0
  · exact handles_queued config found status idle clear queue addressed
  · have reported : loop.advance .receive =
        some ({ loop with receiver := { loop.receiver with lost := 0 } }, none) := by
      simp [HandlerLoop.advance, status, idle, Receiver.recv, Nat.pos_of_ne_zero clear]
    refine handles_step found reported (by simp) ?_
    exact handles_queued config (loopMoved_found found _ _) status idle rfl queue addressed

theorem handles_waiting (found : w.traffic.loops[l]? = some loop) (status : loop.status = .subscribed)
    (queued : m ∈ loop.receiver.backlog) (addressed : loop.addressed m = true) : Handles config w l m := by
  cases busy : loop.handling with
  | none => exact handles_idle config found status busy queued addressed
  | some y =>
      have finished : loop.advance .finish = some ({ loop with handling := none }, none) := by
        simp [HandlerLoop.advance, status, busy]
      refine handles_step found finished (by simp) ?_
      exact handles_idle config (loopMoved_found found _ _) status rfl queued addressed

end Handles

theorem waiting_loop (inv : Conserved t) (member : m ∈ t.bus) (waits : waitingCount t m.serial ≠ 0) :
    ∃ (l : Nat) (loop : HandlerLoop sv), t.loops[l]? = some loop ∧ loop.status = .subscribed ∧ m ∈ loop.receiver.backlog ∧
      loop.addressed m = true := by
  unfold waitingCount at waits
  rw [Ne, List.sum_eq_zero_iff_forall_eq_nat] at waits
  simp only [not_forall] at waits
  obtain ⟨n, counted, positive⟩ := waits
  obtain ⟨loop, present, rfl⟩ := List.mem_map.mp counted
  obtain ⟨l, found⟩ := List.mem_iff_getElem?.mp present
  unfold waitsIn at positive
  split at positive
  · next status =>
      obtain ⟨y, queued, both⟩ := List.countP_pos_iff.mp (Nat.pos_of_ne_zero positive)
      rw [Bool.and_eq_true, beq_iff_eq] at both
      obtain rfl := inv.logged.eq_of_serial ((inv.logged.loops loop present).1 y queued) member both.1
      exact ⟨l, loop, found, status, queued, both.2⟩
  · exact absurd rfl positive

instance decidableNoLoss (t : Traffic sv) : Decidable (NoLoss t) :=
  inferInstanceAs (Decidable (∀ loop ∈ t.loops, loop.status = .subscribed →
    ∀ m ∈ loop.receiver.overwritten inProcBusCapacity, isDispatch m = true → loop.addressed m = false))

instance decidableOneHandler (t : Traffic sv) : (a : Action sv) → Decidable (OneHandler t a)
  | .send i correlationId => inferInstanceAs (Decidable (NoLoss t ∧ ∀ call ∈ t.calls[i]?, t.loops.countP
      (fun loop => loop.status == .subscribed && loop.addressed (requestOf t i call correlationId)) = 1))
  | .reply .. | .publish _ => decidableNoLoss t
  | .loop l .panic => inferInstanceAs (Decidable (∀ loop ∈ t.loops[l]?, ∀ m ∈ loop.receiver.backlog,
      isDispatch m = true → loop.addressed m = false))
  | .loop _ .subscribe | .loop _ .receive | .loop _ .finish => isTrue trivial
  | .supervise _ | .dispatch .. | .call .. | .elapse _ => isTrue trivial

theorem conserved_run {actions : List (Action sv)}
    (meets : AllSteps (World.step config) (fun w a => OneHandler w.traffic a) w actions)
    (start : Conserved w.traffic) (reached : run (World.step config) w actions = some w') : Conserved w'.traffic := by
  refine @invariant_of_allSteps _ _ _ _ (fun w => Conserved w.traffic) ?_ _ _ _ meets start reached
  intro s a s' meets inv moved
  exact conserved_step meets inv (step_traffic moved).2

theorem mem_bus_run {actions : List (Action sv)} (member : m ∈ w.traffic.bus)
    (reached : run (World.step config) w actions = some w') : m ∈ w'.traffic.bus :=
  @invariant_of_run _ _ _ (fun w => m ∈ w.traffic.bus)
    (fun _ _ _ member moved => mem_bus_step (step_traffic moved).2 member) _ _ _ member reached

section Main
variable (inv : Conserved w.traffic) (member : m ∈ w.traffic.bus) (request : isDispatch m = true)
include inv member request

theorem handled_of_drained
    (drained : ∀ loop ∈ w.traffic.loops, loop.status = .subscribed → loop.addressed m = true →
      m ∉ loop.receiver.backlog) : handledCount w.traffic m.serial = 1 := by
  have total := inv.once m member request
  have none_waits : waitingCount w.traffic m.serial = 0 := by
    by_contra waits
    obtain ⟨l, loop, found, status, queued, addressed⟩ := waiting_loop inv member waits
    exact drained loop (List.mem_of_getElem? found) status addressed queued
  omega

theorem handled_by_own_steps (config : SupervisorConfig) : ∃ (l : Nat) (own : List LoopAction) (w' : World sv),
    .panic ∉ own ∧ run (World.step config) w (own.map (Action.loop l)) = some w' ∧
      handledCount w'.traffic m.serial = 1 := by
  have total := inv.once m member request
  by_cases waits : waitingCount w.traffic m.serial = 0
  · exact ⟨0, [], w, by simp, rfl, by omega⟩
  · obtain ⟨l, loop, found, status, queued, addressed⟩ := waiting_loop inv member waits
    obtain ⟨own, w', quiet, reached, handled⟩ := handles_waiting config found status queued addressed
    refine ⟨l, own, w', quiet, reached, ?_⟩
    have meets : AllSteps (World.step config) (fun w a => OneHandler w.traffic a) w (own.map (Action.loop l)) := by
      refine allSteps_of_forall (fun e listed s => ?_) w
      obtain ⟨action, chosen, rfl⟩ := List.mem_map.mp listed
      cases action with
      | panic => exact absurd chosen quiet
      | subscribe | receive | finish => trivial
    have inv' := conserved_run meets inv reached
    have positive : 0 < handledCount w'.traffic m.serial :=
      List.countP_pos_iff.mpr ⟨(l, m.serial), handled, by simp⟩
    have total' := inv'.once m (mem_bus_run member reached) request
    omega

end Main

/-- Where every request is sent to exactly one subscribed loop and lost by none, no request is handled twice, one
that waits in no backlog was handled, and one that waits is handled once when its loop gets to it. -/
theorem request_handled_once (config : SupervisorConfig) (registry : CapabilityRegistry)
    (actions : List (Action sv)) (w : World sv)
    (meets : AllSteps (World.step config) (fun w a => OneHandler w.traffic a) (World.new registry) actions)
    (reached : run (World.step config) (World.new registry) actions = some w)
    (i : Nat) (m : Message sv) (member : m ∈ w.traffic.bus) (request : m.source = .call i) :
    handledCount w.traffic m.serial ≤ 1 ∧
    ((∀ loop ∈ w.traffic.loops, loop.status = .subscribed → loop.addressed m = true →
      m ∉ loop.receiver.backlog) → handledCount w.traffic m.serial = 1) ∧
    ∃ (l : Nat) (own : List LoopAction) (w' : World sv), .panic ∉ own ∧
      run (World.step config) w (own.map (Action.loop l)) = some w' ∧ handledCount w'.traffic m.serial = 1 := by
  have inv := conserved_run meets conserved_new reached
  have dispatched : isDispatch m = true := by simp [isDispatch, request]
  refine ⟨?_, handled_of_drained inv member dispatched, handled_by_own_steps inv member dispatched config⟩
  have total := inv.once m member dispatched
  omega

theorem echo_handled_once :
    ∃ w m, run (World.step .default) (World.new .empty) (subscribedEcho 0 "echo" ++ echoRequest) = some w ∧
      m ∈ w.traffic.bus ∧ m.source = .call 0 ∧ handledCount w.traffic m.serial ≤ 1 := by
  have sent : (run (World.step .default) (World.new .empty) (subscribedEcho 0 "echo" ++ echoRequest)).any
      (fun w => w.traffic.bus.any fun m => m.source == .call 0) = true := by decide +kernel
  obtain ⟨w, reached, onBus⟩ := (Option.any_eq_true _ _).mp sent
  obtain ⟨m, member, source⟩ := List.any_eq_true.mp onBus
  have request : m.source = .call 0 := beq_iff_eq.mp source
  obtain ⟨once, -, -⟩ :=
    request_handled_once .default .empty _ w (by decide +kernel) reached 0 m member request
  exact ⟨w, m, reached, member, request, once⟩

/-- Two agents with one capability both handle a request for it. One whose agent is registered but whose loop
subscribes after it was sent is handled by none. -/
theorem request_handled_twice_or_never :
    (∃ w m, run (World.step .default) (World.new .empty)
        (subscribedEcho 0 "first" ++ subscribedEcho 1 "second" ++ echoRequest ++
          [.loop 0 .receive, .loop 1 .receive]) = some w ∧
      m ∈ w.traffic.bus ∧ m.source = .call 0 ∧ handledCount w.traffic m.serial = 2) ∧
    (∃ w m, run (World.step .default) (World.new .empty)
        ((subscribedEcho 0 "late").take 6 ++ echoRequest ++ (subscribedEcho 0 "late").drop 6) = some w ∧
      m ∈ w.traffic.bus ∧ m.source = .call 0 ∧ handledCount w.traffic m.serial = 0 ∧
      ∀ loop ∈ w.traffic.loops, m ∉ loop.receiver.backlog) := by
  constructor
  · have twice : (run (World.step .default) (World.new .empty)
        (subscribedEcho 0 "first" ++ subscribedEcho 1 "second" ++ echoRequest ++
          [.loop 0 .receive, .loop 1 .receive])).any (fun w => w.traffic.bus.any fun m =>
            m.source == .call 0 && handledCount w.traffic m.serial == 2) = true := by decide +kernel
    obtain ⟨w, reached, onBus⟩ := (Option.any_eq_true _ _).mp twice
    obtain ⟨m, member, both⟩ := List.any_eq_true.mp onBus
    rw [Bool.and_eq_true, beq_iff_eq, beq_iff_eq] at both
    exact ⟨w, m, reached, member, both⟩
  · have never : (run (World.step .default) (World.new .empty)
        ((subscribedEcho 0 "late").take 6 ++ echoRequest ++ (subscribedEcho 0 "late").drop 6)).any
          (fun w => w.traffic.bus.any fun m => decide (m.source = .call 0 ∧ handledCount w.traffic m.serial = 0 ∧
            ∀ loop ∈ w.traffic.loops, m ∉ loop.receiver.backlog)) = true := by decide +kernel
    obtain ⟨w, reached, onBus⟩ := (Option.any_eq_true _ _).mp never
    obtain ⟨m, member, facts⟩ := List.any_eq_true.mp onBus
    exact ⟨w, m, reached, member, of_decide_eq_true facts⟩

end Daimon.Proof.Runtime
