import Daimon.Broker.Audited
import Daimon.Lib.Lists
import Daimon.Proof.Broker.Step

/-!
# What the audit event says of an execution

One event for each call, and a success for a call that succeeded. The credential that it names is the one of the record at
the time of the event, which is the one that was used as long as the target is not bound to another one in between.
-/

namespace Daimon.Proof.Broker
open Daimon.Core Lib Daimon.Broker
open Daimon.Broker.Audited (Audit AuditPhase AuditResult NewAuditEvent Inventory executeEvent)

/-! ## Calls of the broker -/

def isDone : Phase → Bool
  | .done _ => true
  | _ => false

theorem stepCall_not_done {b : Config} {s : Guard.State} {i : Nat} {req : ExecRequest} {phase : Phase} {answer : Answer}
    {r : CallStep} (moved : stepCall b s i req phase answer = some r) : isDone phase = false := by
  cases phase with
  | done result => cases answer <;> simp [stepCall] at moved
  | _ => rfl

def started (log : List Event) (i : Nat) : Bool :=
  log.any fun
    | .transportStarted call _ _ _ => call == i
    | .guard _ _ => false

theorem started_append (log events : List Event) (i : Nat) :
    started (log ++ events) i = (started log i || started events i) := List.any_append

theorem stepCall_started_eq {b : Config} {s : Guard.State} {i j : Nat} {req : ExecRequest} {phase : Phase}
    {answer : Answer} {r : CallStep} (moved : stepCall b s j req phase answer = some r)
    (begun : started r.events i = true) : i = j ∧ ∃ managed credential, phase = .dispatch managed credential := by
  obtain ⟨e, member, own⟩ := List.any_eq_true.mp begun
  cases e with
  | guard call event => cases own
  | transportStarted call target op credential =>
      obtain ⟨rfl, -, managed, dispatching⟩ := stepCall_started moved member
      exact ⟨(eq_of_beq own).symm, managed, credential, dispatching⟩

theorem calls_cases {b : Config} {w w' : World} {action : Action} (moved : step b w action = some w') {j : Nat}
    {call' : Call} (found : w'.calls[j]? = some call') :
    w.calls[j]? = some call' ∧ started w'.log j = started w.log j ∨
      (∃ call answer r, action = .advance j answer ∧ w.calls[j]? = some call ∧
        stepCall b w.guard j call.req call.phase answer = some r ∧ call' = { call with phase := r.phase } ∧
        started w'.log j = (started w.log j || started r.events j)) ∨
      ∃ req, action = .submit req ∧ j = w.calls.length ∧ call' = ⟨req, firstPhase b⟩ ∧
        started w'.log j = started w.log j := by
  rcases step_cases moved with ⟨i, answer, call, r, rfl, at_i, callMoved, rfl⟩ | ⟨req, rfl, rfl⟩ | ⟨-, calls, log, -⟩
  · rcases set_cases found with ⟨rfl, rfl⟩ | ⟨other, kept⟩
    · exact Or.inr (Or.inl ⟨call, answer, r, rfl, at_i, callMoved, rfl, started_append _ _ _⟩)
    · have silent : started r.events j = false := by
        by_contra begun
        exact other (stepCall_started_eq callMoved (Bool.not_eq_false _ ▸ begun)).1
      exact Or.inl ⟨kept, by rw [started_append, silent, Bool.or_false]⟩
  · rcases snoc_cases found with kept | ⟨rfl, rfl⟩
    · exact Or.inl ⟨kept, rfl⟩
    · exact Or.inr (Or.inr ⟨req, rfl, rfl, rfl, rfl⟩)
  · rw [calls] at found
    exact Or.inl ⟨found, by rw [log]⟩

/-! ## One call of a world -/

namespace Audited

def entries (sink : List (Nat × NewAuditEvent)) (i : Nat) : List NewAuditEvent :=
  (sink.filter fun entry => entry.1 == i).map Prod.snd

/-- What a world holds of one call. -/
structure View where
  req : ExecRequest
  phase : Phase
  started : Bool
  audit : Audit
  entries : List NewAuditEvent
  inventory : Inventory

def view (w : Audited.World) (i : Nat) : Option View :=
  match w.broker.calls[i]?, w.audits[i]? with
  | some call, some audit =>
      some ⟨call.req, call.phase, started w.broker.log i, audit, entries w.sink i, w.inventory⟩
  | _, _ => none

/-- The call has read the record, has not failed before its transport, and its event is still to be made. -/
def View.open (v : View) : Option ManagedTarget :=
  if v.audit.phase = .inner ∧ (isDone v.phase = false ∨ v.started = true) then v.audit.managed else none

/-- A target is not bound to another credential and not removed while a call that has read its record has its event
to make, and the record of a call that has started its transport is found for the event. -/
def Steady (w : Audited.World) : Audited.Action → Prop
  | .upsert ref managed => ∀ i < w.audits.length, ∀ v ∈ view w i, ∀ m ∈ v.open, v.req.targetRef = ref →
      managed.credentialRef = m.credentialRef
  | .remove ref => ∀ i < w.audits.length, ∀ v ∈ view w i, ∀ m ∈ v.open, v.req.targetRef ≠ ref
  | .lookup i failed => started w.broker.log i = true → failed = none
  | _ => True

/-- The phase after the second read of the record. -/
def View.afterLookup (b : Audited.Config) (v : View) (failed : Option String) (result : Except BrokerError OpResult)
    (latency : Nat) : AuditPhase :=
  let read := (v.inventory.getManaged v.req.targetRef failed).toOption
  if b.audit then .append (executeEvent b.display v.req result (read.map ManagedTarget.credentialRef) latency)
  else .returned

/-- What one step does to the view of a call; `works` says that the sink does, `steady` that the step is. -/
inductive Move (b : Audited.Config) (works steady : Prop) (v : View) : View → Prop where
  | idle : Move b works steady v v
  | advance {s : Guard.State} {i : Nat} {answer : Answer} {r : CallStep} (other : ∀ result, answer ≠ .managed result)
      (moved : stepCall b.broker s i v.req v.phase answer = some r) :
      Move b works steady v { v with phase := r.phase, started := v.started || Broker.started r.events i }
  | read {s : Guard.State} {i : Nat} {failed : Option String} {r : CallStep}
      (moved : stepCall b.broker s i v.req v.phase (.managed (v.inventory.getManaged v.req.targetRef failed)) = some r) :
      Move b works steady v { v with
        phase := r.phase
        started := v.started || Broker.started r.events i
        audit := { v.audit with managed := (v.inventory.getManaged v.req.targetRef failed).toOption } }
  | inventory {inventory : Inventory}
      (kept : steady → ∀ m ∈ v.open, inventory.lookup v.req.targetRef = v.inventory.lookup v.req.targetRef ∨
        ∃ now, inventory.lookup v.req.targetRef = some now ∧ now.credentialRef = m.credentialRef) :
      Move b works steady v { v with inventory }
  | lookup {failed : Option String} {result : Except BrokerError OpResult} (latency : Nat)
      (answered : steady → v.started = true → failed = none) (done : v.phase = .done result)
      (inner : v.audit.phase = .inner) :
      Move b works steady v { v with audit := { v.audit with phase := v.afterLookup b failed result latency } }
  | append {event : NewAuditEvent} {worked : Bool} (made : v.audit.phase = .append event)
      (healthy : works → worked = true) :
      Move b works steady v { v with
        audit := { v.audit with phase := .returned }
        entries := if worked then v.entries ++ [event] else v.entries }

def Works : Audited.Action → Prop
  | .append _ worked => worked = true
  | _ => True

/-- The calls of a world are audited, and its log and its sink are of them. -/
structure Framed (w : Audited.World) : Prop where
  calls : w.audits.length = w.broker.calls.length
  log : ∀ i, started w.broker.log i = true → i < w.broker.calls.length
  sink : ∀ entry ∈ w.sink, entry.1 < w.audits.length

theorem entries_append (sink : List (Nat × NewAuditEvent)) (i j : Nat) (event : NewAuditEvent) :
    entries (sink ++ [(j, event)]) i = if j = i then entries sink i ++ [event] else entries sink i := by
  by_cases same : j = i
  · simp [entries, same]
  · simp [entries, same]

section Step
variable {b : Audited.Config} {w w' : Audited.World}

theorem step_broker {a : Action} (moved : Audited.step b w (.broker a) = some w') :
    (∀ i r, a ≠ .advance i (.managed r)) ∧ Broker.step b.broker w.broker a = some w'.broker ∧
      w'.inventory = w.inventory ∧ w'.sink = w.sink ∧
      ((∃ req, a = .submit req ∧ w'.audits = w.audits ++ [⟨w.broker.guard.now, none, .inner⟩]) ∨
        (∀ req, a ≠ .submit req) ∧ w'.audits = w.audits) := by
  have plain (other : ∀ i r, a ≠ .advance i (.managed r)) (old : ∀ req, a ≠ .submit req)
      (mapped : (Broker.step b.broker w.broker a).map (fun broker => { w with broker }) = some w') :
      (∀ i r, a ≠ .advance i (.managed r)) ∧ Broker.step b.broker w.broker a = some w'.broker ∧
        w'.inventory = w.inventory ∧ w'.sink = w.sink ∧
        ((∃ req, a = .submit req ∧ w'.audits = w.audits ++ [⟨w.broker.guard.now, none, .inner⟩]) ∨
          (∀ req, a ≠ .submit req) ∧ w'.audits = w.audits) := by
    obtain ⟨broker, taken, rfl⟩ := Option.map_eq_some_iff.mp mapped
    exact ⟨other, taken, rfl, rfl, Or.inr ⟨old, rfl⟩⟩
  cases a with
  | submit req =>
      simp only [Audited.step] at moved
      obtain ⟨broker, taken, rfl⟩ := Option.map_eq_some_iff.mp moved
      exact ⟨by simp, taken, rfl, rfl, Or.inl ⟨req, rfl, rfl⟩⟩
  | advance i answer =>
      cases answer with
      | managed r => cases moved
      | _ => exact plain (by simp) (by simp) moved
  | _ => exact plain (by simp) (by simp) moved

theorem step_getManaged {i : Nat} {failed : Option String} (moved : Audited.step b w (.getManaged i failed) = some w') :
    ∃ call audit, w.broker.calls[i]? = some call ∧ w.audits[i]? = some audit ∧
      let answer := w.inventory.getManaged call.req.targetRef failed
      Broker.step b.broker w.broker (.advance i (.managed answer)) = some w'.broker ∧
        w' = { w with broker := w'.broker, audits := w.audits.set i { audit with managed := answer.toOption } } := by
  simp only [Audited.step] at moved
  split at moved
  · rename_i call audit at_call at_audit
    obtain ⟨broker, taken, rfl⟩ := Option.map_eq_some_iff.mp moved
    exact ⟨call, audit, at_call, at_audit, taken, rfl⟩
  · cases moved

theorem step_lookup {i : Nat} {failed : Option String} (moved : Audited.step b w (.lookup i failed) = some w') :
    ∃ req result start managed latency, w.broker.calls[i]? = some ⟨req, .done result⟩ ∧
      w.audits[i]? = some ⟨start, managed, .inner⟩ ∧
      let v : View := ⟨req, .done result, started w.broker.log i, ⟨start, managed, .inner⟩, entries w.sink i, w.inventory⟩
      w' = { w with audits := w.audits.set i ⟨start, managed, v.afterLookup b failed result latency⟩ } := by
  simp only [Audited.step] at moved
  split at moved
  · rename_i req result start managed at_call at_audit
    cases moved
    exact ⟨req, result, start, managed, _, at_call, at_audit, rfl⟩
  · cases moved

theorem step_append {i : Nat} {worked : Bool} (moved : Audited.step b w (.append i worked) = some w') :
    ∃ start managed event, w.audits[i]? = some ⟨start, managed, .append event⟩ ∧
      w' = { w with
        audits := w.audits.set i ⟨start, managed, .returned⟩
        sink := if worked then w.sink ++ [(i, event)] else w.sink } := by
  simp only [Audited.step] at moved
  split at moved
  · rename_i start managed event at_audit
    cases moved
    exact ⟨start, managed, event, at_audit, rfl⟩
  · cases moved

theorem broker_framed {a : Action} {broker : World} (moved : Broker.step b.broker w.broker a = some broker)
    (framed : Framed w) : (∀ i, started broker.log i = true → i < broker.calls.length) ∧
      w.broker.calls.length ≤ broker.calls.length ∧
      ((∀ req, a ≠ .submit req) → broker.calls.length = w.broker.calls.length) ∧
      ∀ req, a = .submit req → broker.calls.length = w.broker.calls.length + 1 := by
  rcases step_cases moved with ⟨j, answer, call, r, rfl, at_j, callMoved, rfl⟩ | ⟨req, rfl, rfl⟩ | ⟨other, calls, log, -⟩
  · refine ⟨?_, by simp, by simp, by simp⟩
    intro i begun
    rw [started_append, Bool.or_eq_true] at begun
    rw [List.length_set]
    rcases begun with earlier | now
    · exact framed.log i earlier
    · rw [(stepCall_started_eq callMoved now).1]
      exact (List.getElem?_eq_some_iff.mp at_j).1
  · refine ⟨fun i begun => ?_, by simp, by simp, by simp⟩
    rw [List.length_append]
    exact Nat.lt_add_right _ (framed.log i begun)
  · rw [calls, log]
    refine ⟨framed.log, le_refl _, fun _ => rfl, ?_⟩
    rintro req rfl
    have := congrArg List.length calls
    simp only [Broker.step, Option.some.injEq] at moved
    rw [← moved] at this
    simp at this

theorem step_framed {action : Audited.Action} (framed : Framed w) (moved : Audited.step b w action = some w') :
    Framed w' := by
  obtain ⟨calls, log, sink⟩ := framed
  cases action with
  | broker a =>
      obtain ⟨-, taken, -, kept, audits⟩ := step_broker moved
      obtain ⟨log', -, same, grown⟩ := broker_framed taken ⟨calls, log, sink⟩
      rcases audits with ⟨req, rfl, longer⟩ | ⟨other, audits⟩
      · refine ⟨by rw [longer, List.length_append, grown req rfl, calls]; rfl, log', ?_⟩
        rw [kept, longer, List.length_append]
        exact fun entry member => Nat.lt_add_right _ (sink entry member)
      · exact ⟨by rw [audits, same other, calls], log', by rw [kept, audits]; exact sink⟩
  | getManaged i failed =>
      obtain ⟨call, audit, -, -, taken, after⟩ := step_getManaged moved
      obtain ⟨log', -, same, -⟩ := broker_framed taken ⟨calls, log, sink⟩
      rw [after]
      exact ⟨by rw [List.length_set, same (by simp), calls], log', by rw [List.length_set]; exact sink⟩
  | upsert ref managed =>
      cases moved
      exact ⟨calls, log, sink⟩
  | remove ref =>
      cases moved
      exact ⟨calls, log, sink⟩
  | lookup i failed =>
      obtain ⟨req, result, start, managed, latency, -, -, after⟩ := step_lookup moved
      rw [after]
      exact ⟨by rw [List.length_set, calls], log, by rw [List.length_set]; exact sink⟩
  | append i worked =>
      obtain ⟨start, managed, event, at_audit, after⟩ := step_append moved
      rw [after]
      refine ⟨by rw [List.length_set, calls], log, ?_⟩
      rw [List.length_set]
      intro entry member
      cases worked with
      | false => exact sink entry member
      | true =>
          rcases List.mem_append.mp member with earlier | now
          · exact sink entry earlier
          · rw [List.mem_singleton.mp now]
            exact (List.getElem?_eq_some_iff.mp at_audit).1

theorem view_eq_some {i : Nat} {v : View} : view w i = some v ↔
    ∃ call audit, w.broker.calls[i]? = some call ∧ w.audits[i]? = some audit ∧
      v = ⟨call.req, call.phase, started w.broker.log i, audit, entries w.sink i, w.inventory⟩ := by
  unfold view
  constructor
  · intro seen
    split at seen
    · rename_i call audit at_call at_audit
      cases seen
      exact ⟨call, audit, at_call, at_audit, rfl⟩
    · cases seen
  · rintro ⟨call, audit, at_call, at_audit, rfl⟩
    rw [at_call, at_audit]

/-- The calls but one are seen as before when one audit is replaced. -/
theorem view_set {i j : Nat} {broker : World} {audit' : Audit} {v : View} {sink : List (Nat × NewAuditEvent)}
    (other : j ≠ i) (call : broker.calls[j]? = w.broker.calls[j]?)
    (log : started broker.log j = started w.broker.log j) (sent : entries sink j = entries w.sink j) :
    view { w with broker, audits := w.audits.set i audit', sink } j = some v ↔ view w j = some v := by
  rw [view_eq_some, view_eq_some]
  simp only [call, log, sent, List.getElem?_set_ne (Ne.symm other)]

theorem lookup_remove {inventory : Inventory} {ref other : TargetRef} (distinct : other ≠ ref) :
    (inventory.remove ref).lookup other = inventory.lookup other := by
  have removed : inventory.remove ref = inventory.filter fun entry => decide (entry.1 ≠ ref) := by
    apply List.filter_congr
    intro entry _
    rw [Bool.eq_iff_iff]
    simp
  rw [removed, lookup_filter_ne, if_neg distinct]

theorem lookup_upsert (inventory : Inventory) (ref other : TargetRef) (managed : ManagedTarget) :
    (inventory.upsert ref managed).lookup other = if other = ref then some managed else inventory.lookup other := by
  rw [Inventory.upsert, lookup_cons_ite]
  split_ifs with same
  · rfl
  · exact lookup_remove same

theorem view_broker {a : Action} (framed : Framed w) (moved : Audited.step b w (.broker a) = some w') {i : Nat}
    {v' : View} (seen : view w' i = some v') {works steady : Prop} :
    (∃ v, view w i = some v ∧ Move b works steady v v') ∨
      ∃ req start inventory, v' = ⟨req, firstPhase b.broker, false, ⟨start, none, .inner⟩, [], inventory⟩ := by
  obtain ⟨other, taken, inventory, sink, audits⟩ := step_broker moved
  obtain ⟨call', audit', at_call, at_audit, rfl⟩ := (view_eq_some).mp seen
  have old (notNew : i ≠ w.audits.length) : w.audits[i]? = some audit' := by
    rcases audits with ⟨req, -, longer⟩ | ⟨-, same⟩
    · rw [longer] at at_audit
      rcases snoc_cases at_audit with kept | ⟨new, -⟩
      · exact kept
      · exact absurd new notNew
    · rwa [same] at at_audit
  have earlier {call : Call} (found : w.broker.calls[i]? = some call) : i ≠ w.audits.length := by
    rw [framed.calls]
    exact Nat.ne_of_lt (List.getElem?_eq_some_iff.mp found).1
  rcases calls_cases taken at_call with ⟨kept, log⟩ | ⟨call, answer, r, rfl, found, callMoved, rfl, log⟩ |
    ⟨req, rfl, new, rfl, log⟩
  · refine Or.inl ⟨_, (view_eq_some).mpr ⟨call', audit', kept, old (earlier kept), rfl⟩, ?_⟩
    rw [log, sink, inventory]
    exact .idle
  · refine Or.inl ⟨_, (view_eq_some).mpr ⟨call, audit', found, old (earlier found), rfl⟩, ?_⟩
    rw [log, sink, inventory]
    exact .advance (fun result same => other i result (by rw [same])) callMoved
  · rcases audits with ⟨_, -, longer⟩ | ⟨notSubmit, -⟩
    · rw [longer, new, ← framed.calls] at at_audit
      rw [List.getElem?_concat_length, Option.some.injEq] at at_audit
      have unstarted : started w.broker.log i = false := by
        by_contra begun
        have bound := framed.log i (Bool.not_eq_false _ ▸ begun)
        omega
      have unsent : entries w.sink i = [] := by
        rw [entries, List.map_eq_nil_iff, List.filter_eq_nil_iff]
        intro entry member same
        have bound := framed.sink entry member
        rw [framed.calls, ← new, eq_of_beq same] at bound
        exact absurd bound (lt_irrefl _)
      exact Or.inr ⟨req, w.broker.guard.now, w'.inventory, by rw [log, unstarted, sink, unsent, ← at_audit]⟩
    · exact absurd rfl (notSubmit req)

theorem view_read {i j : Nat} {failed : Option String} (moved : Audited.step b w (.getManaged j failed) = some w')
    {v' : View} (seen : view w' i = some v') {works steady : Prop} :
    ∃ v, view w i = some v ∧ Move b works steady v v' := by
  obtain ⟨call, audit, at_call, at_audit, taken, after⟩ := step_getManaged moved
  simp only [Broker.step, at_call] at taken
  obtain ⟨r, callMoved, broker⟩ := Option.map_eq_some_iff.mp taken
  rw [after, ← broker] at seen
  by_cases same : i = j
  · subst same
    refine ⟨_, (view_eq_some).mpr ⟨call, audit, at_call, at_audit, rfl⟩, ?_⟩
    have calls : i < w.broker.calls.length := (List.getElem?_eq_some_iff.mp at_call).1
    have audits : i < w.audits.length := (List.getElem?_eq_some_iff.mp at_audit).1
    simp only [view, List.getElem?_set_self calls, List.getElem?_set_self audits, Option.some.injEq] at seen
    rw [← seen, started_append]
    exact .read callMoved
  · have silent : started r.events i = false := by
      by_contra begun
      exact same (stepCall_started_eq callMoved (Bool.not_eq_false _ ▸ begun)).1
    refine ⟨v', (view_set same ?_ ?_ rfl).mp seen, .idle⟩
    · exact List.getElem?_set_ne (Ne.symm same)
    · rw [started_append, silent, Bool.or_false]

/-- What a step does to the view of a call, unless it is the step that submits it. -/
theorem view_step {action : Audited.Action} (framed : Framed w) (moved : Audited.step b w action = some w') {i : Nat}
    {v' : View} (seen : view w' i = some v') :
    (∃ v, view w i = some v ∧ Move b (Works action) (Steady w action) v v') ∨
      ∃ req start inventory, v' = ⟨req, firstPhase b.broker, false, ⟨start, none, .inner⟩, [], inventory⟩ := by
  cases action with
  | broker a => exact view_broker framed moved seen
  | getManaged j failed => exact Or.inl (view_read moved seen)
  | upsert ref managed =>
      cases moved
      obtain ⟨call, audit, at_call, at_audit, rfl⟩ := (view_eq_some).mp seen
      have before : view w i = some _ := (view_eq_some).mpr ⟨call, audit, at_call, at_audit, rfl⟩
      refine Or.inl ⟨_, before, .inventory fun steady m bound => ?_⟩
      rw [lookup_upsert]
      by_cases same : call.req.targetRef = ref
      · have bounded : i < w.audits.length := (List.getElem?_eq_some_iff.mp at_audit).1
        exact Or.inr ⟨managed, if_pos same, steady i bounded _ before m bound same⟩
      · exact Or.inl (if_neg same)
  | remove ref =>
      cases moved
      obtain ⟨call, audit, at_call, at_audit, rfl⟩ := (view_eq_some).mp seen
      have before : view w i = some _ := (view_eq_some).mpr ⟨call, audit, at_call, at_audit, rfl⟩
      have bounded : i < w.audits.length := (List.getElem?_eq_some_iff.mp at_audit).1
      refine Or.inl ⟨_, before, .inventory fun steady m bound => Or.inl ?_⟩
      exact lookup_remove (steady i bounded _ before m bound)
  | lookup j failed =>
      obtain ⟨req, result, start, managed, latency, at_call, at_audit, after⟩ := step_lookup moved
      by_cases same : i = j
      · subst same
        have bound : i < w.audits.length := (List.getElem?_eq_some_iff.mp at_audit).1
        refine Or.inl ⟨_, (view_eq_some).mpr ⟨_, _, at_call, at_audit, rfl⟩, ?_⟩
        rw [after, view, at_call, List.getElem?_set_self bound, Option.some.injEq] at seen
        rw [← seen]
        exact .lookup latency (fun steady begun => steady begun) rfl rfl
      · rw [after] at seen
        exact Or.inl ⟨v', (view_set same rfl rfl rfl).mp seen, .idle⟩
  | append j worked =>
      obtain ⟨start, managed, event, at_audit, after⟩ := step_append moved
      by_cases same : i = j
      · subst same
        have bound : i < w.audits.length := (List.getElem?_eq_some_iff.mp at_audit).1
        rw [after] at seen
        obtain ⟨call, audit', at_call, at_audit', rfl⟩ := (view_eq_some).mp seen
        refine Or.inl ⟨_, (view_eq_some).mpr ⟨call, _, at_call, at_audit, rfl⟩, ?_⟩
        rw [List.getElem?_set_self bound, Option.some.injEq] at at_audit'
        have sent : entries (if worked then w.sink ++ [(i, event)] else w.sink) i =
            if worked then entries w.sink i ++ [event] else entries w.sink i := by
          cases worked with
          | false => rfl
          | true => simp [entries_append]
        rw [sent, ← at_audit']
        exact .append rfl id
      · have other : entries (if worked then w.sink ++ [(j, event)] else w.sink) i = entries w.sink i := by
          cases worked with
          | false => rfl
          | true => simp [entries_append, Ne.symm same]
        rw [after] at seen
        exact Or.inl ⟨v', (view_set same rfl rfl other).mp seen, .idle⟩

end Step

/-! ## One event for each call -/

def Tells (event : NewAuditEvent) (result : Except BrokerError OpResult) : Prop :=
  event.result = .success ↔ ∃ r, result = .ok r

inductive Settled (phase : Phase) (entries : List NewAuditEvent) : AuditPhase → Prop where
  | inner (unsent : entries = []) : Settled phase entries .inner
  | append {result : Except BrokerError OpResult} {event : NewAuditEvent} (done : phase = .done result)
      (tells : Tells event result) (unsent : entries = []) : Settled phase entries (.append event)
  | returned {result : Except BrokerError OpResult} {event : NewAuditEvent} (done : phase = .done result)
      (tells : Tells event result) (sent : entries = [event]) : Settled phase entries .returned

theorem executeEvent_tells (display : BrokerError → String) (req : ExecRequest) (result : Except BrokerError OpResult)
    (credentialRef : Option String) (latency : Nat) :
    Tells (executeEvent display req result credentialRef latency) result := by
  cases result <;> simp [Tells, executeEvent]

section View
variable {b : Audited.Config} {works steady : Prop} {v v' : View}

theorem Settled.inner_of_not_done {phase : Phase} {sent : List NewAuditEvent} {a : AuditPhase}
    (settled : Settled phase sent a) (running : isDone phase = false) : a = .inner ∧ sent = [] := by
  cases settled with
  | inner unsent => exact ⟨rfl, unsent⟩
  | append done => simp [done, isDone] at running
  | returned done => simp [done, isDone] at running

theorem move_settled (audited : b.audit = true) (healthy : works) (settled : Settled v.phase v.entries v.audit.phase)
    (moved : Move b works steady v v') : Settled v'.phase v'.entries v'.audit.phase := by
  cases moved with
  | idle => exact settled
  | advance other moved =>
      obtain ⟨inner, unsent⟩ := settled.inner_of_not_done (stepCall_not_done moved)
      simp only [inner]
      exact .inner unsent
  | read moved =>
      obtain ⟨inner, unsent⟩ := settled.inner_of_not_done (stepCall_not_done moved)
      simp only [inner]
      exact .inner unsent
  | inventory kept => exact settled
  | lookup latency answered done inner =>
      rw [inner] at settled
      cases settled with
      | inner unsent =>
          simp only [View.afterLookup, audited, if_true]
          exact .append done (executeEvent_tells _ _ _ _ _) unsent
  | append made worked =>
      rw [made] at settled
      cases settled with
      | append done tells unsent =>
          simp only [worked healthy, if_true, unsent, List.nil_append]
          exact .returned done tells rfl

/-! ## The credential of the event -/

def holding : Phase → Option ManagedTarget
  | .vault managed _ => some managed
  | .dispatch managed _ => some managed
  | _ => none

structure Bound (v : View) : Prop where
  /-- The record that the call goes on with is the one that was read. -/
  read : ∀ m ∈ holding v.phase, v.audit.managed = some m
  past : v.started = true → (v.phase = .transport ∨ isDone v.phase = true) ∧ ∃ m, v.audit.managed = some m
  ended : v.audit.phase ≠ .inner ∨ v.entries ≠ [] → isDone v.phase = true
  kept : ∀ m ∈ v.open, ∃ now, v.inventory.lookup v.req.targetRef = some now ∧ now.credentialRef = m.credentialRef
  named : ∀ event, v.audit.phase = .append event ∨ event ∈ v.entries → v.started = true →
    ∃ m, v.audit.managed = some m ∧ event.credentialRef = some m.credentialRef

theorem mem_open {m : ManagedTarget} : m ∈ v.open ↔
    v.audit.phase = .inner ∧ (isDone v.phase = false ∨ v.started = true) ∧ v.audit.managed = some m := by
  unfold View.open
  split
  · rename_i running
    simp [running]
  · rename_i ended
    constructor
    · intro member
      cases member
    · rintro ⟨inner, running, -⟩
      exact absurd ⟨inner, running⟩ ended

theorem Bound.inner (bound : Bound v) (running : isDone v.phase = false) : v.audit.phase = .inner ∧ v.entries = [] := by
  have open' : ¬(v.audit.phase ≠ .inner ∨ v.entries ≠ []) := fun other => by
    rw [bound.ended other] at running
    cases running
  rw [not_or, not_not, not_not] at open'
  exact open'

theorem holding_afterPreFlight (outcome : Guard.Outcome) : holding (afterPreFlight outcome) = none := by
  cases outcome with
  | next phase => rfl
  | returned result => cases result <;> rfl
  | panicked => rfl

/-- A call that is under way has no event yet, so only the record and the transport are to be looked at. -/
theorem Bound.of_running (inner : v.audit.phase = .inner) (unsent : v.entries = [])
    (read : ∀ m ∈ holding v.phase, v.audit.managed = some m)
    (past : v.started = true → (v.phase = .transport ∨ isDone v.phase = true) ∧ ∃ m, v.audit.managed = some m)
    (kept : ∀ m ∈ v.open, ∃ now, v.inventory.lookup v.req.targetRef = some now ∧ now.credentialRef = m.credentialRef) :
    Bound v where
  read := read
  past := past
  ended := by
    rintro (notInner | sent)
    · exact absurd inner notInner
    · exact absurd unsent sent
  kept := kept
  named := by
    rintro event (made | sent)
    · rw [inner] at made
      cases made
    · rw [unsent] at sent
      cases sent

theorem bound_advance {s : Guard.State} {i : Nat} {answer : Answer} {r : CallStep}
    (other : ∀ result, answer ≠ .managed result)
    (moved : stepCall b.broker s i v.req v.phase answer = some r) (bound : Bound v) :
    Bound { v with phase := r.phase, started := v.started || started r.events i } := by
  have running := stepCall_not_done moved
  obtain ⟨inner, unsent⟩ := bound.inner running
  obtain ⟨req, phase, begun, audit, sent, inventory⟩ := v
  simp only at running inner unsent moved
  refine .of_running inner unsent ?_ ?_ ?_
  · intro m held
    cases stepCall_move moved with
    | preFlight attached advanced => simp [holding_afterPreFlight] at held
    | resolve parsed => cases answer <;> simp [stepCall] at moved other
    | @unlock managed ref credential => exact bound.read m held
    | start registered => cases held
    | finish outside => cases held
  · intro now
    simp only [Bool.or_eq_true] at now
    rcases now with earlier | starts
    · obtain ⟨atTransport | done, had⟩ := bound.past earlier
      · simp only at atTransport
        subst atTransport
        cases stepCall_move moved with
        | finish outside => exact ⟨Or.inr rfl, had⟩
      · simp only [running, Bool.false_eq_true] at done
    · obtain ⟨-, managed, credential, rfl⟩ := stepCall_started_eq moved starts
      have had := bound.read managed rfl
      cases stepCall_move moved with
      | start registered => exact ⟨Or.inl rfl, managed, had⟩
      | finish outside => simp [started] at starts
  · intro m member
    obtain ⟨-, -, had⟩ := (mem_open).mp member
    exact bound.kept m ((mem_open).mpr ⟨inner, Or.inl running, had⟩)

theorem bound_read {s : Guard.State} {i : Nat} {failed : Option String} {r : CallStep}
    (moved : stepCall b.broker s i v.req v.phase (.managed (v.inventory.getManaged v.req.targetRef failed)) = some r)
    (bound : Bound v) :
    Bound { v with
      phase := r.phase
      started := v.started || started r.events i
      audit := { v.audit with managed := (v.inventory.getManaged v.req.targetRef failed).toOption } } := by
  have running := stepCall_not_done moved
  obtain ⟨inner, unsent⟩ := bound.inner running
  obtain ⟨req, phase, begun, audit, sent, inventory⟩ := v
  simp only at running inner unsent moved
  obtain rfl : phase = .inventory := by
    cases phase <;> first | rfl | simp [stepCall] at moved
  have unstarted : begun = false := by
    by_contra started
    obtain ⟨atTransport | done, -⟩ := bound.past (Bool.not_eq_false _ ▸ started)
    · cases atTransport
    · cases done
  subst unstarted
  have found {m : ManagedTarget} (got : inventory.getManaged req.targetRef failed = .ok m) :
      inventory.lookup req.targetRef = some m := by
    unfold Inventory.getManaged at got
    split at got
    · cases got
    · split at got
      · rename_i managed at_ref
        rw [at_ref, Except.ok.inj got]
      · cases got
  cases answer : inventory.getManaged req.targetRef failed with
  | error e =>
      rw [answer] at moved
      cases moved
      refine .of_running inner unsent (by simp [holding]) (by simp [started]) ?_
      intro m member
      cases ((mem_open).mp member).2.2
  | ok managed =>
      rw [answer] at moved
      have kept (m : ManagedTarget) (had : (Except.ok managed : Except InventoryError ManagedTarget).toOption = some m) :
          ∃ now, inventory.lookup req.targetRef = some now ∧ now.credentialRef = m.credentialRef := by
        cases had
        exact ⟨managed, found answer, rfl⟩
      simp only [stepCall] at moved
      split at moved
      · cases moved
        refine .of_running inner unsent ?_ (by simp [started]) fun m member => kept m ((mem_open).mp member).2.2
        intro m held
        cases held
        rfl
      · cases moved
        exact .of_running inner unsent (by simp [holding]) (by simp [started]) fun m member =>
          kept m ((mem_open).mp member).2.2

theorem move_bound (steadily : steady) (bound : Bound v) (moved : Move b works steady v v') : Bound v' := by
  cases moved with
  | idle => exact bound
  | advance other moved => exact bound_advance other moved bound
  | read moved => exact bound_read moved bound
  | inventory now =>
      refine { bound with kept := ?_ }
      intro m member
      rcases now steadily m member with same | replaced
      · obtain ⟨record, found, credential⟩ := bound.kept m member
        exact ⟨record, same.trans found, credential⟩
      · exact replaced
  | @lookup failed result latency answered done inner =>
      refine { read := bound.read, past := bound.past, ended := fun _ => ?_, kept := ?_, named := ?_ }
      · simp [done, isDone]
      · intro m member
        have still := ((mem_open).mp member).1
        simp only [View.afterLookup] at still
        split at still <;> cases still
      · rintro event (made | sent) begun
        · obtain ⟨-, m, had⟩ := bound.past begun
          obtain ⟨record, found, credential⟩ := bound.kept m ((mem_open).mpr ⟨inner, Or.inr begun, had⟩)
          refine ⟨m, had, ?_⟩
          simp only [View.afterLookup] at made
          split at made
          · cases made
            simp [executeEvent, Inventory.getManaged, answered steadily begun, found, Except.toOption, credential]
          · cases made
        · exact bound.named event (Or.inr sent) begun
  | @append event worked made healthy =>
      have done := bound.ended (Or.inl (by rw [made]; simp))
      refine { read := bound.read, past := bound.past, ended := fun _ => done, kept := ?_, named := ?_ }
      · intro m member
        cases ((mem_open).mp member).1
      · rintro other (same | sent) begun
        · cases same
        · cases worked with
          | false => exact bound.named other (Or.inr sent) begun
          | true =>
              rcases List.mem_append.mp sent with earlier | now
              · exact bound.named other (Or.inr earlier) begun
              · rw [List.mem_singleton.mp now]
                exact bound.named event (Or.inl made) begun

end View

/-! ## Runs -/

theorem framed_new (inventory : Inventory) : Framed (.new inventory) where
  calls := rfl
  log := by simp [Audited.World.new, World.new, started]
  sink := by simp [Audited.World.new]

theorem holding_firstPhase (b : Config) : holding (firstPhase b) = none ∧ isDone (firstPhase b) = false := by
  unfold firstPhase
  split <;> exact ⟨rfl, rfl⟩

/-- What a step keeps of the view of a call is kept by every run. -/
theorem run_views {b : Audited.Config} {p : View → Prop} {condition : Audited.World → Audited.Action → Prop}
    (submitted : ∀ req start inventory, p ⟨req, firstPhase b.broker, false, ⟨start, none, .inner⟩, [], inventory⟩)
    (kept : ∀ w action v v', condition w action → p v → Move b (Works action) (Steady w action) v v' → p v')
    {inventory : Inventory} {actions : List Audited.Action} {w : Audited.World}
    (met : AllSteps (Audited.step b) condition (.new inventory) actions)
    (reached : run (Audited.step b) (.new inventory) actions = some w) {i : Nat} {v : View} (seen : view w i = some v) :
    p v := by
  let inv (w : Audited.World) : Prop := Framed w ∧ ∀ i v, view w i = some v → p v
  have start : inv (.new inventory) := ⟨framed_new inventory, fun i v seen => by cases seen⟩
  have step (w : Audited.World) (action : Audited.Action) (w' : Audited.World) (meets : condition w action)
      (before : inv w) (moved : Audited.step b w action = some w') : inv w' := by
    refine ⟨step_framed before.1 moved, ?_⟩
    intro i v' seen'
    rcases view_step before.1 moved seen' with ⟨v, seen, move⟩ | ⟨req, at_start, inventory, rfl⟩
    · exact kept w action v v' meets (before.2 i v seen) move
    · exact submitted req at_start inventory
  exact (invariant_of_allSteps step met start reached).2 i v seen

theorem run_settled {b : Audited.Config} (audited : b.audit = true) {inventory : Inventory}
    {actions : List Audited.Action} (healthy : ∀ a ∈ actions, Works a) {w : Audited.World}
    (reached : run (Audited.step b) (.new inventory) actions = some w) {i : Nat} {v : View} (seen : view w i = some v) :
    Settled v.phase v.entries v.audit.phase := by
  have works : AllSteps (Audited.step b) (fun _ action => Works action) (.new inventory) actions :=
    allSteps_of_forall (fun action member _ => healthy action member) _
  exact run_views (p := fun v => Settled v.phase v.entries v.audit.phase) (fun _ _ _ => .inner rfl)
    (fun _ _ _ _ works settled move => move_settled audited works settled move) works reached seen

theorem run_bound {b : Audited.Config} {inventory : Inventory} {actions : List Audited.Action}
    (steady : AllSteps (Audited.step b) Steady (.new inventory) actions) {w : Audited.World}
    (reached : run (Audited.step b) (.new inventory) actions = some w) {i : Nat} {v : View} (seen : view w i = some v) :
    Bound v := by
  refine run_views (p := Bound) ?_ (fun _ _ _ _ steadily bound move => move_bound steadily bound move) steady reached seen
  intro req start inventory
  obtain ⟨unheld, running⟩ := holding_firstPhase b.broker
  refine .of_running rfl rfl (by simp [unheld]) (by simp) ?_
  intro m member
  cases ((mem_open).mp member).2.2

/-- In every run with a working sink a call that has returned has exactly one event, a success if and only if it returned
`Ok`; and where no step binds its target to another credential before the event, the event names the one of the record
that the call went to its transport with. -/
theorem execution_audited (b : Audited.Config) (audited : b.audit = true) (inventory : Inventory)
    (actions : List Audited.Action) (healthy : ∀ a ∈ actions, Works a) (w : Audited.World)
    (reached : run (Audited.step b) (.new inventory) actions = some w) (i : Nat) (call : Call) (audit : Audit)
    (at_call : w.broker.calls[i]? = some call) (at_audit : w.audits[i]? = some audit) :
    (audit.phase ≠ .returned → entries w.sink i = []) ∧
      (audit.phase = .returned → ∃ result event, call.phase = .done result ∧ entries w.sink i = [event] ∧
        (event.result = .success ↔ ∃ r, result = .ok r) ∧
        (AllSteps (Audited.step b) Steady (.new inventory) actions → started w.broker.log i = true →
          ∃ m, audit.managed = some m ∧ event.credentialRef = some m.credentialRef)) := by
  have seen : view w i = some _ := (view_eq_some).mpr ⟨call, audit, at_call, at_audit, rfl⟩
  have settled := run_settled audited healthy reached seen
  simp only at settled
  constructor
  · intro running
    cases phase : audit.phase with
    | inner =>
        rw [phase] at settled
        cases settled with
        | inner unsent => exact unsent
    | append event =>
        rw [phase] at settled
        cases settled with
        | append done tells unsent => exact unsent
    | returned => exact absurd phase running
  · intro returned
    rw [returned] at settled
    cases settled with
    | @returned result event done tells sent =>
        refine ⟨result, event, done, sent, tells, fun steady begun => ?_⟩
        exact (run_bound steady reached seen).named event (Or.inr (by simp [sent])) begun

instance (w : Audited.World) : (action : Audited.Action) → Decidable (Steady w action)
  | .upsert ref managed => inferInstanceAs (Decidable (∀ i < w.audits.length, ∀ v ∈ view w i, ∀ m ∈ v.open,
      v.req.targetRef = ref → managed.credentialRef = m.credentialRef))
  | .remove ref => inferInstanceAs (Decidable (∀ i < w.audits.length, ∀ v ∈ view w i, ∀ m ∈ v.open,
      v.req.targetRef ≠ ref))
  | .lookup i failed => inferInstanceAs (Decidable (started w.broker.log i = true → failed = none))
  | .broker _ | .getManaged _ _ | .append _ _ => isTrue trivial

/-! An execution without a guard, whose target is bound to another credential on the way or not. -/

def auditedBroker : Audited.Config := { broker := sampleBroker, audit := true, display := fun _ => "" }

def edgeInventory : Inventory := [(⟨"mikrotik-edge"⟩, sampleTarget)]

def toTransport : List Audited.Action :=
  [.broker (.submit sampleRequest), .getManaged 0 none,
   .broker (.advance 0 (.credential (.ok (.sshPassword "admin" "secret")))), .broker (.advance 0 .go)]

def toEvent : List Audited.Action :=
  [.broker (.advance 0 (.executed (.ok (.shellCommand "" "" 0)))), .lookup 0 none, .append 0 true]

def rebind : Audited.Action := .upsert ⟨"mikrotik-edge"⟩ { sampleTarget with credentialRef := "vault://backup" }

/-- Whether the first call has started its transport, and the references of its record and of its events. -/
def report (w : Audited.World) : Bool × Option String × List (Option String) :=
  (started w.broker.log 0, (w.audits[0]?.bind Audit.managed).map ManagedTarget.credentialRef,
    (entries w.sink 0).map NewAuditEvent.credentialRef)

theorem execution_audited_sample : ∃ w,
    run (Audited.step auditedBroker) (.new edgeInventory) (toTransport ++ toEvent) = some w ∧
      ∃ event, entries w.sink 0 = [event] ∧ event.credentialRef = some "vault://mikrotik-edge" := by
  obtain ⟨w, reached⟩ := Option.isSome_iff_exists.mp
    (show (run (Audited.step auditedBroker) (.new edgeInventory) (toTransport ++ toEvent)).isSome = true by
      decide +kernel)
  have state : (run (Audited.step auditedBroker) (.new edgeInventory) (toTransport ++ toEvent)).map
      (fun w => (w.broker.calls[0]?.map Call.phase, w.audits[0]?, started w.broker.log 0)) =
        some (some (.done (.ok (.shellCommand "" "" 0))), some ⟨0, some sampleTarget, .returned⟩, true) := by
    decide +kernel
  rw [reached, Option.map_some, Option.some.injEq, Prod.mk.injEq, Prod.mk.injEq] at state
  obtain ⟨phase, at_audit, begun⟩ := state
  obtain ⟨call, at_call, -⟩ := Option.map_eq_some_iff.mp phase
  have healthy : ∀ a ∈ toTransport ++ toEvent, Works a := by
    simp [toTransport, toEvent, Works]
  obtain ⟨result, event, -, sent, -, named⟩ := (execution_audited auditedBroker rfl edgeInventory (toTransport ++ toEvent)
    healthy w reached 0 call _ at_call at_audit).2 rfl
  obtain ⟨m, had, credential⟩ := named (by decide +kernel) begun
  cases had
  exact ⟨w, reached, event, sent, credential⟩

/-- The call resolved its credential from one reference and its event names another. -/
theorem execution_audit_names_other :
    (run (Audited.step auditedBroker) (.new edgeInventory) (toTransport ++ rebind :: toEvent)).map report =
      some (true, some "vault://mikrotik-edge", [some "vault://backup"]) := by
  decide +kernel

end Audited
end Daimon.Proof.Broker
