import Daimon.Broker.Resolving
import Daimon.Proof.Broker.Audit
import Daimon.Proof.Vault.Coherence

/-!
# Credentials stay with their target

Whatever else happens in the broker, the inventory and the vault, a transport gets the host of a record of the call's own
target, and a credential that the vault held under the name in that same record.
-/

namespace Daimon.Proof.Broker.Resolving
open Daimon.Core Daimon.Broker Daimon.Broker.Resolving Lib
open Daimon.Vault (Client)
open Daimon.Proof.Vault (MappedAt)

/-! ## What the client gives -/

section Client
variable {c c' : Client} {i : Nat}

/-- The table held the credential under the name at some time. -/
def Held (c : Client) (name : String) (cred : Credential) : Prop := ∃ k, MappedAt c k name cred

theorem Held.step {action : Client.Action} {name : String} {cred : Credential} (held : Held c name cred)
    (stepped : c.step action = some c') : Held c' name cred := by
  obtain ⟨k, mapped⟩ := held
  exact ⟨k, mapped.mono (Vault.step_contents stepped)⟩

/-- What a call asks for: a reference, and its name if it has one. -/
def asks : Daimon.Vault.Call → Option (CredentialRef × Option String)
  | .unnamed ref => some (ref, none)
  | .resolve ref name _ => some (ref, some name)
  | _ => none

theorem asks_lookup (c : Client) (ref : CredentialRef) (name : String) :
    asks (c.lookup ref name).call = some (ref, some name) := by
  unfold Client.lookup
  split
  · split <;> rfl
  · rfl

theorem asks_query (c : Client) (ref : CredentialRef) (name : String) :
    asks (c.query ref name).call = some (ref, some name) := by
  unfold Client.query
  split <;> rfl

theorem asks_stepCall {answer : Client.Answer} {call : Daimon.Vault.Call} {effect : Client.Effect}
    (stepped : c.stepCall answer call = some effect) : asks effect.call = asks call := by
  cases call with
  | unnamed ref => cases stepped
  | resolve ref name phase =>
      simp only [Client.stepCall, Client.stepResolve] at stepped
      split at stepped
      · cases stepped
        exact asks_lookup c ref name
      · cases stepped
        exact asks_query c ref name
      all_goals cases stepped
      all_goals rfl
  | create name cred phase =>
      simp only [Client.stepCall, Client.stepCreate] at stepped
      split at stepped
      · split at stepped
        all_goals cases stepped
        all_goals rfl
      · cases stepped
        rfl
      · split at stepped
        all_goals cases stepped
        rfl
      · cases stepped
        rfl
      · cases stepped
  | mutate m phase =>
      simp only [Client.stepCall, Client.stepMutate] at stepped
      split at stepped
      · split at stepped
        all_goals cases stepped
        all_goals rfl
      · cases stepped
        rfl
      · split at stepped
        all_goals cases stepped
        rfl
      all_goals cases stepped
      all_goals rfl

structure Sourced (c : Client) : Prop where
  filling {i : Nat} {ref : CredentialRef} {name : String} {cred : Credential} {version : Nat} :
    c.calls[i]? = some (.resolve ref name (.fill cred version)) → Held c name cred
  cached {name : String} {entry : Daimon.Vault.CacheEntry} : (name, entry) ∈ c.cache.entries → Held c name entry.cred
  returned {i : Nat} {ref : CredentialRef} {name : String} {cred : Credential} :
    c.calls[i]? = some (.resolve ref name (.returned (.ok cred))) → Held c name cred
  named {i : Nat} {call : Daimon.Vault.Call} {ref : CredentialRef} {name : Option String} :
    c.calls[i]? = some call → asks call = some (ref, name) → ref.name = name

theorem sourced_new (now : Nat) (table : Daimon.Vault.Credentials) : Sourced (Client.new now table) where
  filling found := by simp [Client.new] at found
  cached member := by cases member
  returned found := by simp [Client.new] at found
  named found := by simp [Client.new] at found

theorem Sourced.start {call : Daimon.Vault.Call} (sourced : Sourced c) (first : Vault.First call)
    (named : ∀ ref name, asks call = some (ref, name) → ref.name = name) : Sourced (c.start call) := by
  constructor
  · intro i ref name cred version found
    rcases snoc_cases found with old | ⟨-, rfl⟩
    · exact sourced.filling old
    · cases first
  · exact sourced.cached
  · intro i ref name cred found
    rcases snoc_cases found with old | ⟨-, rfl⟩
    · exact sourced.returned old
    · cases first
  · intro i other ref name found
    rcases snoc_cases found with old | ⟨-, rfl⟩
    · exact sourced.named old
    · exact named ref name

theorem Sourced.apply {answer : Client.Answer} {call : Daimon.Vault.Call} {effect : Client.Effect}
    (sourced : Sourced c) (there : c.calls[i]? = some call) (effected : c.stepCall answer call = some effect) :
    Sourced (c.apply i effect) := by
  have move := Vault.stepCall_move effected
  have kept : c.contents <+: (c.apply i effect).contents := by
    rw [Vault.contents_apply]
    exact List.prefix_append _ _
  have later {name : String} {cred : Credential} (held : Held c name cred) : Held (c.apply i effect) name cred := by
    obtain ⟨k, mapped⟩ := held
    exact ⟨k, mapped.mono kept⟩
  constructor
  · intro j ref name cred version found
    rw [Vault.calls_apply] at found
    rcases set_cases found with ⟨-, is⟩ | ⟨-, old⟩
    · obtain ⟨-, row, now, rfl⟩ := move.of_fill is.symm
      exact later ⟨_, Vault.mappedAt_now now⟩
    · exact later (sourced.filling old)
  · intro name entry member
    rw [Vault.cache_apply] at member
    rcases move.of_cached member with old | ⟨ref, filled, cred, version, -, rfl, is⟩
    · exact later (sourced.cached old)
    · obtain ⟨rfl, rfl⟩ := Prod.mk.inj is
      exact later (sourced.filling there)
  · intro j ref name cred found
    rw [Vault.calls_apply] at found
    rcases set_cases found with ⟨-, is⟩ | ⟨-, old⟩
    · rcases move.of_ok is.symm with ⟨entry, cached, rfl⟩ | ⟨version, rfl⟩
      · exact later (sourced.cached cached)
      · exact later (sourced.filling there)
    · exact later (sourced.returned old)
  · intro j other ref name found
    rw [Vault.calls_apply] at found
    rcases set_cases found with ⟨-, rfl⟩ | ⟨-, old⟩
    · rw [asks_stepCall effected]
      exact sourced.named there
    · exact sourced.named old

theorem sourced_step {action : Client.Action} (sourced : Sourced c) (stepped : c.step action = some c') :
    Sourced c' := by
  cases action with
  | resolve ref =>
      simp only [Client.step] at stepped
      split at stepped
      · rename_i name named
        cases stepped
        refine sourced.start .lookup ?_
        intro ref' name' same
        cases same
        exact named
      · rename_i unnamed
        cases stepped
        refine sourced.start .unnamed ?_
        intro ref' name' same
        cases same
        exact unnamed
  | create name cred =>
      cases stepped
      refine sourced.start .insert ?_
      intro ref' name' same
      cases same
  | mutate m =>
      cases stepped
      refine sourced.start .write ?_
      intro ref' name' same
      cases same
  | elapse nanos =>
      cases stepped
      exact ⟨sourced.filling, sourced.cached, sourced.returned, sourced.named⟩
  | step i answer =>
      obtain ⟨effect, moved, rfl⟩ := Option.map_eq_some_iff.mp stepped
      obtain ⟨call, found, effected⟩ := Option.bind_eq_some_iff.mp moved
      exact sourced.apply found effected

/-- The calls of a client stay what they are about. -/
theorem asks_step {action : Client.Action} {call : Daimon.Vault.Call} (stepped : c.step action = some c')
    (found : c.calls[i]? = some call) : ∃ call', c'.calls[i]? = some call' ∧ asks call' = asks call := by
  obtain ⟨started, -, rfl⟩ | ⟨nanos, rfl⟩ | ⟨j, answer, moved, effect, rfl, there, effected, rfl⟩ :=
    Vault.step_cases stepped
  · exact ⟨call, (List.getElem?_append_left (List.getElem?_eq_some_iff.mp found).1).trans found, rfl⟩
  · exact ⟨call, found, rfl⟩
  · rw [Vault.calls_apply]
    by_cases same : j = i
    · subst same
      obtain rfl := Option.some.inj (there.symm.trans found)
      exact ⟨_, List.getElem?_set_self (List.getElem?_eq_some_iff.mp found).1, asks_stepCall effected⟩
    · exact ⟨call, (List.getElem?_set_ne same).trans found, rfl⟩

theorem asked_call {ref : CredentialRef} (stepped : c.step (.resolve ref) = some c') :
    ∃ call, c'.calls[c.calls.length]? = some call ∧ ∃ name, asks call = some (ref, name) := by
  simp only [Client.step] at stepped
  split at stepped
  · cases stepped
    exact ⟨_, List.getElem?_concat_length, _, rfl⟩
  · cases stepped
    exact ⟨_, List.getElem?_concat_length, _, rfl⟩

end Client

/-! ## A step of a call of the broker -/

section Call
variable {b : Config} {s : Guard.State} {i : Nat} {req : ExecRequest} {phase : Phase} {answer : Broker.Answer} {r : CallStep}

/-- The record of the target is still to be read. -/
def early : Phase → Bool
  | .preFlight _ | .inventory => true
  | _ => false

theorem early_of_stepCall (moved : stepCall b s i req phase answer = some r) (stays : early r.phase = true) :
    early phase = true := by
  cases stepCall_move moved with
  | preFlight attached advanced => rfl
  | resolve parsed => rfl
  | unlock => cases stays
  | start registered => cases stays
  | finish outside => cases stays

theorem stepCall_vault {managed : ManagedTarget} {ref : CredentialRef}
    (moved : stepCall b s i req phase answer = some r) (is : r.phase = .vault managed ref) :
    phase = .inventory ∧ answer = .managed (.ok managed) ∧ CredentialRef.parse managed.credentialRef = .ok ref := by
  have none_before : ∀ outcome, afterPreFlight outcome ≠ .vault managed ref := by
    intro outcome same
    unfold afterPreFlight at same
    split at same <;> cases same
  cases stepCall_move moved with
  | preFlight attached advanced => exact absurd is (none_before _)
  | @resolve managed' ref' parsed =>
      cases is
      cases answer with
      | managed result =>
          cases result with
          | error e => cases moved
          | ok managed'' =>
              simp only [stepCall] at moved
              split at moved
              · cases moved
                exact ⟨rfl, rfl, parsed⟩
              · cases moved
      | _ => simp [stepCall] at moved
  | unlock => cases is
  | start registered => cases is
  | finish outside => cases is

theorem stepCall_dispatch {managed : ManagedTarget} {cred : Credential}
    (moved : stepCall b s i req phase answer = some r) (is : r.phase = .dispatch managed cred) :
    ∃ ref, phase = .vault managed ref ∧ answer = .credential (.ok cred) := by
  have none_before : ∀ outcome, afterPreFlight outcome ≠ .dispatch managed cred := by
    intro outcome same
    unfold afterPreFlight at same
    split at same <;> cases same
  cases stepCall_move moved with
  | preFlight attached advanced => exact absurd is (none_before _)
  | unlock =>
      cases is
      cases answer with
      | credential result =>
          cases result with
          | error e => cases moved
          | ok cred' =>
              cases moved
              exact ⟨_, rfl, rfl⟩
      | _ => simp [stepCall] at moved
  | resolve parsed => cases is
  | start registered => cases is
  | finish outside => cases is

theorem stepCall_transport {call : Nat} {target : TransportTarget} {op : Op} {cred : Credential}
    (moved : stepCall b s i req phase answer = some r) (starts : .transportStarted call target op cred ∈ r.events) :
    call = i ∧ op = req.op ∧ ∃ managed, phase = .dispatch managed cred ∧ target = ⟨managed.host, managed.port⟩ ∧
      managed.transport ∈ b.transports := by
  cases stepCall_move moved with
  | start registered =>
      simp only [List.mem_singleton, Event.transportStarted.injEq] at starts
      obtain ⟨rfl, rfl, rfl, rfl⟩ := starts
      exact ⟨rfl, rfl, _, rfl, rfl, registered⟩
  | preFlight attached advanced => simp at starts
  | resolve parsed => cases starts
  | unlock => cases starts
  | finish outside => cases starts

theorem call_later {v v' : Broker.World} {a : Broker.Action} {call : Call} (moved : Broker.step b v a = some v')
    (found : v.calls[i]? = some call) : ∃ call', v'.calls[i]? = some call' ∧ call'.req = call.req ∧
      (call'.phase = call.phase ∨ ∃ answer r, a = .advance i answer ∧
        stepCall b v.guard i call.req call.phase answer = some r ∧ call'.phase = r.phase) := by
  have inside := (List.getElem?_eq_some_iff.mp found).1
  rcases step_cases moved with ⟨k, answer, old, r, rfl, at_k, callMoved, rfl⟩ | ⟨req, rfl, rfl⟩ | ⟨-, calls, -⟩
  · by_cases same : k = i
    · subst same
      obtain rfl := Option.some.inj (at_k.symm.trans found)
      exact ⟨_, List.getElem?_set_self inside, rfl, Or.inr ⟨answer, r, rfl, callMoved, rfl⟩⟩
    · exact ⟨call, (List.getElem?_set_ne same).trans found, rfl, Or.inl rfl⟩
  · exact ⟨call, (List.getElem?_append_left inside).trans found, rfl, Or.inl rfl⟩
  · exact ⟨call, calls ▸ found, rfl, Or.inl rfl⟩

theorem event_cases {v v' : Broker.World} {a : Broker.Action} {e : Event} (moved : Broker.step b v a = some v')
    (member : e ∈ v'.log) : e ∈ v.log ∨ ∃ i answer call r, v.calls[i]? = some call ∧
      stepCall b v.guard i call.req call.phase answer = some r ∧ e ∈ r.events := by
  rcases step_cases moved with ⟨i, answer, call, r, rfl, found, callMoved, rfl⟩ | ⟨req, rfl, rfl⟩ | ⟨-, -, log, -⟩
  · rcases List.mem_append.mp member with old | new
    · exact Or.inl old
    · exact Or.inr ⟨i, answer, call, r, found, callMoved, new⟩
  · exact Or.inl member
  · exact Or.inl (log ▸ member)

end Call

/-! ## A step of the system -/

section Run
variable {b : Audited.Config} {w w' : Resolving.World} {action : Resolving.Action}

/-- What the broker may be answered by the inventory and by the vault. -/
def Answers (w : Resolving.World) : Broker.Action → Prop
  | .advance i (.managed (.ok managed)) =>
      ∃ call, w.audited.broker.calls[i]? = some call ∧ w.audited.inventory.lookup call.req.targetRef = some managed
  | .advance i (.credential (.ok cred)) =>
      ∃ j ref name, (i, j) ∈ w.asked ∧ w.vault.calls[j]? = some (.resolve ref name (.returned (.ok cred)))
  | _ => True

inductive Stepped (b : Audited.Config) (w : Resolving.World) : Resolving.World → Prop
  | broker {a : Broker.Action} {audited : Audited.World} (answers : Answers w a)
      (taken : Broker.step b.broker w.audited.broker a = some audited.broker) : Stepped b w { w with audited }
  | beside {audited : Audited.World} (same : audited.broker = w.audited.broker) : Stepped b w { w with audited }
  | vault {a : Client.Action} {vault : Client} (taken : w.vault.step a = some vault) : Stepped b w { w with vault }
  | asked {i : Nat} {req : ExecRequest} {managed : ManagedTarget} {ref : CredentialRef} {vault : Client}
      (waits : w.audited.broker.calls[i]? = some ⟨req, .vault managed ref⟩)
      (taken : w.vault.step (.resolve ref) = some vault) :
      Stepped b w { w with vault, asked := (i, w.vault.calls.length) :: w.asked }

theorem audited_stepped {a : Audited.Action} {audited : Audited.World}
    (plain : ∀ i r, a ≠ .broker (.advance i (.credential r))) (taken : Audited.step b w.audited a = some audited) :
    Stepped b w { w with audited } := by
  cases a with
  | broker a =>
      obtain ⟨other, moved, -⟩ := Audited.step_broker taken
      refine .broker ?_ moved
      cases a with
      | advance i answer =>
          cases answer with
          | managed r => exact absurd rfl (other i r)
          | credential r => exact absurd rfl (plain i r)
          | _ => trivial
      | _ => trivial
  | getManaged i failed =>
      obtain ⟨call, audit, found, -, moved, -⟩ := Audited.step_getManaged taken
      refine .broker ?_ moved
      cases answer : w.audited.inventory.getManaged call.req.targetRef failed with
      | error e => trivial
      | ok managed =>
          refine ⟨call, found, ?_⟩
          unfold Audited.Inventory.getManaged at answer
          split at answer
          · cases answer
          · split at answer
            · rename_i known
              cases answer
              exact known
            · cases answer
  | upsert ref managed =>
      cases taken
      exact .beside rfl
  | remove ref =>
      cases taken
      exact .beside rfl
  | lookup i failed =>
      obtain ⟨req, result, start, managed, latency, -, -, rfl⟩ := Audited.step_lookup taken
      exact .beside rfl
  | append i worked =>
      obtain ⟨start, managed, event, -, rfl⟩ := Audited.step_append taken
      exact .beside rfl

theorem step_stepped (taken : Resolving.step b w action = some w') : Stepped b w w' := by
  cases action with
  | audited a =>
      simp only [Resolving.step] at taken
      split at taken
      · cases taken
      · rename_i other
        obtain ⟨audited, moved, rfl⟩ := Option.map_eq_some_iff.mp taken
        refine audited_stepped ?_ moved
        rintro i r rfl
        exact other rfl
  | vault a =>
      obtain ⟨vault, moved, rfl⟩ := Option.map_eq_some_iff.mp taken
      exact .vault moved
  | ask i =>
      simp only [Resolving.step] at taken
      split at taken
      · rename_i waits
        split at taken
        · cases taken
        · obtain ⟨vault, moved, rfl⟩ := Option.map_eq_some_iff.mp taken
          exact .asked waits moved
      · cases taken
  | answer i =>
      simp only [Resolving.step, Option.bind_eq_bind, Option.bind_eq_some_iff] at taken
      obtain ⟨⟨i', j⟩, found, call, there, result, returned, audited, moved, same⟩ := taken
      cases same
      have isCall := List.find?_some found
      obtain rfl : i' = i := of_decide_eq_true isCall
      obtain ⟨-, moved, -⟩ := Audited.step_broker moved
      refine .broker ?_ moved
      cases result with
      | error e => trivial
      | ok cred =>
          unfold resolved at returned
          split at returned
          · cases returned
          · cases returned
            exact ⟨j, _, _, List.mem_of_find?_eq_some found, there⟩
          · cases returned

/-! ## Where a credential goes -/

variable {start : Resolving.World} {past : List Resolving.Action}

/-- In some state of the run so far this was the record of the request's own target. -/
def Recorded (b : Audited.Config) (start : Resolving.World) (past : List Resolving.Action) (req : ExecRequest)
    (managed : ManagedTarget) : Prop :=
  ∃ earlier later v, past = earlier ++ later ∧ run (Resolving.step b) start earlier = some v ∧
    v.audited.inventory.lookup req.targetRef = some managed

/-- A record of the target names a credential that the vault held under that name. -/
def Entitled (b : Audited.Config) (start : Resolving.World) (past : List Resolving.Action) (w : Resolving.World)
    (req : ExecRequest) (managed : ManagedTarget) (cred : Credential) : Prop :=
  Recorded b start past req managed ∧ ∃ ref name, CredentialRef.parse managed.credentialRef = .ok ref ∧
    ref.name = some name ∧ Held w.vault name cred

theorem Recorded.later {req : ExecRequest} {managed : ManagedTarget} (recorded : Recorded b start past req managed)
    (action : Resolving.Action) : Recorded b start (past ++ [action]) req managed := by
  obtain ⟨earlier, later, v, rfl, reached, found⟩ := recorded
  exact ⟨earlier, later ++ [action], v, List.append_assoc _ _ _, reached, found⟩

theorem Entitled.later {req : ExecRequest} {managed : ManagedTarget} {cred : Credential}
    (entitled : Entitled b start past w req managed cred) (action : Resolving.Action)
    (vault : ∀ name, Held w.vault name cred → Held w'.vault name cred) :
    Entitled b start (past ++ [action]) w' req managed cred := by
  obtain ⟨recorded, ref, name, parsed, named, held⟩ := entitled
  exact ⟨recorded.later action, ref, name, parsed, named, vault name held⟩

/-- A call of the broker waits for a call of the client that asks for the reference it has parsed. -/
def Asked (w : Resolving.World) (i j : Nat) : Prop :=
  ∃ call asking, w.audited.broker.calls[i]? = some call ∧ w.vault.calls[j]? = some asking ∧ early call.phase = false ∧
    ∀ managed ref, call.phase = .vault managed ref → ∃ name, asks asking = some (ref, name)

structure Tied (b : Audited.Config) (start : Resolving.World) (past : List Resolving.Action) (w : Resolving.World) :
    Prop where
  reached : run (Resolving.step b) start past = some w
  sourced : Sourced w.vault
  resolving (i : Nat) (req : ExecRequest) (managed : ManagedTarget) (ref : CredentialRef) :
    w.audited.broker.calls[i]? = some ⟨req, .vault managed ref⟩ →
      Recorded b start past req managed ∧ CredentialRef.parse managed.credentialRef = .ok ref
  asked (i j : Nat) : (i, j) ∈ w.asked → Asked w i j
  dispatching (i : Nat) (req : ExecRequest) (managed : ManagedTarget) (cred : Credential) :
    w.audited.broker.calls[i]? = some ⟨req, .dispatch managed cred⟩ → Entitled b start past w req managed cred
  started (i : Nat) (target : TransportTarget) (op : Op) (cred : Credential) :
    .transportStarted i target op cred ∈ w.audited.broker.log → ∃ call managed,
      w.audited.broker.calls[i]? = some call ∧ op = call.req.op ∧ target = ⟨managed.host, managed.port⟩ ∧
      managed.transport ∈ b.broker.transports ∧ Entitled b start past w call.req managed cred

theorem tied_new (inventory : Audited.Inventory) (now : Nat) (table : Daimon.Vault.Credentials) :
    Tied b (.new inventory now table) [] (.new inventory now table) where
  reached := rfl
  sourced := sourced_new now table
  resolving i req managed ref found := by simp [Resolving.World.new, Audited.World.new, Broker.World.new] at found
  asked i j member := by cases member
  dispatching i req managed cred found := by simp [Resolving.World.new, Audited.World.new, Broker.World.new] at found
  started i target op cred member := by cases member

/-- The steps that leave the broker alone. -/
theorem Tied.beside (tied : Tied b start past w) (taken : Resolving.step b w action = some w')
    (broker : w'.audited.broker = w.audited.broker) (sourced : Sourced w'.vault)
    (held : ∀ name cred, Held w.vault name cred → Held w'.vault name cred)
    (asked : ∀ i j, (i, j) ∈ w'.asked → Asked w' i j) : Tied b start (past ++ [action]) w' := by
  constructor
  · rw [run_append tied.reached, run, taken]
    rfl
  · exact sourced
  · intro i req managed ref found
    rw [broker] at found
    obtain ⟨recorded, parsed⟩ := tied.resolving i req managed ref found
    exact ⟨recorded.later action, parsed⟩
  · exact asked
  · intro i req managed cred found
    rw [broker] at found
    exact (tied.dispatching i req managed cred found).later action fun name => held name cred
  · intro i target op cred member
    rw [broker] at member ⊢
    obtain ⟨call, managed, found, same, host, kind, entitled⟩ := tied.started i target op cred member
    exact ⟨call, managed, found, same, host, kind, entitled.later action fun name => held name cred⟩

/-- A step of the broker, with answers of the inventory and of the vault. -/
theorem Tied.moved {a : Broker.Action} (tied : Tied b start past w) (taken : Resolving.step b w action = some w')
    (answers : Answers w a) (moved : Broker.step b.broker w.audited.broker a = some w'.audited.broker)
    (vault : w'.vault = w.vault) (asked : w'.asked = w.asked) : Tied b start (past ++ [action]) w' := by
  have held (name : String) (cred : Credential) (held : Held w.vault name cred) : Held w'.vault name cred := vault ▸ held
  have notVault (managed : ManagedTarget) (ref : CredentialRef) : firstPhase b.broker ≠ .vault managed ref := by
    unfold firstPhase
    split <;> nofun
  have notDispatch (managed : ManagedTarget) (cred : Credential) : firstPhase b.broker ≠ .dispatch managed cred := by
    unfold firstPhase
    split <;> nofun
  constructor
  · rw [run_append tied.reached, run, taken]
    rfl
  · rw [vault]
    exact tied.sourced
  · intro i req managed ref found
    rcases calls_cases moved found with ⟨old, -⟩ | ⟨call, answer, r, rfl, at_i, callMoved, is, -⟩ | ⟨req', -, -, is, -⟩
    · obtain ⟨recorded, parsed⟩ := tied.resolving i req managed ref old
      exact ⟨recorded.later action, parsed⟩
    · obtain ⟨rfl, phase⟩ := Call.mk.inj is
      obtain ⟨-, rfl, parsed⟩ := stepCall_vault callMoved phase.symm
      obtain ⟨call', same, known⟩ := answers
      obtain rfl := Option.some.inj (at_i.symm.trans same)
      exact ⟨⟨past, [action], w, rfl, tied.reached, known⟩, parsed⟩
    · exact absurd (Call.mk.inj is).2.symm (notVault managed ref)
  · intro i j member
    rw [asked] at member
    obtain ⟨call, asking, found, there, late, same⟩ := tied.asked i j member
    obtain ⟨call', found', -, stays | ⟨answer, r, rfl, callMoved, now⟩⟩ := call_later moved found
    · exact ⟨call', asking, found', vault ▸ there, stays ▸ late, stays ▸ same⟩
    · refine ⟨call', asking, found', vault ▸ there, ?_, ?_⟩
      · rw [now, ← Bool.not_eq_true]
        intro stays
        rw [early_of_stepCall callMoved stays] at late
        cases late
      · intro managed ref resolving
        rw [(stepCall_vault callMoved (now.symm.trans resolving)).1] at late
        cases late
  · intro i req managed cred found
    rcases calls_cases moved found with ⟨old, -⟩ | ⟨call, answer, r, rfl, at_i, callMoved, is, -⟩ | ⟨req', -, -, is, -⟩
    · exact (tied.dispatching i req managed cred old).later action fun name => held name cred
    · obtain ⟨rfl, phase⟩ := Call.mk.inj is
      obtain ⟨ref, resolving, rfl⟩ := stepCall_dispatch callMoved phase.symm
      obtain ⟨j, ref', name, wasAsked, returned⟩ := answers
      obtain ⟨call', asking, at_i', there, -, same⟩ := tied.asked i j wasAsked
      obtain rfl := Option.some.inj (at_i.symm.trans at_i')
      obtain rfl := Option.some.inj (returned.symm.trans there)
      obtain ⟨name', asksFor⟩ := same managed ref resolving
      cases asksFor
      obtain ⟨recorded, parsed⟩ := tied.resolving i call.req managed ref (resolving ▸ at_i)
      have named := tied.sourced.named there rfl
      exact ⟨recorded.later action, ref, name, parsed, named, held _ _ (tied.sourced.returned there)⟩
    · exact absurd (Call.mk.inj is).2.symm (notDispatch managed cred)
  · intro i target op cred member
    rcases event_cases moved member with old | ⟨j, answer, call, r, found, callMoved, new⟩
    · obtain ⟨call, managed, found, same, host, kind, entitled⟩ := tied.started i target op cred old
      obtain ⟨call', found', req, -⟩ := call_later moved found
      exact ⟨call', managed, found', req ▸ same, host, kind, req ▸ entitled.later action fun name => held name cred⟩
    · obtain ⟨rfl, same, managed, dispatching, host, kind⟩ := stepCall_transport callMoved new
      obtain ⟨call', found', req, -⟩ := call_later moved found
      have entitled := tied.dispatching i call.req managed cred (dispatching ▸ found)
      exact ⟨call', managed, found', req ▸ same, host, kind, req ▸ entitled.later action fun name => held name cred⟩

theorem step_tied (past : List Resolving.Action) (w : Resolving.World) (action : Resolving.Action)
    (w' : Resolving.World) (tied : Tied b start past w) (taken : Resolving.step b w action = some w') :
    Tied b start (past ++ [action]) w' := by
  cases step_stepped taken with
  | broker answers moved => exact tied.moved taken answers moved rfl rfl
  | beside same =>
      refine tied.beside taken same tied.sourced (fun _ _ held => held) ?_
      intro i j member
      obtain ⟨call, asking, found, there, late, asksFor⟩ := tied.asked i j member
      exact ⟨call, asking, same ▸ found, there, late, asksFor⟩
  | vault moved =>
      refine tied.beside taken rfl (sourced_step tied.sourced moved) (fun _ _ held => held.step moved) ?_
      intro i j member
      obtain ⟨call, asking, found, there, late, asksFor⟩ := tied.asked i j member
      obtain ⟨asking', there', same⟩ := asks_step moved there
      exact ⟨call, asking', found, there', late, same ▸ asksFor⟩
  | @asked i req managed ref vault waits moved =>
      refine tied.beside taken rfl (sourced_step tied.sourced moved) (fun _ _ held => held.step moved) ?_
      intro k j member
      rcases List.mem_cons.mp member with new | old
      · obtain ⟨rfl, rfl⟩ := Prod.mk.inj new
        obtain ⟨asking, there, name, asksFor⟩ := asked_call moved
        refine ⟨_, asking, waits, there, rfl, ?_⟩
        intro managed' ref' resolving
        cases resolving
        exact ⟨name, asksFor⟩
      · obtain ⟨call, asking, found, there, late, asksFor⟩ := tied.asked k j old
        obtain ⟨asking', there', same⟩ := asks_step moved there
        exact ⟨call, asking', found, there', late, same ▸ asksFor⟩

end Run

def edgeInventory : Audited.Inventory := [(⟨"mikrotik-edge"⟩, sampleTarget)]

def edgeCredentials : Daimon.Vault.Credentials :=
  ⟨[⟨1, "mikrotik-edge", .sshPassword, .sshPassword "admin" "secret"⟩], by decide, by decide⟩

def edgeConfig : Audited.Config := { broker := sampleBroker, audit := true, display := fun _ => "" }

/-- The target is bound to another host between the answer of the vault and the start of the transport. -/
def edgeRun : List Resolving.Action :=
  [.audited (.broker (.submit sampleRequest)), .audited (.getManaged 0 none), .ask 0, .vault (.step 0 .lock),
    .vault (.step 0 .row), .vault (.step 0 .lock), .answer 0,
    .audited (.upsert ⟨"mikrotik-edge"⟩ { sampleTarget with host := "10.0.0.1" }), .audited (.broker (.advance 0 .go))]

def edgeStarted : Event := .transportStarted 0 ⟨"10.100.10.1", 22⟩ sampleOp (.sshPassword "admin" "secret")

end Daimon.Proof.Broker.Resolving
