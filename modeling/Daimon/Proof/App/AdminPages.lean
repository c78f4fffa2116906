import Daimon.App.AdminPages
import Daimon.Proof.Broker.Blanked

/-!
# The trail of the pages

The trail of the pages of the vault and the inventory is blind to the secrets, and each of its entries is that of one call
behind the admin gate.
-/

namespace Daimon.Proof.AdminPages
open Daimon.Core Daimon.Broker.Admin Daimon.App.AdminPages Daimon.Proof.Blanked Lib
open Daimon.App (Claims Directory)

variable (config : Config) (verifyPassword : String → String → Bool)

/-! ## Blind to the secrets -/

def blankPhase : Phase → Phase
  | .append claims entry result => .append claims entry (blankResult result)
  | .returned claims result logged => .returned claims (blankResult result) logged
  | phase => phase

def blankCall (call : Call) : Call := ⟨blankOp call.op, blankPhase call.phase⟩

def blankWorld (w : World) : World := { w with stores := blankStores w.stores, calls := w.calls.map blankCall }

def blankEffect (effect : World.Effect) : World.Effect :=
  { effect with stores := blankStores effect.stores, phase := blankPhase effect.phase }

def blankAction : World.Action → World.Action
  | .request token op => .request token (blankOp op)
  | action => action

theorem opened_blank (op : AdminOp) (claims : Claims) :
    World.opened config (blankOp op) claims = blankPhase (World.opened config op claims) := by
  unfold World.opened
  rw [blankOp_isVault, blankOp_method]
  split <;> rfl

theorem audited_blank (op : AdminOp) (claims : Claims) (latencyMs : Nat) (result : Except Failure Value) :
    World.audited config (blankOp op) claims latencyMs (blankResult result) =
      blankPhase (World.audited config op claims latencyMs result) := by
  unfold World.audited
  rw [entry_blank]
  split <;> rfl

theorem stepCall_blank (w : World) (op : AdminOp) (phase : Phase) (answer : World.Answer) :
    (blankWorld w).stepCall config (blankOp op) (blankPhase phase) answer =
      (w.stepCall config op phase answer).map blankEffect := by
  have executed (id : Uuid) := execute_blank config.collation w.stores id op
  cases phase with
  | authenticate token =>
      cases answer with
      | done =>
          simp only [blankPhase, World.stepCall, blankWorld, opened_blank]
          cases w.server.pass token .admin <;> rfl
      | _ => rfl
  | execute claims =>
      cases answer with
      | answered id latencyMs =>
          simp only [blankPhase, World.stepCall, blankWorld, executed]
          cases op.execute config.collation w.stores id with
          | error e =>
              have audited := audited_blank config op claims latencyMs (.error e)
              exact congrArg some (congrArg (World.Effect.mk (blankStores w.stores) none) audited)
          | ok outcome =>
              have audited := audited_blank config op claims latencyMs (.ok outcome.1)
              exact congrArg some (congrArg (World.Effect.mk (blankStores outcome.2) none) audited)
      | failed e latencyMs =>
          simp only [blankPhase, World.stepCall, blankWorld, blankOp_mayFail]
          split
          · have audited := audited_blank config op claims latencyMs (.error e)
            exact congrArg some (congrArg (World.Effect.mk (blankStores w.stores) none) audited)
          · rfl
      | lost id e latencyMs =>
          simp only [blankPhase, World.stepCall, blankWorld, executed, blankOp_mayFail]
          cases op.execute config.collation w.stores id with
          | error e => rfl
          | ok outcome =>
              simp only [Except.map]
              split
              · have audited := audited_blank config op claims latencyMs (.error e)
                exact congrArg some (congrArg (World.Effect.mk (blankStores outcome.2) none) audited)
              · rfl
      | dropLate id =>
          simp only [blankPhase, World.stepCall, blankWorld, executed]
          cases op.execute config.collation w.stores id <;> rfl
      | _ => rfl
  | append claims entry result => cases answer <;> rfl
  | returned claims result logged => cases answer <;> rfl
  | dropped logged => cases answer <;> rfl
  | failed message => cases answer <;> rfl

theorem step_blank (w : World) (action : World.Action) :
    (blankWorld w).step config verifyPassword (blankAction action) =
      (w.step config verifyPassword action).map blankWorld := by
  cases action with
  | server action =>
      simp only [blankAction, World.step, Option.map_map]
      rfl
  | request token op =>
      simp [blankAction, World.step, blankWorld, blankCall, blankPhase]
  | step i answer =>
      simp only [blankAction, World.step, blankWorld, List.getElem?_map]
      cases w.calls[i]? with
      | none => rfl
      | some call =>
          have stepped := stepCall_blank config w call.op call.phase answer
          simp only [Option.map_some, blankCall]
          refine (congrArg (Option.map _) stepped).trans ?_
          rw [Option.map_map, Option.map_map]
          congr 1
          funext effect
          simp [World.apply, blankWorld, blankEffect, blankCall, List.map_set]

/-- Runs that differ in secrets only leave the same trail, and the same answers up to the secrets that they reveal. -/
theorem trail_blind_to_secrets {w w' v : World} {actions actions' : List World.Action}
    (same : blankWorld w = blankWorld w') (alike : actions.map blankAction = actions'.map blankAction)
    (reached : run (World.step config verifyPassword) w actions = some v) :
    ∃ v', run (World.step config verifyPassword) w' actions' = some v' ∧ v'.trail = v.trail ∧
      blankWorld v' = blankWorld v := by
  have first := run_map (step_blank config verifyPassword) w actions
  have second := run_map (step_blank config verifyPassword) w' actions'
  rw [same, alike, second, reached] at first
  obtain ⟨v', reached', blanked⟩ := Option.map_eq_some_iff.mp first
  have trail : (blankWorld v').trail = (blankWorld v).trail := congrArg World.trail blanked
  exact ⟨v', reached', trail, blanked⟩

/-! ## Each entry is that of one call -/

/-- The claims with which a call is past the gate, unless it was dropped. -/
def claims? : Phase → Option Claims
  | .execute claims | .append claims _ _ | .returned claims _ _ => some claims
  | _ => none

/-- What a call has left in the trail. -/
def logged? : Phase → Option Entry
  | .returned _ _ logged | .dropped logged => logged
  | _ => none

/-- What a step of a call does. -/
inductive Moved (w : World) (op : AdminOp) (answer : World.Answer) : Phase → World.Effect → Prop
  | passed {token : Nat} {claims : Claims} (pass : w.server.pass token .admin = some claims) :
      Moved w op answer (.authenticate token) ⟨w.stores, none, .execute claims⟩
  | refused (token : Nat) (message : String) : Moved w op answer (.authenticate token) ⟨w.stores, none, .failed message⟩
  | ran (claims : Claims) (stores : Stores) (latencyMs : Nat) (result : Except Failure Value) :
      Moved w op answer (.execute claims) ⟨stores, none, World.audited config op claims latencyMs result⟩
  | abandoned (claims : Claims) (stores : Stores) :
      Moved w op answer (.execute claims) ⟨stores, none, .dropped none⟩
  | logged (claims : Claims) (entry : Entry) (result : Except Failure Value) :
      Moved w op answer (.append claims entry result) ⟨w.stores, some entry, .returned claims result (some entry)⟩
  | unlogged (claims : Claims) (entry : Entry) (result : Except Failure Value) (sink : answer = .unlogged) :
      Moved w op answer (.append claims entry result) ⟨w.stores, none, .returned claims result none⟩
  | late (claims : Claims) (entry : Entry) (result : Except Failure Value) :
      Moved w op answer (.append claims entry result) ⟨w.stores, some entry, .dropped (some entry)⟩
  | dropped (phase : Phase) (waits : logged? phase = none) : Moved w op answer phase ⟨w.stores, none, .dropped none⟩

variable {config verifyPassword} {w v : World}

theorem stepCall_moved {op : AdminOp} {phase : Phase} {answer : World.Answer} {effect : World.Effect}
    (stepped : w.stepCall config op phase answer = some effect) : Moved config w op answer phase effect := by
  unfold World.stepCall at stepped
  split at stepped
  · rename_i token
    split at stepped
    · rename_i claims pass
      cases stepped
      unfold World.opened
      split
      · exact .refused token _
      · exact .passed pass
    · cases stepped
      exact .refused token _
  · cases stepped
    exact .refused _ _
  · split at stepped
    · cases stepped
      exact .ran _ _ _ _
    · cases stepped
      exact .ran _ _ _ _
  · split at stepped
    · cases stepped
      exact .ran _ _ _ _
    · cases stepped
  · split at stepped
    · split at stepped
      · cases stepped
        exact .ran _ _ _ _
      · cases stepped
    · cases stepped
  · split at stepped
    · cases stepped
      exact .abandoned _ _
    · cases stepped
  · cases stepped
    exact .logged _ _ _
  · cases stepped
    exact .unlogged _ _ _ rfl
  · cases stepped
    exact .late _ _ _
  · cases stepped
    exact .dropped _ rfl
  · cases stepped
    exact .dropped _ rfl
  · cases stepped
    exact .dropped _ rfl
  · cases stepped

/-- The claims were those of a token that passed the admin gate, at an earlier state of the run. -/
def Passed (config : Config) (verifyPassword : String → String → Bool) (start : World) (past : List World.Action)
    (claims : Claims) : Prop :=
  ∃ earlier later v token, past = earlier ++ later ∧
    run (World.step config verifyPassword) start earlier = some v ∧ v.server.pass token .admin = some claims

/-- The entry is that of the request, as an admin made it. -/
def Attributed (config : Config) (verifyPassword : String → String → Bool) (start : World) (past : List World.Action)
    (op : AdminOp) (entry : Entry) : Prop :=
  ∃ claims result latencyMs, Passed config verifyPassword start past claims ∧
    entry = op.entry claims.sub result latencyMs

/-- A call past the gate, what it is to leave in the trail and what it has left there. -/
structure CallInv (config : Config) (verifyPassword : String → String → Bool) (start : World)
    (past : List World.Action) (call : Call) : Prop where
  passed : ∀ claims, claims? call.phase = some claims → Passed config verifyPassword start past claims
  logged : ∀ entry, logged? call.phase = some entry → Attributed config verifyPassword start past call.op entry
  appends : ∀ claims entry result, call.phase = .append claims entry result →
    config.audit = true ∧ ∃ latencyMs, entry = call.op.entry claims.sub result latencyMs
  returned : ∀ claims result logged, call.phase = .returned claims result logged → config.audit = true →
    (∀ i, World.Action.step i .unlogged ∉ past) → ∃ latencyMs, logged = some (call.op.entry claims.sub result latencyMs)

structure Trailed (config : Config) (verifyPassword : String → String → Bool) (start : World)
    (past : List World.Action) (w : World) : Prop where
  reached : run (World.step config verifyPassword) start past = some w
  calls : ∀ call ∈ w.calls, CallInv config verifyPassword start past call
  trail : w.trail.Perm (w.calls.filterMap fun call => logged? call.phase)
  stores : w.stores = start.stores ∨ ∃ claims, Passed config verifyPassword start past claims

variable {start : World} {past : List World.Action}

theorem Passed.later {claims : Claims} (passed : Passed config verifyPassword start past claims)
    (action : World.Action) : Passed config verifyPassword start (past ++ [action]) claims := by
  obtain ⟨earlier, later, v, token, rfl, reached, pass⟩ := passed
  exact ⟨earlier, later ++ [action], v, token, List.append_assoc _ _ _, reached, pass⟩

theorem CallInv.later {call : Call} (inv : CallInv config verifyPassword start past call) (action : World.Action) :
    CallInv config verifyPassword start (past ++ [action]) call := by
  constructor
  · intro claims found
    exact (inv.passed claims found).later action
  · intro entry found
    obtain ⟨claims, result, latencyMs, passed, same⟩ := inv.logged entry found
    exact ⟨claims, result, latencyMs, passed.later action, same⟩
  · exact inv.appends
  · intro claims result logged phase sink answered
    exact inv.returned claims result logged phase sink fun i member => answered i (List.mem_append_left _ member)

theorem CallInv.silent {call : Call} (before : claims? call.phase = none) (unlogged : logged? call.phase = none) :
    CallInv config verifyPassword start past call := by
  constructor
  · intro claims found
    rw [before] at found
    cases found
  · intro entry found
    rw [unlogged] at found
    cases found
  · intro claims entry result phase
    rw [phase] at before
    cases before
  · intro claims result logged phase
    rw [phase] at before
    cases before

/-- A step of a call keeps what is known of it. -/
theorem CallInv.moved {call : Call} {i : Nat} {answer : World.Answer} {effect : World.Effect}
    (inv : CallInv config verifyPassword start past call)
    (reached : run (World.step config verifyPassword) start past = some w)
    (moved : Moved config w call.op answer call.phase effect) :
    CallInv config verifyPassword start (past ++ [.step i answer]) ⟨call.op, effect.phase⟩ := by
  obtain ⟨op, phase⟩ := call
  have held (claims : Claims) (found : claims? phase = some claims) :
      Passed config verifyPassword start (past ++ [.step i answer]) claims := (inv.passed claims found).later _
  cases moved with
  | passed pass =>
      constructor
      · intro claims found
        cases found
        exact ⟨past, [.step i answer], w, _, rfl, reached, pass⟩
      · intro entry found
        cases found
      · intro claims entry result same
        cases same
      · intro claims result logged same
        cases same
  | refused token message => exact .silent rfl rfl
  | ran claims stores latencyMs result =>
      cases sink : config.audit with
      | true =>
          simp only [World.audited, sink, if_true]
          constructor
          · intro claims' found
            cases found
            exact held claims rfl
          · intro entry found
            cases found
          · intro claims' entry result' same
            cases same
            exact ⟨sink, latencyMs, rfl⟩
          · intro claims' result' logged same
            cases same
      | false =>
          simp only [World.audited, sink, Bool.false_eq_true, if_false]
          constructor
          · intro claims' found
            cases found
            exact held claims rfl
          · intro entry found
            cases found
          · intro claims' entry result' same
            cases same
          · intro claims' result' logged same audits
            exact absurd (sink.symm.trans audits) Bool.false_ne_true
  | abandoned claims stores => exact .silent rfl rfl
  | logged claims entry result =>
      obtain ⟨-, latencyMs, same⟩ := inv.appends claims entry result rfl
      constructor
      · intro claims' found
        cases found
        exact held claims rfl
      · intro entry' found
        cases found
        exact ⟨claims, result, latencyMs, held claims rfl, same⟩
      · intro claims' entry' result' phase
        cases phase
      · intro claims' result' logged phase _ _
        cases phase
        exact ⟨latencyMs, congrArg some same⟩
  | unlogged claims entry result sink =>
      constructor
      · intro claims' found
        cases found
        exact held claims rfl
      · intro entry' found
        cases found
      · intro claims' entry' result' phase
        cases phase
      · intro claims' result' logged phase _ answered
        rw [sink] at answered
        exact absurd (List.mem_append_right _ (List.mem_singleton_self _)) (answered i)
  | late claims entry result =>
      obtain ⟨-, latencyMs, same⟩ := inv.appends claims entry result rfl
      constructor
      · intro claims' found
        cases found
      · intro entry' found
        cases found
        exact ⟨claims, result, latencyMs, held claims rfl, same⟩
      · intro claims' entry' result' phase
        cases phase
      · intro claims' result' logged phase
        cases phase
  | dropped phase waits => exact .silent rfl rfl

/-- The step adds to the trail what its call has then left there. -/
theorem Moved.logged? {op : AdminOp} {answer : World.Answer} {phase : Phase} {effect : World.Effect}
    (moved : Moved config w op answer phase effect) :
    AdminPages.logged? phase = none ∧ AdminPages.logged? effect.phase = effect.logged := by
  cases moved with
  | ran claims stores latencyMs result =>
      unfold World.audited
      split <;> exact ⟨rfl, rfl⟩
  | dropped phase waits => exact ⟨waits, rfl⟩
  | _ => exact ⟨rfl, rfl⟩

/-- Only a call past the gate writes. -/
theorem Moved.stores {op : AdminOp} {answer : World.Answer} {phase : Phase} {effect : World.Effect}
    (moved : Moved config w op answer phase effect) :
    effect.stores = w.stores ∨ ∃ claims, claims? phase = some claims := by
  cases moved with
  | ran claims _ _ _ | abandoned claims _ => exact .inr ⟨claims, rfl⟩
  | _ => exact .inl rfl

theorem filterMap_set {α β : Type} (f : α → Option β) {xs : List α} {i : Nat} {x y : α} (here : xs[i]? = some x)
    (unset : f x = none) : ((xs.set i y).filterMap f).Perm (xs.filterMap f ++ (f y).toList) := by
  obtain ⟨bound, rfl⟩ := List.getElem?_eq_some_iff.mp here
  rw [List.set_eq_take_append_cons_drop, if_pos bound]
  have split : xs = xs.take i ++ xs[i] :: xs.drop (i + 1) := by simp
  have before : xs.filterMap f = (xs.take i).filterMap f ++ (xs.drop (i + 1)).filterMap f := by
    conv_lhs => rw [split]
    rw [List.filterMap_append, List.filterMap_cons_none unset]
  rw [before, List.filterMap_append]
  cases set : f y with
  | none => simp [List.filterMap_cons_none set]
  | some z =>
      rw [List.filterMap_cons_some set, Option.toList_some, List.append_assoc]
      have swap : ([z] ++ (xs.drop (i + 1)).filterMap f).Perm ((xs.drop (i + 1)).filterMap f ++ [z]) :=
        List.perm_append_comm
      exact swap.append_left _

theorem step_trailed (past : List World.Action) (w : World) (action : World.Action) (w' : World)
    (trailed : Trailed config verifyPassword start past w) (taken : World.step config verifyPassword w action = some w') :
    Trailed config verifyPassword start (past ++ [action]) w' := by
  have reached : run (World.step config verifyPassword) start (past ++ [action]) = some w' := by
    rw [run_append trailed.reached, run, taken]
    rfl
  have later (call : Call) (member : call ∈ w.calls) := (trailed.calls call member).later action
  have stores : w.stores = start.stores ∨ ∃ claims, Passed config verifyPassword start (past ++ [action]) claims := by
    rcases trailed.stores with same | ⟨claims, passed⟩
    · exact .inl same
    · exact .inr ⟨claims, passed.later action⟩
  cases action with
  | server action =>
      obtain ⟨server, -, rfl⟩ := Option.map_eq_some_iff.mp taken
      exact ⟨reached, later, trailed.trail, stores⟩
  | request token op =>
      cases taken
      refine ⟨reached, ?_, ?_, stores⟩
      · intro call member
        rcases List.mem_append.mp member with old | new
        · exact later call old
        · rw [List.mem_singleton.mp new]
          exact .silent rfl rfl
      · rw [List.filterMap_append]
        simpa [AdminPages.logged?] using trailed.trail
  | step i answer =>
      rw [World.step] at taken
      cases here : w.calls[i]? with
      | none =>
          rw [here] at taken
          cases taken
      | some call =>
        rw [here] at taken
        obtain ⟨effect, stepped, rfl⟩ := Option.map_eq_some_iff.mp taken
        have moved := stepCall_moved stepped
        have member := List.mem_of_getElem? here
        refine ⟨reached, ?_, ?_, ?_⟩
        · intro other place
          rcases List.mem_or_eq_of_mem_set place with old | rfl
          · exact later other old
          · exact (trailed.calls call member).moved trailed.reached moved
        · obtain ⟨unset, set⟩ := moved.logged?
          have grown := filterMap_set (fun call => AdminPages.logged? call.phase) here unset (y := ⟨call.op, effect.phase⟩)
          rw [set] at grown
          exact (trailed.trail.append_right _).trans grown.symm
        · rcases moved.stores with same | ⟨claims, found⟩
          · change effect.stores = start.stores ∨ _
            rw [same]
            exact stores
          · exact .inr ⟨claims, ((trailed.calls call member).passed claims found).later _⟩

def team : Directory where
  users := [⟨1, "root", "secret", .active⟩, ⟨2, "guest", "pw", .active⟩]
  ids := by decide
  usernames := by decide
  roles := ["admin", "operator"]
  grants := [(1, "admin"), (2, "operator")]
  sessions := []

def pages : Config := ⟨true, true, fun a b => decide (a ≤ b)⟩

def samePassword (a b : String) : Bool := a == b

def signedIn : List World.Action :=
  [.server (.login "root" "secret"), .server (.step 0 .done), .server (.step 0 (.session "s1")),
    .server (.login "guest" "pw"), .server (.step 1 .done), .server (.step 1 (.session "s2"))]

def storing (token : String) : List World.Action :=
  signedIn ++ [.request 0 (.vaultCreate "edge" (.apiToken token)), .step 0 .done, .step 0 (.answered 7 12), .step 0 .done,
    .request 1 (.vaultReveal 7), .step 1 .done, .request 0 (.vaultReveal 7), .step 2 .done, .step 2 (.answered 0 3),
    .step 2 .done]

def emptyStores : Stores := ⟨.empty, []⟩

theorem sample_blind : ∃ w w', run (World.step pages samePassword) (.new 0 team emptyStores) (storing "t0k") = some w ∧
    run (World.step pages samePassword) (.new 0 team emptyStores) (storing "other") = some w' ∧ w'.trail = w.trail := by
  have runs : (run (World.step pages samePassword) (.new 0 team emptyStores) (storing "t0k")).isSome = true := by
    decide +kernel
  obtain ⟨w, reached⟩ := Option.isSome_iff_exists.mp runs
  have alike : (storing "t0k").map blankAction = (storing "other").map blankAction := rfl
  obtain ⟨w', reached', same, -⟩ := trail_blind_to_secrets pages samePassword rfl alike reached
  exact ⟨w, w', reached, reached', same⟩

end Daimon.Proof.AdminPages
