import Daimon.Proof.App.SecretSettings

/-!
# Settings are live after the write

Any number of settings calls, interleaved. A call writes, selects the whole table and swaps the snapshot in three
steps, and a snapshot that was selected earlier can be swapped in later. Where none is, what a call wrote stays visible.
-/

namespace Daimon.Proof.App.Settings
open Daimon.Core Lib Daimon.App.Settings

variable {cfg : Config}

/-! ## The conditions -/

def phaseSucceeds : Phase → Answer → Bool
  | .upsert _, answer | .delete, answer | .select, answer => answer == .done
  | _, _ => true

/-- The statements and the reloads of the calls succeed. -/
def Succeeds (w : World) : Action → Prop
  | .call _ => True
  | .advance i answer => (w.calls[i]?.all fun call => phaseSucceeds call.phase answer) = true

def phaseInOrder (s : Shared) : Phase → Bool
  | .store loaded => decide (s.resolver.version ≤ loaded.version)
  | .pushTimeout loaded => decide (s.timeout.version ≤ loaded.version)
  | .pushInterval loaded => decide (s.interval.version ≤ loaded.version)
  | _ => true

/-- No call swaps in a snapshot that was selected before the one that stands, or pushes a tunable from a snapshot
that was selected before the one it was last pushed from. -/
def InOrder (w : World) : Action → Prop
  | .call _ => True
  | .advance i _ => (w.calls[i]?.all fun call => phaseInOrder w.shared call.phase) = true

instance (w : World) : DecidablePred (Succeeds w)
  | .call _ => isTrue trivial
  | .advance _ _ => inferInstanceAs (Decidable (_ = true))

instance (w : World) : DecidablePred (InOrder w)
  | .call _ => isTrue trivial
  | .advance _ _ => inferInstanceAs (Decidable (_ = true))

/-! ## Snapshots of the table -/

def At (s : Shared) (loaded : Loaded) : Prop :=
  ∃ config, s.contents[loaded.version]? = some config ∧ loaded.snapshot = config.loadSnapshot

def PushedFrom (s : Shared) (tunable : ConfigSnapshot → UInt64) (pushed : Pushed) : Prop :=
  ∃ config, s.contents[pushed.version]? = some config ∧ pushed.value = tunable config.loadSnapshot

structure SharedInv (cfg : Config) (s : Shared) : Prop where
  resolver : At s s.resolver
  timeout : PushedFrom s (approvalTimeout cfg.env) s.timeout
  interval : PushedFrom s (observerInterval cfg.env) s.interval
  guard : ∀ secs, s.guard = some secs → 0 < s.timeout.value → secs = s.timeout.value

/-- The table grows only by contents, and neither the snapshot nor a tunable goes back to earlier ones. -/
structure Later (s s' : Shared) : Prop where
  contents : s.contents <+: s'.contents
  resolver : s.resolver.version ≤ s'.resolver.version
  timeout : s.timeout.version ≤ s'.timeout.version
  interval : s.interval.version ≤ s'.interval.version

variable {s s' : Shared} {call : Call}

theorem Later.refl (s : Shared) : Later s s := ⟨List.prefix_rfl, le_rfl, le_rfl, le_rfl⟩

theorem Later.getElem (later : Later s s') {n : Nat} {config : AppConfig} (found : s.contents[n]? = some config) :
    s'.contents[n]? = some config := by
  obtain ⟨more, whole⟩ := later.contents
  obtain ⟨bound, -⟩ := List.getElem?_eq_some_iff.mp found
  rw [← whole, List.getElem?_append_left bound, found]

theorem At.later {loaded : Loaded} (at_version : At s loaded) (later : Later s s') : At s' loaded := by
  obtain ⟨config, found, same⟩ := at_version
  exact ⟨config, later.getElem found, same⟩

theorem PushedFrom.later {tunable : ConfigSnapshot → UInt64} {pushed : Pushed} (from_ : PushedFrom s tunable pushed)
    (later : Later s s') : PushedFrom s' tunable pushed := by
  obtain ⟨config, found, same⟩ := from_
  exact ⟨config, later.getElem found, same⟩

theorem length_contents (s : Shared) : s.contents.length = s.version + 1 := by
  simp [Shared.contents, Shared.version]

theorem contents_version (s : Shared) : s.contents[s.version]? = some s.config := by
  simp [Shared.contents, Shared.version]

theorem At.bound {loaded : Loaded} (at_version : At s loaded) : loaded.version ≤ s.version := by
  obtain ⟨config, found, -⟩ := at_version
  have bound := (List.getElem?_eq_some_iff.mp found).1
  rw [length_contents] at bound
  omega

theorem at_selected (s : Shared) : At s ⟨s.config.loadSnapshot, s.version⟩ := ⟨s.config, contents_version s, rfl⟩

/-! ## One call -/

/-- The content that the call's statement made. -/
def Wrote (cfg : Config) (s : Shared) (call : Call) (n : Nat) : Prop :=
  call.wrote = some n ∧ ∃ config, s.contents[n]? = some config ∧ config.row call.request.key = call.request.row cfg

def Seals (cfg : Config) (request : Request) (text : String) : Prop :=
  ∃ key value, request = .setSetting key value true ∧ classify cfg.texts value = .plaintext text

def CallInv (cfg : Config) (s : Shared) (call : Call) : Prop :=
  match call.phase with
  | .requireAdmin | .pool | .returned (.error _) => call.wrote = none
  | .listVault text | .writeVault text _ => call.wrote = none ∧ Seals cfg call.request text
  | .upsert value => call.wrote = none ∧ call.request.row cfg = some ⟨value, call.request.isSecret⟩
  | .delete => call.wrote = none ∧ call.request.row cfg = none
  | .select => ∃ n, Wrote cfg s call n
  | .store loaded => ∃ n, Wrote cfg s call n ∧ At s loaded ∧ n ≤ loaded.version
  | .current => ∃ n, Wrote cfg s call n ∧ n ≤ s.resolver.version
  | .pushTimeout loaded => ∃ n, Wrote cfg s call n ∧ n ≤ s.resolver.version ∧ At s loaded ∧ n ≤ loaded.version
  | .pushInterval loaded => ∃ n, Wrote cfg s call n ∧ n ≤ s.resolver.version ∧ n ≤ s.timeout.version ∧
      At s loaded ∧ n ≤ loaded.version
  | .returned (.ok _) => ∃ n, Wrote cfg s call n ∧ n ≤ s.resolver.version ∧ n ≤ s.timeout.version ∧
      n ≤ s.interval.version

theorem Wrote.later {n : Nat} (wrote : Wrote cfg s call n) (later : Later s s') : Wrote cfg s' call n := by
  obtain ⟨own, config, found, row⟩ := wrote
  exact ⟨own, config, later.getElem found, row⟩

theorem CallInv.later (inv : CallInv cfg s call) (later : Later s s') : CallInv cfg s' call := by
  cases at_phase : call.phase with
  | requireAdmin | pool | listVault | writeVault | upsert | delete => simpa only [CallInv, at_phase] using inv
  | select =>
      simp only [CallInv, at_phase] at inv ⊢
      obtain ⟨n, wrote⟩ := inv
      exact ⟨n, wrote.later later⟩
  | store =>
      simp only [CallInv, at_phase] at inv ⊢
      obtain ⟨n, wrote, loaded, since⟩ := inv
      exact ⟨n, wrote.later later, loaded.later later, since⟩
  | current =>
      simp only [CallInv, at_phase] at inv ⊢
      obtain ⟨n, wrote, resolver⟩ := inv
      exact ⟨n, wrote.later later, resolver.trans later.resolver⟩
  | pushTimeout =>
      simp only [CallInv, at_phase] at inv ⊢
      obtain ⟨n, wrote, resolver, loaded, since⟩ := inv
      exact ⟨n, wrote.later later, resolver.trans later.resolver, loaded.later later, since⟩
  | pushInterval =>
      simp only [CallInv, at_phase] at inv ⊢
      obtain ⟨n, wrote, resolver, timeout, loaded, since⟩ := inv
      exact ⟨n, wrote.later later, resolver.trans later.resolver, timeout.trans later.timeout, loaded.later later, since⟩
  | returned result =>
      cases result with
      | error => simpa only [CallInv, at_phase] using inv
      | ok =>
          simp only [CallInv, at_phase] at inv ⊢
          obtain ⟨n, wrote, resolver, timeout, interval⟩ := inv
          exact ⟨n, wrote.later later, resolver.trans later.resolver, timeout.trans later.timeout,
            interval.trans later.interval⟩

theorem firstPhase_inv (call : Call) (unwritten : call.wrote = none) :
    CallInv cfg s { call with phase := call.request.firstPhase cfg } := by
  obtain ⟨request, phase, wrote⟩ := call
  cases request with
  | deleteSetting key => exact ⟨unwritten, rfl⟩
  | setSetting key value isSecret =>
      cases isSecret with
      | false => exact ⟨unwritten, rfl⟩
      | true =>
          simp only [Request.firstPhase]
          cases shape : classify cfg.texts value with
          | plaintext text => exact ⟨unwritten, key, value, rfl, shape⟩
          | reference | cleared => exact ⟨unwritten, by simp [Request.row, shape, Request.isSecret]⟩

theorem Seals.persisted {text : String} (seals : Seals cfg call.request text) (unwritten : call.wrote = none) :
    CallInv cfg s { call with phase := persisted call.request.key } := by
  obtain ⟨key, value, request, shape⟩ := seals
  exact ⟨unwritten, by simp [request, Request.row, shape, Request.isSecret, Request.key]⟩

/-! ## One step -/

theorem Early.unwritten (inv : CallInv cfg s call) (early : Early call.phase) : call.wrote = none := by
  cases at_phase : call.phase <;> rw [at_phase] at early <;> simp only [CallInv, at_phase] at inv <;>
    first | exact inv | exact inv.1 | cases early

theorem pending_row (inv : CallInv cfg s call) {config : AppConfig} {site : String}
    (statement : pending s call = some (config, site)) :
    call.wrote = none ∧ config.row call.request.key = call.request.row cfg := by
  unfold pending at statement
  split at statement
  · rename_i value at_phase
    simp only [CallInv, at_phase] at inv
    cases statement
    exact ⟨inv.1, by rw [row_upsert, if_pos rfl, inv.2]⟩
  · rename_i at_phase
    simp only [CallInv, at_phase] at inv
    cases statement
    exact ⟨inv.1, by rw [row_delete, if_pos rfl, inv.2]⟩
  · cases statement

theorem pending_succeeds {answer : Answer} {config : AppConfig} {site : String}
    (statement : pending s call = some (config, site)) (succeeds : phaseSucceeds call.phase answer = true) :
    answer = .done := by
  unfold pending at statement
  cases at_phase : call.phase <;> rw [at_phase] at statement succeeds <;>
    first | exact beq_iff_eq.mp succeeds | cases statement

theorem Wrote.bound {n : Nat} (wrote : Wrote cfg s call n) : n ≤ s.version := by
  obtain ⟨-, config, found, -⟩ := wrote
  have bound := (List.getElem?_eq_some_iff.mp found).1
  rw [length_contents] at bound
  omega

theorem later_write (s : Shared) (config : AppConfig) : Later s (s.write config) :=
  ⟨List.prefix_append _ _, le_rfl, le_rfl, le_rfl⟩

/-- What a step does to the numbers of the contents: it makes the next one and says so, or none. -/
def Counts (s : Shared) (call : Call) (after : Shared × Call) : Prop :=
  after.2.wrote = some after.1.version ∨ (after.1.version = s.version ∧ after.2.wrote = call.wrote)

structure Stepped (cfg : Config) (s : Shared) (call : Call) (after : Shared × Call) : Prop where
  later : Later s after.1
  counts : Counts s call after
  sharedInv : SharedInv cfg after.1
  callInv : CallInv cfg after.1 after.2

theorem SharedInv.later (inv : SharedInv cfg s) (later : Later s s') (resolver : s'.resolver = s.resolver)
    (timeout : s'.timeout = s.timeout) (interval : s'.interval = s.interval) (guard : s'.guard = s.guard) :
    SharedInv cfg s' where
  resolver := resolver ▸ inv.resolver.later later
  timeout := timeout ▸ inv.timeout.later later
  interval := interval ▸ inv.interval.later later
  guard := by
    rw [guard, timeout]
    exact inv.guard

theorem transition_stepped {answer : Answer} {after : Shared × Call} (inv : SharedInv cfg s) (callInv : CallInv cfg s call)
    (succeeds : phaseSucceeds call.phase answer = true) (inOrder : phaseInOrder s call.phase = true)
    (moved : Transition cfg s call answer after) : Stepped cfg s call after := by
  have same {call' : Call} (wrote : call'.wrote = call.wrote) (next : CallInv cfg s call') : Stepped cfg s call (s, call') :=
    ⟨.refl s, Or.inr ⟨rfl, wrote⟩, inv, next⟩
  have vaulted {vault : Daimon.Vault.Credentials} {call' : Call} (wrote : call'.wrote = call.wrote)
      (next : CallInv cfg { s with vault } call') : Stepped cfg s call ({ s with vault }, call') := by
    have later : Later s { s with vault } := ⟨List.prefix_rfl, le_rfl, le_rfl, le_rfl⟩
    exact ⟨later, Or.inr ⟨rfl, wrote⟩, inv.later later rfl rfl rfl rfl, next⟩
  cases moved with
  | authorized at_phase =>
      simp only [CallInv, at_phase] at callInv
      exact same rfl callInv
  | begun at_phase =>
      simp only [CallInv, at_phase] at callInv
      exact same rfl (firstPhase_inv call callInv)
  | listed at_phase =>
      simp only [CallInv, at_phase] at callInv
      exact same rfl callInv
  | stored at_phase =>
      simp only [CallInv, at_phase] at callInv
      exact vaulted rfl (callInv.2.persisted callInv.1)
  | storedLost at_phase =>
      simp only [CallInv, at_phase] at callInv
      exact vaulted rfl callInv.1
  | refused early =>
      have unwritten : call.wrote = none := Early.unwritten callInv early
      exact same rfl unwritten
  | @executed config site statement =>
      obtain ⟨-, row⟩ := pending_row callInv statement
      have later := later_write s config
      have counted : (s.write config).version = s.version + 1 := by simp [Shared.version, Shared.write]
      have found : (s.write config).contents[s.version + 1]? = some config := counted ▸ contents_version (s.write config)
      exact ⟨later, Or.inl (by rw [counted]), inv.later later rfl rfl rfl rfl, s.version + 1, rfl, config, found, row⟩
  | executedLost statement => cases pending_succeeds statement succeeds
  | rejected statement => cases pending_succeeds statement succeeds
  | selected at_phase =>
      simp only [CallInv, at_phase] at callInv
      obtain ⟨n, wrote⟩ := callInv
      exact same rfl ⟨n, wrote, at_selected s, wrote.bound⟩
  | unselected at_phase =>
      rw [at_phase] at succeeds
      cases succeeds
  | @swapped loaded at_phase =>
      simp only [CallInv, at_phase] at callInv
      obtain ⟨n, wrote, at_loaded, since⟩ := callInv
      simp only [phaseInOrder, at_phase, decide_eq_true_eq] at inOrder
      have later : Later s { s with resolver := loaded } := ⟨List.prefix_rfl, inOrder, le_rfl, le_rfl⟩
      exact ⟨later, Or.inr ⟨rfl, rfl⟩,
        ⟨at_loaded.later later, inv.timeout.later later, inv.interval.later later, inv.guard⟩,
        n, wrote.later later, since⟩
  | read at_phase =>
      simp only [CallInv, at_phase] at callInv
      obtain ⟨n, wrote, resolver⟩ := callInv
      exact same rfl ⟨n, wrote, resolver, inv.resolver, resolver⟩
  | @timeoutPushed loaded at_phase =>
      simp only [CallInv, at_phase] at callInv
      obtain ⟨n, wrote, resolver, ⟨config, found, snapshot⟩, since⟩ := callInv
      simp only [phaseInOrder, at_phase, decide_eq_true_eq] at inOrder
      let pushed : Shared := { s with
        timeout := ⟨approvalTimeout cfg.env loaded.snapshot, loaded.version⟩
        guard := s.guard.map (setApprovalTimeoutSecs (approvalTimeout cfg.env loaded.snapshot)) }
      have later : Later s pushed := ⟨List.prefix_rfl, le_rfl, inOrder, le_rfl⟩
      refine ⟨later, Or.inr ⟨rfl, rfl⟩, ⟨inv.resolver.later later, ⟨config, found, by rw [snapshot]⟩,
        inv.interval.later later, ?_⟩, n, wrote.later later, resolver, since, ⟨config, found, snapshot⟩, since⟩
      intro secs guarded positive
      obtain ⟨inForce, -, rfl⟩ := Option.map_eq_some_iff.mp guarded
      exact if_pos positive
  | @intervalPushed loaded at_phase =>
      simp only [CallInv, at_phase] at callInv
      obtain ⟨n, wrote, resolver, timeout, ⟨config, found, snapshot⟩, since⟩ := callInv
      simp only [phaseInOrder, at_phase, decide_eq_true_eq] at inOrder
      let pushed : Shared :=
        { s with interval := ⟨observerInterval cfg.env loaded.snapshot, loaded.version⟩ }
      have later : Later s pushed := ⟨List.prefix_rfl, le_rfl, le_rfl, inOrder⟩
      exact ⟨later, Or.inr ⟨rfl, rfl⟩, ⟨inv.resolver.later later, inv.timeout.later later,
        ⟨config, found, by rw [snapshot]⟩, inv.guard⟩, n, wrote.later later, resolver, timeout, since⟩

/-! ## The run -/

structure WorldInv (cfg : Config) (w : World) : Prop where
  shared : SharedInv cfg w.shared
  calls : ∀ call ∈ w.calls, CallInv cfg w.shared call
  latest : 0 < w.shared.version → ∃ call ∈ w.calls, call.wrote = some w.shared.version

theorem WorldInv.boot (config : AppConfig) (vault : Daimon.Vault.Credentials) (guarded : Bool) :
    WorldInv cfg (.boot cfg config vault guarded) where
  shared := by
    refine ⟨⟨config, rfl, rfl⟩, ⟨config, rfl, rfl⟩, ⟨config, rfl, rfl⟩, ?_⟩
    intro secs inForce positive
    simp only [World.boot] at inForce positive
    split at inForce
    · rw [setApprovalTimeoutSecs, if_pos positive] at inForce
      exact (Option.some.inj inForce).symm
    · cases inForce
  calls := by simp [World.boot]
  latest := by simp [World.boot, Shared.version]

theorem WorldInv.step {w w' : World} {action : Action} (inv : WorldInv cfg w) (succeeds : Succeeds w action)
    (inOrder : InOrder w action) (moved : step cfg w action = some w') : WorldInv cfg w' := by
  cases action with
  | call request =>
      cases moved
      refine ⟨inv.shared, ?_, fun written => ?_⟩
      · intro call member
        rcases List.mem_append.mp member with old | new
        · exact inv.calls call old
        · rw [List.mem_singleton.mp new]
          exact rfl
      · obtain ⟨call, member, wrote⟩ := inv.latest written
        exact ⟨call, List.mem_append_left _ member, wrote⟩
  | advance i answer =>
      obtain ⟨⟨shared, call'⟩, taken, rfl⟩ := Option.map_eq_some_iff.mp moved
      obtain ⟨call, at_i, advanced⟩ := Option.bind_eq_some_iff.mp taken
      have bound := (List.getElem?_eq_some_iff.mp at_i).1
      simp only [Succeeds, at_i, Option.all_some] at succeeds
      simp only [InOrder, at_i, Option.all_some] at inOrder
      obtain ⟨later, counts, sharedInv, callInv⟩ := transition_stepped inv.shared
        (inv.calls call (List.mem_of_getElem? at_i)) succeeds inOrder (advance_transition advanced)
      have own : call' ∈ w.calls.set i call' := List.mem_set bound _
      refine ⟨sharedInv, ?_, ?_⟩
      · intro other member
        rcases List.mem_or_eq_of_mem_set member with old | rfl
        · exact (inv.calls other old).later later
        · exact callInv
      · intro written
        rcases counts with wrote | ⟨same, wrote⟩
        · exact ⟨call', own, wrote⟩
        · rw [same] at written ⊢
          obtain ⟨other, member, latest⟩ := inv.latest written
          obtain ⟨j, at_j⟩ := List.mem_iff_getElem?.mp member
          by_cases moving : i = j
          · subst moving
            cases at_i.symm.trans at_j
            exact ⟨call', own, wrote.trans latest⟩
          · exact ⟨other, List.mem_of_getElem? ((List.getElem?_set_ne moving).trans at_j), latest⟩

/-- The snapshot, the tunables and, unless it is zero, the approval timeout in force are those of the table. -/
structure Live (cfg : Config) (s : Shared) : Prop where
  snapshot : s.resolver.snapshot = s.config.loadSnapshot
  timeout : s.timeout.value = approvalTimeout cfg.env s.config.loadSnapshot
  interval : s.interval.value = observerInterval cfg.env s.config.loadSnapshot
  guard : ∀ secs, s.guard = some secs → 0 < approvalTimeout cfg.env s.config.loadSnapshot →
    secs = approvalTimeout cfg.env s.config.loadSnapshot

theorem config_of_latest {n : Nat} {config : AppConfig} (found : s.contents[n]? = some config) (latest : s.version ≤ n) :
    config = s.config := by
  have bound := (List.getElem?_eq_some_iff.mp found).1
  rw [length_contents] at bound
  obtain rfl : n = s.version := by omega
  exact Option.some.inj (found.symm.trans (contents_version s))

theorem WorldInv.live {w : World} (inv : WorldInv cfg w)
    (returned : ∀ call ∈ w.calls, ∃ result, call.phase = .returned result) : Live cfg w.shared := by
  -- The call that made the latest content has seen it through, if there is one.
  have latest : w.shared.version ≤ w.shared.resolver.version ∧ w.shared.version ≤ w.shared.timeout.version ∧
      w.shared.version ≤ w.shared.interval.version := by
    rcases Nat.eq_zero_or_pos w.shared.version with none | written
    · simp [none]
    · obtain ⟨call, member, wrote⟩ := inv.latest written
      obtain ⟨result, at_phase⟩ := returned call member
      have callInv := inv.calls call member
      simp only [CallInv, at_phase] at callInv
      cases result with
      | error e => cases wrote.symm.trans callInv
      | ok =>
          obtain ⟨n, ⟨own, -⟩, resolver, timeout, interval⟩ := callInv
          obtain rfl := Option.some.inj (own.symm.trans wrote)
          exact ⟨resolver, timeout, interval⟩
  obtain ⟨fromResolver, fromTimeout, fromInterval⟩ := latest
  obtain ⟨config, found, snapshot⟩ := inv.shared.resolver
  obtain ⟨config', found', timeout⟩ := inv.shared.timeout
  obtain ⟨config'', found'', interval⟩ := inv.shared.interval
  rw [config_of_latest found fromResolver] at snapshot
  rw [config_of_latest found' fromTimeout] at timeout
  rw [config_of_latest found'' fromInterval] at interval
  exact ⟨snapshot, timeout, interval, by rw [← timeout]; exact inv.shared.guard⟩

theorem settings_live (cfg : Config) (config : AppConfig) (vault : Daimon.Vault.Credentials) (guarded : Bool)
    (actions : List Action) (succeed : AllSteps (step cfg) Succeeds (.boot cfg config vault guarded) actions)
    (inOrder : AllSteps (step cfg) InOrder (.boot cfg config vault guarded) actions) (w : World)
    (reached : run (step cfg) (.boot cfg config vault guarded) actions = some w) :
    ((∀ call ∈ w.calls, ∃ result, call.phase = .returned result) → Live cfg w.shared) ∧
    ∀ call ∈ w.calls, call.phase = .returned (.ok ()) → ∃ n, Wrote cfg w.shared call n ∧
      ∃ m ≥ n, ∃ later, w.shared.contents[m]? = some later ∧ w.shared.resolver.snapshot = later.loadSnapshot := by
  have inv : WorldInv cfg w :=
    invariant_of_allSteps (fun _ _ _ met inv moved => inv.step met.1 met.2 moved) (succeed.and inOrder)
      (WorldInv.boot config vault guarded) reached
  refine ⟨inv.live, ?_⟩
  intro call member returned
  have callInv := inv.calls call member
  simp only [CallInv, returned] at callInv
  obtain ⟨n, wrote, resolver, -⟩ := callInv
  obtain ⟨later, found, snapshot⟩ := inv.shared.resolver
  exact ⟨n, wrote, w.shared.resolver.version, resolver, later, found, snapshot⟩

/-! ## Two writers of one key -/

def pollInterval (secs : UInt64) : Request := .setSetting "observer.prom_poll_interval_secs" (.number (.posInt secs)) false

def twoWriters (rest : List Action) : List Action := [.call (pollInterval 10), .call (pollInterval 20)] ++ rest

def oneByOne : List Action :=
  twoWriters (List.replicate 8 (.advance 0 .done) ++ List.replicate 8 (.advance 1 .done))

theorem settings_live_one_by_one :
    ∃ w, run (step sampleConfig) (.boot sampleConfig ⟨[], by decide⟩ .empty true) oneByOne = some w ∧
      Live sampleConfig w.shared := by
  have ran : (run (step sampleConfig) (.boot sampleConfig ⟨[], by decide⟩ .empty true) oneByOne).map
      (fun w => w.calls.map Call.phase) = some [.returned (.ok ()), .returned (.ok ())] := by
    decide +kernel
  obtain ⟨w, reached, phases⟩ := Option.map_eq_some_iff.mp ran
  obtain ⟨live, -⟩ := settings_live sampleConfig ⟨[], by decide⟩ .empty true oneByOne (by decide +kernel)
    (by decide +kernel) w reached
  refine ⟨w, reached, live ?_⟩
  intro call member
  have returned := List.mem_map_of_mem (f := Call.phase) member
  rw [phases] at returned
  simp only [List.mem_cons, List.not_mem_nil, or_false, or_self] at returned
  exact ⟨_, returned⟩

/-- The first call selects before the second writes, and swaps in what it selected after the second has returned. -/
def overtaken : List Action :=
  twoWriters (List.replicate 4 (.advance 0 .done) ++ List.replicate 8 (.advance 1 .done) ++
    List.replicate 4 (.advance 0 .done))

theorem overtaken_setting_stale :
    ∃ w, run (step sampleConfig) (.boot sampleConfig ⟨[], by decide⟩ .empty true) overtaken = some w ∧
      AllSteps (step sampleConfig) Succeeds (.boot sampleConfig ⟨[], by decide⟩ .empty true) overtaken ∧
      w.calls.map Call.phase = [.returned (.ok ()), .returned (.ok ())] ∧
      w.shared.config.loadSnapshot.map = [("observer.prom_poll_interval_secs", .number (.posInt 20))] ∧
      w.shared.resolver.snapshot.map = [("observer.prom_poll_interval_secs", .number (.posInt 10))] ∧
      w.shared.interval.value = 10 := by
  have ran : (run (step sampleConfig) (.boot sampleConfig ⟨[], by decide⟩ .empty true) overtaken).map (fun w =>
      (w.calls.map Call.phase, w.shared.config.loadSnapshot.map, w.shared.resolver.snapshot.map,
        w.shared.interval.value)) =
      some ([.returned (.ok ()), .returned (.ok ())],
        [("observer.prom_poll_interval_secs", .number (.posInt 20))],
        [("observer.prom_poll_interval_secs", .number (.posInt 10))], 10) := by
    decide +kernel
  obtain ⟨w, reached, left⟩ := Option.map_eq_some_iff.mp ran
  simp only [Prod.mk.injEq] at left
  exact ⟨w, reached, by decide +kernel, left⟩

end Daimon.Proof.App.Settings
