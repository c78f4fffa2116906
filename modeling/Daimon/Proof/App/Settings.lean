import Daimon.App.Settings
import Daimon.Proof.Vault.References

/-!
# What one step of a settings call can do

The ways through a phase of `set_setting` and `delete_setting`, and what the vault makes of the statement on it.
-/

namespace Daimon.Proof.App.Settings
open Daimon.Core Lib Daimon.App.Settings
open Daimon.App (resolveVaultApiToken)
open Daimon.Vault (Credentials CredentialRow Mutation create reveal)

variable {cfg : Config} {s : Shared} {call : Call}

/-! ## Rows of the table -/

theorem row_delete (t : AppConfig) (key other : String) :
    (t.delete key).row other = if other = key then none else t.row other := by
  obtain ⟨rows, keys⟩ := t
  simp only [AppConfig.row, AppConfig.delete]
  clear keys
  induction rows with
  | nil => simp
  | cons entry rows ih =>
      by_cases dropped : entry.1 = key
      · rw [List.filter_cons_of_neg (by simp [dropped]), ih, List.lookup_cons]
        by_cases same : other = key
        · rw [if_pos same, if_pos same]
        · rw [if_neg same, if_neg same, beq_false_of_ne (dropped ▸ same)]
      · rw [List.filter_cons_of_pos (by simp [dropped]), List.lookup_cons, List.lookup_cons, ih]
        by_cases same : other = entry.1
        · simp [same, dropped]
        · rw [beq_false_of_ne same]

theorem row_upsert (t : AppConfig) (key other : String) (row : ConfigRow) :
    (t.upsert key row).row other = if other = key then some row else t.row other := by
  rw [AppConfig.row, AppConfig.upsert, List.lookup_cons]
  by_cases same : other = key
  · simp [same]
  · rw [beq_false_of_ne same, if_neg same]
    exact (row_delete t key other).trans (if_neg same)

/-! ## The vault's statement -/

inductive Written (t : Credentials) (name plaintext : String) : Option Uuid → Credentials → Prop
  | updated {id : Uuid} {t' : Credentials}
      (executed : (Mutation.update id (.apiToken plaintext)).execute t = .ok t') : Written t name plaintext (some id) t'
  | created {id : Uuid} {t' : Credentials}
      (inserted : create t id name (.apiToken plaintext) = .ok t') : Written t name plaintext none t'

def token : Daimon.Broker.Credential → Option String
  | .apiToken text => some text
  | _ => none

theorem resolve_eq (collation : String → String → Bool) (t : Credentials) (name : String) :
    resolveVaultApiToken collation t name = (t.byName name).bind fun row => token row.payload := by
  rw [resolveVaultApiToken, Daimon.Proof.Vault.findMetadata_eq]
  cases found : t.byName name with
  | none => rfl
  | some row =>
      have member := (Daimon.Proof.Vault.byName_eq_some.mp found).1
      have revealed : t.byId row.id = some row := (find?_key_eq_some t.ids).mpr ⟨member, rfl⟩
      simp only [reveal, revealed, Option.bind_some]
      cases row.payload <;> rfl

theorem byName_setPayload (t : Credentials) (id : Uuid) (cred : Daimon.Broker.Credential) (name : String) :
    (t.setPayload id cred).byName name =
      (t.byName name).map fun row => if row.id = id then { row with kind := cred.kind, payload := cred } else row := by
  apply find?_map_of_key
  intro row
  split <;> rfl

theorem byName_create {t t' : Credentials} {id : Uuid} {name : String} {cred : Daimon.Broker.Credential}
    (made : create t id name cred = .ok t') (other : String) :
    t'.byName other = if other = name then some ⟨id, name, cred.kind, cred⟩ else t.byName other := by
  by_cases same : other = name
  · rw [if_pos same, same]
    exact Daimon.Proof.Vault.created made
  · rw [if_neg same, Credentials.byName, Daimon.Proof.Vault.rows_of_create made]
    exact List.find?_cons_of_neg (by simpa using Ne.symm same)

/-- The name gets the text, and every other name keeps what it resolved to. -/
theorem Written.resolve {t t' : Credentials} {name plaintext : String} {existing : Option Uuid}
    (written : Written t name plaintext existing t') (found : existing = (t.byName name).map CredentialRow.id)
    (collation : String → String → Bool) (other : String) :
    resolveVaultApiToken collation t' other =
      if other = name then some plaintext else resolveVaultApiToken collation t other := by
  rw [resolve_eq, resolve_eq]
  cases written with
  | created inserted =>
      rw [byName_create inserted]
      split <;> rfl
  | @updated id t' executed =>
      obtain ⟨row, at_name, rfl⟩ := Option.map_eq_some_iff.mp found.symm
      obtain ⟨member, named⟩ := Daimon.Proof.Vault.byName_eq_some.mp at_name
      have written : t' = t.setPayload row.id (.apiToken plaintext) := by
        unfold Mutation.execute at executed
        split at executed
        · cases executed
        · exact (Except.ok.inj executed).symm
      rw [written, byName_setPayload]
      split
      · rename_i same
        simp [same, at_name, token]
      · rename_i differs
        cases at_other : t.byName other with
        | none => rfl
        | some row' =>
            obtain ⟨member', named'⟩ := Daimon.Proof.Vault.byName_eq_some.mp at_other
            have untouched : row'.id ≠ row.id := by
              intro same
              have same := Daimon.Proof.Vault.row_eq_of_id member' member same
              exact differs (named'.symm.trans (same ▸ named))
            simp [untouched]

/-! ## One step -/

def Early : Phase → Prop
  | .requireAdmin | .pool | .listVault _ | .writeVault _ _ => True
  | _ => False

/-- The statement that the call is about to run on the table, and what its errors start with. -/
def pending (s : Shared) (call : Call) : Option (AppConfig × String) :=
  match call.phase with
  | .upsert value => some (s.config.upsert call.request.key ⟨value, call.request.isSecret⟩, "upsert: ")
  | .delete => some (s.config.delete call.request.key, "delete: ")
  | _ => none

variable (cfg) in
inductive Transition (s : Shared) (call : Call) : Answer → Shared × Call → Prop where
  | authorized (at_phase : call.phase = .requireAdmin) :
      Transition s call .done (s, { call with phase := .pool })
  | begun (at_phase : call.phase = .pool) :
      Transition s call .done (s, { call with phase := call.request.firstPhase cfg })
  | listed {plaintext : String} (at_phase : call.phase = .listVault plaintext) :
      Transition s call .done (s, { call with
        phase := .writeVault plaintext ((s.vault.byName (vaultName call.request.key)).map CredentialRow.id) })
  | stored {plaintext : String} {existing : Option Uuid} {vault : Credentials} {answer : Answer}
      (at_phase : call.phase = .writeVault plaintext existing)
      (written : Written s.vault (vaultName call.request.key) plaintext existing vault) :
      Transition s call answer ({ s with vault }, { call with phase := persisted call.request.key })
  | storedLost {plaintext : String} {existing : Option Uuid} {vault : Credentials} {answer : Answer} {e : String}
      (at_phase : call.phase = .writeVault plaintext existing)
      (written : Written s.vault (vaultName call.request.key) plaintext existing vault) (lost : answer.isLost = true) :
      Transition s call answer ({ s with vault }, { call with phase := .returned (.error e) })
  | refused {answer : Answer} {e : String} (at_phase : Early call.phase) :
      Transition s call answer (s, { call with phase := .returned (.error e) })
  | executed {config : AppConfig} {site : String} (statement : pending s call = some (config, site)) :
      Transition s call .done (s.write config, { call with phase := .select, wrote := some (s.version + 1) })
  | executedLost {config : AppConfig} {site e : String} (statement : pending s call = some (config, site)) :
      Transition s call (.lost e)
        (s.write config, { call with phase := .returned (.error (site ++ e)), wrote := some (s.version + 1) })
  | rejected {config : AppConfig} {site e : String} (statement : pending s call = some (config, site)) :
      Transition s call (.failed e) (s, { call with phase := .returned (.error (site ++ e)) })
  | selected (at_phase : call.phase = .select) :
      Transition s call .done (s, { call with phase := .store ⟨s.config.loadSnapshot, s.version⟩ })
  | unselected {e : String} (at_phase : call.phase = .select) :
      Transition s call (.failed e) (s, { call with phase := .current })
  | swapped {loaded : Loaded} (at_phase : call.phase = .store loaded) :
      Transition s call .done ({ s with resolver := loaded }, { call with phase := .current })
  | read (at_phase : call.phase = .current) :
      Transition s call .done (s, { call with phase := .pushTimeout s.resolver })
  | timeoutPushed {loaded : Loaded} (at_phase : call.phase = .pushTimeout loaded) :
      Transition s call .done
        ({ s with
            timeout := ⟨approvalTimeout cfg.env loaded.snapshot, loaded.version⟩
            guard := s.guard.map (setApprovalTimeoutSecs (approvalTimeout cfg.env loaded.snapshot)) },
          { call with phase := .pushInterval loaded })
  | intervalPushed {loaded : Loaded} (at_phase : call.phase = .pushInterval loaded) :
      Transition s call .done
        ({ s with interval := ⟨observerInterval cfg.env loaded.snapshot, loaded.version⟩ },
          { call with phase := .returned (.ok ()) })

theorem advance_transition {answer : Answer} {after : Shared × Call}
    (moved : advance cfg s call answer = some after) : Transition cfg s call answer after := by
  have early {phase : Phase} (at_phase : call.phase = phase) (isEarly : Early phase) : Early call.phase := by
    rw [at_phase]
    exact isEarly
  have vaulted {plaintext : String} {existing : Option Uuid} {lost : Option String} {answer : Answer}
      {result : Except Daimon.Broker.VaultError Credentials} (at_phase : call.phase = .writeVault plaintext existing)
      (written : ∀ vault, result = .ok vault → Written s.vault (vaultName call.request.key) plaintext existing vault)
      (isLost : answer.isLost = lost.isSome) : Transition cfg s call answer (afterVault cfg s call lost result) := by
    cases result with
    | error e => exact .refused (early at_phase trivial)
    | ok vault =>
        cases lost with
        | none => exact .stored at_phase (written vault rfl)
        | some e => exact .storedLost at_phase (written vault rfl) isLost
  unfold advance at moved
  cases at_phase : call.phase <;> cases answer <;> simp only [at_phase, Option.some.injEq, reduceCtorEq] at moved
  case requireAdmin.done => exact moved ▸ .authorized at_phase
  case pool.done => exact moved ▸ .begun at_phase
  case listVault.done =>
    rw [Daimon.Proof.Vault.findMetadata_eq] at moved
    exact moved ▸ .listed at_phase
  case writeVault.done plaintext existing =>
    cases existing <;> simp only [Option.some.injEq, reduceCtorEq] at moved
    exact moved ▸ vaulted at_phase (fun _ executed => .updated executed) rfl
  case writeVault.lost plaintext existing e =>
    cases existing <;> simp only [Option.some.injEq, reduceCtorEq] at moved
    exact moved ▸ vaulted at_phase (fun _ executed => .updated executed) rfl
  case writeVault.inserted plaintext existing id =>
    cases existing <;> simp only [Option.some.injEq, reduceCtorEq] at moved
    exact moved ▸ vaulted at_phase (fun _ inserted => .created inserted) rfl
  case writeVault.insertedLost plaintext existing id e =>
    cases existing <;> simp only [Option.some.injEq, reduceCtorEq] at moved
    exact moved ▸ vaulted at_phase (fun _ inserted => .created inserted) rfl
  case upsert.done => exact moved ▸ .executed (by rw [pending, at_phase])
  case upsert.lost => exact moved ▸ .executedLost (by rw [pending, at_phase])
  case upsert.failed => exact moved ▸ .rejected (by rw [pending, at_phase])
  case delete.done => exact moved ▸ .executed (by rw [pending, at_phase])
  case delete.lost => exact moved ▸ .executedLost (by rw [pending, at_phase])
  case delete.failed => exact moved ▸ .rejected (by rw [pending, at_phase])
  case select.done => exact moved ▸ .selected at_phase
  case select.failed => exact moved ▸ .unselected at_phase
  case store.done => exact moved ▸ .swapped at_phase
  case current.done => exact moved ▸ .read at_phase
  case pushTimeout.done => exact moved ▸ .timeoutPushed at_phase
  case pushInterval.done => exact moved ▸ .intervalPushed at_phase
  all_goals exact moved ▸ .refused (early at_phase trivial)

end Daimon.Proof.App.Settings
