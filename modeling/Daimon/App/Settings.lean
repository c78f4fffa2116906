import Daimon.App.SecretResolve
import Daimon.Broker.Execute

/-!
# Settings

`set_setting` and `delete_setting` (`daimon-app/src/admin_settings.rs`) with the resolver that holds the loaded
settings (`daimon-app/src/config.rs`) and the tunables pushed from it (`daimon-app/src/state.rs`). Any number of calls,
interleaved: each statement, each swap of the snapshot and each push of a tunable is one step, and anything may happen
between two of them. The audit event of a write is left out; its outcome is ignored.
-/

namespace Daimon.App.Settings
open Daimon.Core Daimon.Broker Daimon.Vault Lib

/-! ## The table -/

structure ConfigRow where
  value : Json
  isSecret : Bool
  deriving DecidableEq

/-- `public.app_config`. The key is the primary key. -/
structure AppConfig where
  rows : List (String × ConfigRow)
  keys : (rows.map Prod.fst).Nodup
  deriving DecidableEq

namespace AppConfig

def row (t : AppConfig) (key : String) : Option ConfigRow := t.rows.lookup key

def delete (t : AppConfig) (key : String) : AppConfig where
  rows := t.rows.filter fun entry => entry.1 ≠ key
  keys := t.keys.sublist (List.filter_sublist.map _)

def upsert (t : AppConfig) (key : String) (row : ConfigRow) : AppConfig where
  rows := (key, row) :: (t.delete key).rows
  keys := by
    refine List.nodup_cons.mpr ⟨?_, (t.delete key).keys⟩
    simp [delete]

end AppConfig

/-! ## The resolver -/

structure ConfigSnapshot where
  map : List (String × Json)
  deriving DecidableEq

/-- `SELECT key, value FROM public.app_config`. -/
def AppConfig.loadSnapshot (t : AppConfig) : ConfigSnapshot := ⟨t.rows.map fun entry => (entry.1, entry.2.value)⟩

/-- `str::parse::<u64>`. -/
def parseU64 (text : String) : Option UInt64 :=
  let cs := if text.toList.head? = some '+' then text.toList.tail else text.toList
  match Semver.digits? cs with
  | some n => if n < 0x10000000000000000 then some (.ofNat n) else none
  | none => none

def ConfigSnapshot.u64 (s : ConfigSnapshot) (env : String → Option String) (key envKey : String) (default : UInt64) :
    UInt64 :=
  let stored := (s.map.lookup key).bind fun v => v.asU64?.or (v.asStr?.bind parseU64)
  (stored.or ((env envKey).bind parseU64)).getD default

def defaultApprovalTimeoutSecs : UInt64 := 300

def approvalTimeout (env : String → Option String) (s : ConfigSnapshot) : UInt64 :=
  s.u64 env "guard.approval_timeout_secs" "DAIMON_APPROVAL_TIMEOUT_SECS" defaultApprovalTimeoutSecs

def observerInterval (env : String → Option String) (s : ConfigSnapshot) : UInt64 :=
  s.u64 env "observer.prom_poll_interval_secs" "DAIMON_PROM_POLL_INTERVAL_SECS" 30

/-- A zero is ignored. -/
def setApprovalTimeoutSecs (secs inForce : UInt64) : UInt64 := if 0 < secs then secs else inForce

/-! ## Secrets -/

/-- Texts made elsewhere: `serde_json` numbers and `Display` of a broker error. -/
structure Texts where
  number : Number → String
  brokerError : BrokerError → String

def secretText (texts : Texts) : Json → Option String
  | .string s => some s
  | .number n => some (texts.number n)
  | .bool b => some (if b then "true" else "false")
  | _ => none

def vaultName (key : String) : String := "settings." ++ key

inductive Secret where
  | reference (text : String)
  | plaintext (text : String)
  | cleared
  deriving DecidableEq

def classify (texts : Texts) (value : Json) : Secret :=
  match secretText texts value with
  | some text =>
      if "vault://".toList <+: text.toList then .reference text
      else if text ≠ "" then .plaintext text else .cleared
  | none => .cleared

/-! ## One call -/

inductive Request where
  | setSetting (key : String) (value : Json) (isSecret : Bool)
  | deleteSetting (key : String)
  deriving DecidableEq

/-- `version` is the place of the rows among the contents that the table has had. -/
structure Loaded where
  snapshot : ConfigSnapshot
  version : Nat
  deriving DecidableEq

inductive Phase where
  | requireAdmin
  | pool
  | listVault (plaintext : String)
  | writeVault (plaintext : String) (existing : Option Uuid)
  | upsert (persistValue : Json)
  | delete
  | select
  | store (loaded : Loaded)
  | current
  | pushTimeout (loaded : Loaded)
  | pushInterval (loaded : Loaded)
  | returned (result : Except String Unit)
  deriving DecidableEq

/-- `wrote` is the version that the call's own statement made. -/
structure Call where
  request : Request
  phase : Phase
  wrote : Option Nat
  deriving DecidableEq

def Call.new (request : Request) : Call := { request, phase := .requireAdmin, wrote := none }

/-- What a call goes on with. Where an answer is lost, the statement took effect and the call learns an error. -/
inductive Answer where
  | done
  | inserted (id : Uuid)
  | failed (error : String)
  | lost (error : String)
  | insertedLost (id : Uuid) (error : String)
  deriving DecidableEq

def Answer.isLost : Answer → Bool
  | .lost _ | .insertedLost _ _ => true
  | _ => false

/-- The value last pushed, and the version of the snapshot that it came from. -/
structure Pushed where
  value : UInt64
  version : Nat
  deriving DecidableEq

/-- What the calls share. `past` holds the contents that the table had before, oldest first, and `guard` the approval
timeout in force, where the broker has a guard. -/
structure Shared where
  past : List AppConfig
  config : AppConfig
  vault : Credentials
  resolver : Loaded
  timeout : Pushed
  interval : Pushed
  guard : Option UInt64

namespace Shared

def version (s : Shared) : Nat := s.past.length

def contents (s : Shared) : List AppConfig := s.past ++ [s.config]

def write (s : Shared) (config : AppConfig) : Shared := { s with past := s.past ++ [s.config], config }

end Shared

structure Config where
  texts : Texts
  env : String → Option String
  collation : String → String → Bool

variable (cfg : Config)

def Request.firstPhase : Request → Phase
  | .setSetting _ value true =>
      match classify cfg.texts value with
      | .reference text => .upsert (.string text)
      | .plaintext text => .listVault text
      | .cleared => .upsert (.string "")
  | .setSetting _ value false => .upsert value
  | .deleteSetting _ => .delete

def Request.key : Request → String
  | .setSetting key _ _ => key
  | .deleteSetting key => key

def Request.isSecret : Request → Bool
  | .setSetting _ _ isSecret => isSecret
  | .deleteSetting _ => false

/-- The row that the call leaves the key with. -/
def Request.row : Request → Option ConfigRow
  | .setSetting key value true =>
      let persistValue := match classify cfg.texts value with
        | .reference text => text
        | .plaintext _ => "vault://" ++ vaultName key
        | .cleared => ""
      some ⟨.string persistValue, true⟩
  | .setSetting _ value false => some ⟨value, false⟩
  | .deleteSetting _ => none

def vaultError (message : String) : Except String Unit := .error ("vault store: " ++ message)

/-- The reference that the table gets once the vault has the plaintext. -/
def persisted (key : String) : Phase := .upsert (.string ("vault://" ++ vaultName key))

/-- Once the vault has run the statement: what it made of its table, and the error where its answer was lost. -/
def afterVault (s : Shared) (call : Call) (lost : Option String) : Except VaultError Credentials → Shared × Call
  | .error e => (s, { call with phase := .returned (vaultError (lost.getD (cfg.texts.brokerError (.vault e)))) })
  | .ok vault =>
      match lost with
      | none => ({ s with vault }, { call with phase := persisted call.request.key })
      | some e => ({ s with vault }, { call with phase := .returned (vaultError e) })

def afterStatement (s : Shared) (call : Call) (config : AppConfig) (lost : Option String) : Shared × Call :=
  let phase : Phase := match lost with
    | none => .select
    | some error => .returned (.error error)
  (s.write config, { call with phase, wrote := some (s.version + 1) })

def advance (s : Shared) (call : Call) (answer : Answer) : Option (Shared × Call) :=
  let key := call.request.key
  let goTo (phase : Phase) : Option (Shared × Call) := some (s, { call with phase })
  match call.phase, answer with
  | .requireAdmin, .done => goTo .pool
  | .requireAdmin, .failed e => goTo (.returned (.error e))
  | .pool, .done => goTo (call.request.firstPhase cfg)
  | .pool, .failed e => goTo (.returned (.error ("pool: " ++ e)))
  | .listVault plaintext, .done =>
      goTo (.writeVault plaintext ((findMetadata cfg.collation s.vault (vaultName key)).map CredentialRow.id))
  | .listVault _, .failed e => goTo (.returned (vaultError e))
  | .writeVault plaintext (some id), .done =>
      some (afterVault cfg s call none ((Mutation.update id (.apiToken plaintext)).execute s.vault))
  | .writeVault plaintext (some id), .lost e =>
      some (afterVault cfg s call (some e) ((Mutation.update id (.apiToken plaintext)).execute s.vault))
  | .writeVault plaintext none, .inserted id =>
      some (afterVault cfg s call none (Vault.create s.vault id (vaultName key) (.apiToken plaintext)))
  | .writeVault plaintext none, .insertedLost id e =>
      some (afterVault cfg s call (some e) (Vault.create s.vault id (vaultName key) (.apiToken plaintext)))
  | .writeVault _ _, .failed e => goTo (.returned (vaultError e))
  | .upsert value, .done => some (afterStatement s call (s.config.upsert key ⟨value, call.request.isSecret⟩) none)
  | .upsert value, .lost e =>
      some (afterStatement s call (s.config.upsert key ⟨value, call.request.isSecret⟩) (some ("upsert: " ++ e)))
  | .upsert _, .failed e => goTo (.returned (.error ("upsert: " ++ e)))
  | .delete, .done => some (afterStatement s call (s.config.delete key) none)
  | .delete, .lost e => some (afterStatement s call (s.config.delete key) (some ("delete: " ++ e)))
  | .delete, .failed e => goTo (.returned (.error ("delete: " ++ e)))
  | .select, .done => goTo (.store ⟨s.config.loadSnapshot, s.version⟩)
  -- A reload that fails is logged, and the tunables are pushed from the snapshot that stands.
  | .select, .failed _ => goTo .current
  | .store loaded, .done => some ({ s with resolver := loaded }, { call with phase := .current })
  | .current, .done => goTo (.pushTimeout s.resolver)
  | .pushTimeout loaded, .done =>
      let secs := approvalTimeout cfg.env loaded.snapshot
      some ({ s with timeout := ⟨secs, loaded.version⟩, guard := s.guard.map (setApprovalTimeoutSecs secs) },
        { call with phase := .pushInterval loaded })
  | .pushInterval loaded, .done =>
      some ({ s with interval := ⟨observerInterval cfg.env loaded.snapshot, loaded.version⟩ },
        { call with phase := .returned (.ok ()) })
  | _, _ => none

/-! ## All calls -/

structure World where
  shared : Shared
  calls : List Call

/-- After boot: the snapshot is loaded, and the tunables are pushed from it. -/
def World.boot (config : AppConfig) (vault : Credentials) (guarded : Bool) : World where
  shared := {
    past := [], config, vault
    resolver := ⟨config.loadSnapshot, 0⟩
    timeout := ⟨approvalTimeout cfg.env config.loadSnapshot, 0⟩
    interval := ⟨observerInterval cfg.env config.loadSnapshot, 0⟩
    guard :=
      if guarded then
        some (setApprovalTimeoutSecs (approvalTimeout cfg.env config.loadSnapshot) defaultApprovalTimeoutSecs)
      else none }
  calls := []

inductive Action where
  | call (request : Request)
  | advance (i : Nat) (answer : Answer)
  deriving DecidableEq

def step (w : World) : Action → Option World
  | .call request => some { w with calls := w.calls ++ [.new request] }
  | .advance i answer =>
      (w.calls[i]?.bind fun call => advance cfg w.shared call answer).map fun (shared, call) =>
        { shared, calls := w.calls.set i call }

end Daimon.App.Settings
