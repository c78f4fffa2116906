import Daimon.Broker.Audited
import Daimon.Vault.Client

/-!
# The broker over its vault

`Broker::execute` with the inventory that it reads and the `PostgresVaultClient` that it asks. Other users of the client
and administrators of the inventory act between any two steps.
-/

namespace Daimon.Broker.Resolving
open Daimon.Core Lib

structure World where
  audited : Audited.World
  vault : Vault.Client
  /-- The calls of the vault that calls of the broker wait for. -/
  asked : List (Nat × Nat)

def World.new (inventory : Audited.Inventory) (now : Nat) (table : Vault.Credentials) : World :=
  { audited := .new inventory, vault := .new now table, asked := [] }

inductive Action where
  /-- A step other than an answer of the vault. -/
  | audited (action : Audited.Action)
  /-- A step of the client, of any of its calls. -/
  | vault (action : Vault.Client.Action)
  | ask (call : Nat)
  | answer (call : Nat)

/-- What a call of the client has returned. -/
def resolved : Vault.Call → Option (Except VaultError Credential)
  | .unnamed ref => some (.error (.notFound ref.display))
  | .resolve _ _ (.returned result) => some result
  | _ => none

def answersVault : Audited.Action → Bool
  | .broker (.advance _ (.credential _)) => true
  | _ => false

def step (b : Audited.Config) (w : World) : Action → Option World
  | .audited action =>
      if answersVault action then none
      else (Audited.step b w.audited action).map fun audited => { w with audited }
  | .vault action => (w.vault.step action).map fun vault => { w with vault }
  | .ask i =>
      match w.audited.broker.calls[i]? with
      | some ⟨_, .vault _ ref⟩ =>
          if w.asked.any fun entry => entry.1 = i then none
          else (w.vault.step (.resolve ref)).map fun vault =>
            { w with vault, asked := (i, w.vault.calls.length) :: w.asked }
      | _ => none
  | .answer i => do
      let entry ← w.asked.find? fun entry => entry.1 = i
      let call ← w.vault.calls[entry.2]?
      let result ← resolved call
      let audited ← Audited.step b w.audited (.broker (.advance i (.credential result)))
      return { w with audited }

end Daimon.Broker.Resolving
