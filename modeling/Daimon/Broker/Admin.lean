import Daimon.Broker.Audited
import Daimon.Vault.Store

/-!
# The admin proxy

`daimon-broker/src/admin.rs`: what the admin pages ask of the vault and of the inventory, and the event that each of these
requests leaves. The listing of the inventory, which is not audited, is left out.
-/

namespace Daimon.Broker
open Daimon.Core Lib

def VaultError.display : VaultError → String
  | .notFound ref => "credential ref `" ++ ref ++ "` not found"
  | .sessionLocked => "vault session is locked or expired"
  | .transport message => "vault transport error: " ++ message
  | .decode message => "vault response decode error: " ++ message
  | .other message => message

def InventoryError.display : InventoryError → String
  | .notFound ref => "target `" ++ ref ++ "` not found in inventory"
  | .other message => message

/-- `{:?}`. -/
def CredentialKind.debug : CredentialKind → String
  | .sshKey => "SshKey"
  | .sshPassword => "SshPassword"
  | .apiToken => "ApiToken"
  | .generic => "Generic"

namespace Admin
open Audited (AuditResult Inventory NewAuditEvent)

inductive ActionKind where
  | vaultResolve
  | vaultReveal
  | vaultCreate
  | vaultUpdate
  | vaultRename
  | vaultDelete
  | inventoryUpsert
  | inventoryRemove
  | inventoryResolve
  deriving DecidableEq, Repr

/-- An event with its action. -/
structure Entry where
  action : ActionKind
  event : NewAuditEvent
  deriving DecidableEq, Repr

structure Stores where
  vault : Vault.Credentials
  inventory : Inventory

structure CredentialMetadata where
  id : Uuid
  name : String
  kind : CredentialKind
  deriving DecidableEq, Repr

def metadata (row : Vault.CredentialRow) : CredentialMetadata := ⟨row.id, row.name, row.kind⟩

inductive AdminOp where
  | vaultListMetadata
  | vaultReveal (id : Uuid)
  | vaultCreate (name : String) (cred : Credential)
  | vaultUpdate (id : Uuid) (cred : Credential)
  | vaultRename (id : Uuid) (newName : String)
  | vaultDelete (id : Uuid)
  | inventoryGetManaged (ref : TargetRef)
  | inventoryUpsert (ref : TargetRef) (target : ManagedTarget)
  | inventoryRemove (ref : TargetRef)
  deriving DecidableEq, Repr

inductive Value where
  | metadata (rows : List CredentialMetadata)
  | credential (cred : Credential)
  | created (id : Uuid)
  | managed (target : ManagedTarget)
  | done
  deriving DecidableEq, Repr

inductive Failure where
  | vault (error : VaultError)
  | inventory (error : InventoryError)
  deriving DecidableEq, Repr

def Failure.display : Failure → String
  | .vault error => error.display
  | .inventory error => error.display

namespace AdminOp

def isVault : AdminOp → Bool
  | .inventoryGetManaged _ | .inventoryUpsert _ _ | .inventoryRemove _ => false
  | _ => true

/-- The method of the broker, as the pages name it in an error. -/
def method : AdminOp → String
  | .vaultListMetadata => "vault_list_metadata"
  | .vaultReveal _ => "vault_reveal"
  | .vaultCreate _ _ => "vault_create"
  | .vaultUpdate _ _ => "vault_update"
  | .vaultRename _ _ => "vault_rename"
  | .vaultDelete _ => "vault_delete"
  | .inventoryGetManaged _ => "inventory_get_managed"
  | .inventoryUpsert _ _ => "inventory_upsert"
  | .inventoryRemove _ => "inventory_remove"

/-- A failure is one of the store that the request is for. -/
def mayFail (op : AdminOp) : Failure → Bool
  | .vault _ => op.isVault
  | .inventory _ => !op.isVault

def action : AdminOp → ActionKind
  | .vaultListMetadata => .vaultResolve
  | .vaultReveal _ => .vaultReveal
  | .vaultCreate _ _ => .vaultCreate
  | .vaultUpdate _ _ => .vaultUpdate
  | .vaultRename _ _ => .vaultRename
  | .vaultDelete _ => .vaultDelete
  | .inventoryGetManaged _ => .inventoryResolve
  | .inventoryUpsert _ _ => .inventoryUpsert
  | .inventoryRemove _ => .inventoryRemove

def targetRef : AdminOp → Option String
  | .inventoryGetManaged ref | .inventoryUpsert ref _ | .inventoryRemove ref => some ref.display
  | _ => none

/-- The record of a target names the credential that it binds to. -/
def credentialRef (result : Except Failure Value) : AdminOp → Option String
  | .vaultReveal id | .vaultUpdate id _ | .vaultDelete id => some ("id=" ++ id.hyphenated)
  | .vaultCreate name _ => some ("vault://" ++ name)
  | .vaultRename _ newName => some ("vault://" ++ newName)
  | .inventoryGetManaged _ =>
      match result with
      | .ok (.managed target) => some target.credentialRef
      | _ => none
  | _ => none

def opSummary : AdminOp → String
  | .vaultListMetadata => "vault list"
  | .vaultReveal id => "revealed credential id=" ++ id.hyphenated
  | .vaultCreate _ cred => "created credential kind=" ++ cred.kind.debug
  | .vaultUpdate id _ => "updated credential id=" ++ id.hyphenated
  | .vaultRename id newName => "renamed credential id=" ++ id.hyphenated ++ " to " ++ newName
  | .vaultDelete id => "deleted credential id=" ++ id.hyphenated
  | .inventoryGetManaged _ => "inventory get_managed"
  | .inventoryUpsert _ _ => "inventory upsert"
  | .inventoryRemove _ => "inventory remove"

/-! ## The stores -/

def ofVault {α : Type} (use : α → Value × Stores) : Except VaultError α → Except Failure (Value × Stores)
  | .ok a => .ok (use a)
  | .error e => .error (.vault e)

def ofInventory {α : Type} (use : α → Value × Stores) : Except InventoryError α → Except Failure (Value × Stores)
  | .ok a => .ok (use a)
  | .error e => .error (.inventory e)

def removed (inventory : Inventory) (ref : TargetRef) : Except InventoryError Inventory :=
  match inventory.lookup ref with
  | some _ => .ok (inventory.remove ref)
  | none => .error (.notFound ref.display)

/-- The statement of a request, as the database carries it out; `id` is that of a new row. -/
def execute (collation : String → String → Bool) (stores : Stores) (id : Uuid) :
    AdminOp → Except Failure (Value × Stores)
  | .vaultListMetadata => .ok (.metadata ((Vault.listMetadata collation stores.vault).map metadata), stores)
  | .vaultReveal id => ofVault (fun cred => (.credential cred, stores)) (Vault.reveal stores.vault id)
  | .vaultCreate name cred =>
      ofVault (fun vault => (.created id, { stores with vault })) (Vault.create stores.vault id name cred)
  | .vaultUpdate id cred =>
      ofVault (fun vault => (.done, { stores with vault })) (Vault.Mutation.execute stores.vault (.update id cred))
  | .vaultRename id newName =>
      ofVault (fun vault => (.done, { stores with vault })) (Vault.Mutation.execute stores.vault (.rename id newName))
  | .vaultDelete id =>
      ofVault (fun vault => (.done, { stores with vault })) (Vault.Mutation.execute stores.vault (.delete id))
  | .inventoryGetManaged ref =>
      ofInventory (fun target => (.managed target, stores)) (stores.inventory.getManaged ref none)
  | .inventoryUpsert ref target => .ok (.done, { stores with inventory := stores.inventory.upsert ref target })
  | .inventoryRemove ref =>
      ofInventory (fun inventory => (.done, { stores with inventory })) (removed stores.inventory ref)

/-- `audit_action`. -/
def entry (actorId : String) (op : AdminOp) (result : Except Failure Value) (latencyMs : Nat) : Entry where
  action := op.action
  event := {
    actorId
    targetRef := op.targetRef
    credentialRef := op.credentialRef result
    opSummary := some op.opSummary
    result := match result with
      | .ok _ => .success
      | .error _ => .error
    latencyMs := some latencyMs
    metadata := match result with
      | .ok _ => []
      | .error e => [("error", e.display)] }

end AdminOp
end Admin
end Daimon.Broker
