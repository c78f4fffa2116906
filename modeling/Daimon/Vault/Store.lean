import Daimon.Broker.Request

/-!
# The table of credentials

`vault.credentials` and the statements that `PostgresVaultClient` runs on it. A row stands with the credential that
its payload was sealed from: sealing and opening under the master key give the same credential back.
-/

namespace Daimon.Vault
open Daimon.Core Daimon.Broker

structure CredentialRow where
  id : Uuid
  name : String
  kind : CredentialKind
  payload : Credential
  deriving DecidableEq

/-- The id is the primary key, and the name is unique since V019. -/
structure Credentials where
  rows : List CredentialRow
  ids : (rows.map CredentialRow.id).Nodup
  names : (rows.map CredentialRow.name).Nodup

namespace Credentials

def empty : Credentials := ⟨[], List.nodup_nil, List.nodup_nil⟩

def byName (t : Credentials) (name : String) : Option CredentialRow := t.rows.find? fun r => r.name = name

def byId (t : Credentials) (id : Uuid) : Option CredentialRow := t.rows.find? fun r => r.id = id

def modifyRows (t : Credentials) (f : CredentialRow → CredentialRow)
    (keepsId : ∀ r, (f r).id = r.id) (keepsName : ∀ r, (f r).name = r.name) : Credentials where
  rows := t.rows.map f
  ids := by simpa [List.map_map, Function.comp_def, keepsId] using t.ids
  names := by simpa [List.map_map, Function.comp_def, keepsName] using t.names

def insert (t : Credentials) (row : CredentialRow) : Option Credentials :=
  if fresh : row.id ∉ t.rows.map CredentialRow.id ∧ row.name ∉ t.rows.map CredentialRow.name then
    some ⟨row :: t.rows, List.nodup_cons.mpr ⟨fresh.1, t.ids⟩, List.nodup_cons.mpr ⟨fresh.2, t.names⟩⟩
  else none

def setPayload (t : Credentials) (id : Uuid) (cred : Credential) : Credentials :=
  t.modifyRows (fun r => if r.id = id then { r with kind := cred.kind, payload := cred } else r)
    (fun r => by split <;> rfl) (fun r => by split <;> rfl)

def renamedRows (t : Credentials) (id : Uuid) (newName : String) : List CredentialRow :=
  t.rows.map fun r => if r.id = id then { r with name := newName } else r

/-- `none` where the unique index refuses the new name. -/
def setName (t : Credentials) (id : Uuid) (newName : String) : Option Credentials :=
  if distinct : ((t.renamedRows id newName).map CredentialRow.name).Nodup then
    some {
      rows := t.renamedRows id newName
      ids := by
        have kept (r : CredentialRow) : (if r.id = id then { r with name := newName } else r).id = r.id := by
          split <;> rfl
        simpa [renamedRows, List.map_map, Function.comp_def, kept] using t.ids
      names := distinct }
  else none

def erase (t : Credentials) (id : Uuid) : Credentials where
  rows := t.rows.filter fun r => r.id ≠ id
  ids := t.ids.sublist (List.filter_sublist.map _)
  names := t.names.sublist (List.filter_sublist.map _)

end Credentials

/-! ## The client's statements -/

/-- What `tokio_postgres` says of an error that the server reports. -/
def dbError : String := "db error"

/-- The ORDER BY of the listing follows the collation of the database. -/
def listMetadata (collation : String → String → Bool) (t : Credentials) : List CredentialRow :=
  t.rows.mergeSort fun a b => collation a.name b.name

def create (t : Credentials) (id : Uuid) (name : String) (cred : Credential) : Except VaultError Credentials :=
  match t.insert ⟨id, name, cred.kind, cred⟩ with
  | some t => .ok t
  | none => .error (.transport ("insert: " ++ dbError))

def reveal (t : Credentials) (id : Uuid) : Except VaultError Credential :=
  match t.byId id with
  | some row => .ok row.payload
  | none => .error (.notFound id.hyphenated)

def resolveRow (t : Credentials) (ref : CredentialRef) : Except VaultError CredentialRow :=
  match ref.name.bind t.byName with
  | some row => .ok row
  | none => .error (.notFound ref.display)

inductive Mutation where
  | update (id : Uuid) (cred : Credential)
  | rename (id : Uuid) (newName : String)
  | delete (id : Uuid)
  deriving DecidableEq

def Mutation.id : Mutation → Uuid
  | .update id _ => id
  | .rename id _ => id
  | .delete id => id

def Mutation.execute (t : Credentials) (m : Mutation) : Except VaultError Credentials :=
  match t.byId m.id with
  | none => .error (.notFound m.id.hyphenated)
  | some _ =>
      match m with
      | .update id cred => .ok (t.setPayload id cred)
      | .rename id newName =>
          match t.setName id newName with
          | some t => .ok t
          | none => .error (.transport ("rename: " ++ dbError))
      | .delete id => .ok (t.erase id)

/-- The names that the credential has before and after the statement. -/
def Mutation.names (t : Credentials) (m : Mutation) : List String :=
  match t.byId m.id, m with
  | none, _ => []
  | some row, .rename _ newName => [row.name, newName]
  | some row, _ => [row.name]

end Daimon.Vault
