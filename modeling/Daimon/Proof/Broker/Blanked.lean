import Daimon.Broker.Admin

/-!
# Secrets on the admin proxy

A credential is blanked to its kind. What the proxy does with blank credentials is what it does with the secret ones,
blanked: names, ids, kinds and events are the same.
-/

namespace Daimon.Proof.Blanked
open Daimon.Core Daimon.Broker Daimon.Broker.Admin Daimon.Vault

def blankCredential : Credential → Credential
  | .sshKey _ _ _ => .sshKey "" "" none
  | .sshPassword _ _ => .sshPassword "" ""
  | .apiToken _ => .apiToken ""
  | .generic _ => .generic []

@[simp] theorem blankCredential_kind (cred : Credential) : (blankCredential cred).kind = cred.kind := by
  cases cred <;> rfl

/-! ## The table -/

def blankRow (row : CredentialRow) : CredentialRow := { row with payload := blankCredential row.payload }

def blankTable (t : Credentials) : Credentials := t.modifyRows blankRow (fun _ => rfl) (fun _ => rfl)

theorem credentials_ext {t u : Credentials} (rows : t.rows = u.rows) : t = u := by
  cases t
  cases u
  cases rows
  rfl

theorem find_blankRow (p : CredentialRow → Bool) (kept : ∀ row, p (blankRow row) = p row) (rows : List CredentialRow) :
    (rows.map blankRow).find? p = (rows.find? p).map blankRow := by
  rw [List.find?_map, Function.comp_def]
  simp only [kept]

theorem blankTable_byId (t : Credentials) (id : Uuid) : (blankTable t).byId id = (t.byId id).map blankRow :=
  find_blankRow (fun row => row.id = id) (fun _ => rfl) t.rows

theorem blankTable_keys (t : Credentials) :
    (blankTable t).rows.map CredentialRow.id = t.rows.map CredentialRow.id ∧
      (blankTable t).rows.map CredentialRow.name = t.rows.map CredentialRow.name := by
  simp [blankTable, Credentials.modifyRows, blankRow, Function.comp_def]

theorem listMetadata_blank (collation : String → String → Bool) (t : Credentials) :
    (listMetadata collation (blankTable t)).map metadata = (listMetadata collation t).map metadata := by
  have sorted : (listMetadata collation t).map blankRow = listMetadata collation (blankTable t) :=
    List.map_mergeSort fun a _ b _ => rfl
  rw [← sorted, List.map_map]
  rfl

theorem reveal_blank (t : Credentials) (id : Uuid) :
    reveal (blankTable t) id = (reveal t id).map blankCredential := by
  unfold reveal
  rw [blankTable_byId]
  cases t.byId id <;> rfl

theorem create_blank (t : Credentials) (id : Uuid) (name : String) (cred : Credential) :
    create (blankTable t) id name (blankCredential cred) = (create t id name cred).map blankTable := by
  obtain ⟨ids, names⟩ := blankTable_keys t
  unfold create Credentials.insert
  simp only [ids, names, blankCredential_kind]
  by_cases fresh : id ∉ t.rows.map CredentialRow.id ∧ name ∉ t.rows.map CredentialRow.name
  · simp only [dif_pos fresh, Except.map]
    congr 1
  · simp only [dif_neg fresh, Except.map]

def blankMutation : Mutation → Mutation
  | .update id cred => .update id (blankCredential cred)
  | .rename id newName => .rename id newName
  | .delete id => .delete id

theorem setPayload_blank (t : Credentials) (id : Uuid) (cred : Credential) :
    (blankTable t).setPayload id (blankCredential cred) = blankTable (t.setPayload id cred) := by
  apply credentials_ext
  simp only [blankTable, Credentials.setPayload, Credentials.modifyRows, List.map_map]
  apply List.map_congr_left
  intro row _
  by_cases same : row.id = id <;> simp [blankRow, same]

theorem renamedRows_blank (t : Credentials) (id : Uuid) (newName : String) :
    (blankTable t).renamedRows id newName = (t.renamedRows id newName).map blankRow := by
  simp only [blankTable, Credentials.renamedRows, Credentials.modifyRows, List.map_map]
  apply List.map_congr_left
  intro row _
  by_cases same : row.id = id <;> simp [blankRow, same]

theorem setName_blank (t : Credentials) (id : Uuid) (newName : String) :
    (blankTable t).setName id newName = (t.setName id newName).map blankTable := by
  have rows := renamedRows_blank t id newName
  have names : ((blankTable t).renamedRows id newName).map CredentialRow.name =
      (t.renamedRows id newName).map CredentialRow.name := by
    rw [rows, List.map_map]
    rfl
  unfold Credentials.setName
  by_cases distinct : ((t.renamedRows id newName).map CredentialRow.name).Nodup
  · rw [dif_pos (names ▸ distinct), dif_pos distinct]
    exact congrArg some (credentials_ext rows)
  · rw [dif_neg (names ▸ distinct), dif_neg distinct]
    rfl

theorem erase_blank (t : Credentials) (id : Uuid) : (blankTable t).erase id = blankTable (t.erase id) := by
  apply credentials_ext
  simp only [blankTable, Credentials.erase, Credentials.modifyRows, List.filter_map]
  rfl

theorem mutation_blank (t : Credentials) (m : Mutation) :
    (blankMutation m).execute (blankTable t) = (m.execute t).map blankTable := by
  have sameId : (blankMutation m).id = m.id := by cases m <;> rfl
  unfold Mutation.execute
  rw [sameId, blankTable_byId]
  cases t.byId m.id with
  | none => rfl
  | some row =>
      cases m with
      | update id cred => exact congrArg Except.ok (setPayload_blank t id cred)
      | rename id newName =>
          simp only [blankMutation, Option.map_some, setName_blank]
          cases t.setName id newName <;> rfl
      | delete id => exact congrArg Except.ok (erase_blank t id)

/-! ## Requests -/

def blankStores (stores : Stores) : Stores := { stores with vault := blankTable stores.vault }

def blankOp : AdminOp → AdminOp
  | .vaultCreate name cred => .vaultCreate name (blankCredential cred)
  | .vaultUpdate id cred => .vaultUpdate id (blankCredential cred)
  | op => op

def blankValue : Value → Value
  | .credential cred => .credential (blankCredential cred)
  | value => value

def blankResult (result : Except Failure Value) : Except Failure Value := result.map blankValue

def blankOutcome (outcome : Value × Stores) : Value × Stores := (blankValue outcome.1, blankStores outcome.2)

theorem ofVault_blank {α : Type} {use use' : α → Value × Stores} {f : α → α} {result : Except VaultError α}
    (same : ∀ a, use' (f a) = blankOutcome (use a)) :
    AdminOp.ofVault use' (result.map f) = (AdminOp.ofVault use result).map blankOutcome := by
  cases result with
  | error e => rfl
  | ok a => exact congrArg Except.ok (same a)

theorem execute_blank (collation : String → String → Bool) (stores : Stores) (id : Uuid) (op : AdminOp) :
    (blankOp op).execute collation (blankStores stores) id = (op.execute collation stores id).map blankOutcome := by
  cases op with
  | vaultListMetadata =>
      simp only [blankOp, AdminOp.execute, blankStores, listMetadata_blank]
      rfl
  | vaultReveal cid =>
      simp only [blankOp, AdminOp.execute, blankStores, reveal_blank]
      exact ofVault_blank fun _ => rfl
  | vaultCreate name cred =>
      simp only [blankOp, AdminOp.execute, blankStores, create_blank]
      exact ofVault_blank fun _ => rfl
  | vaultUpdate cid cred =>
      have mutated := mutation_blank stores.vault (.update cid cred)
      simp only [blankMutation] at mutated
      simp only [blankOp, AdminOp.execute, blankStores, mutated]
      exact ofVault_blank fun _ => rfl
  | vaultRename cid newName =>
      have mutated := mutation_blank stores.vault (.rename cid newName)
      simp only [blankMutation] at mutated
      simp only [blankOp, AdminOp.execute, blankStores, mutated]
      exact ofVault_blank fun _ => rfl
  | vaultDelete cid =>
      have mutated := mutation_blank stores.vault (.delete cid)
      simp only [blankMutation] at mutated
      simp only [blankOp, AdminOp.execute, blankStores, mutated]
      exact ofVault_blank fun _ => rfl
  | inventoryGetManaged ref =>
      simp only [blankOp, AdminOp.execute, blankStores]
      cases stores.inventory.getManaged ref none <;> rfl
  | inventoryUpsert ref target => rfl
  | inventoryRemove ref =>
      simp only [blankOp, AdminOp.execute, blankStores]
      cases AdminOp.removed stores.inventory ref <;> rfl

theorem blankOp_isVault (op : AdminOp) : (blankOp op).isVault = op.isVault := by
  cases op <;> rfl

theorem blankOp_method (op : AdminOp) : (blankOp op).method = op.method := by
  cases op <;> rfl

theorem blankOp_mayFail (op : AdminOp) (error : Failure) : (blankOp op).mayFail error = op.mayFail error := by
  cases error <;> simp only [AdminOp.mayFail, blankOp_isVault]

theorem credentialRef_blank (op : AdminOp) (result : Except Failure Value) :
    (blankOp op).credentialRef (blankResult result) = op.credentialRef result := by
  cases op with
  | inventoryGetManaged ref =>
      cases result with
      | error e => rfl
      | ok value => cases value <;> rfl
  | _ => simp only [blankOp, AdminOp.credentialRef]

theorem opSummary_blank (op : AdminOp) : (blankOp op).opSummary = op.opSummary := by
  cases op with
  | vaultCreate name cred =>
      have written (cred : Credential) :
          (AdminOp.vaultCreate name cred).opSummary = "created credential kind=" ++ cred.kind.debug := rfl
      rw [blankOp, written, written, blankCredential_kind]
  | _ => rfl

/-- An event says nothing of a secret. -/
theorem entry_blank (actorId : String) (op : AdminOp) (result : Except Failure Value) (latencyMs : Nat) :
    (blankOp op).entry actorId (blankResult result) latencyMs = op.entry actorId result latencyMs := by
  have action : (blankOp op).action = op.action := by cases op <;> rfl
  have target : (blankOp op).targetRef = op.targetRef := by cases op <;> rfl
  unfold AdminOp.entry
  rw [credentialRef_blank, opSummary_blank, action, target]
  cases result <;> rfl

end Daimon.Proof.Blanked
