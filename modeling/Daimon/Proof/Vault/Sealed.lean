import Daimon.Lib.Lists
import Daimon.Proof.Vault.References
import Daimon.Vault.Sealed

/-!
# The sealed table against the table of credentials

What is sealed opens to the credential it was sealed from, so the table of sealed rows refines the table whose rows stand
with their credentials. Over any sequence of requests a row gives the credential that was last written to it.
-/

namespace Daimon.Proof.Vault.Sealed
open Daimon.Core Daimon.Vault.Sealed Lib
open Daimon.Vault (Credentials CredentialRow Mutation create)
open Daimon.Broker (Credential CredentialKind CredentialRef VaultError)

/-! ## Sealing -/

section Seal
variable {Key : Type} {aead : Aead Key} {key : Key} {nonce : Nonce} {plaintext sealed : Bytes}

theorem sealed_of_seal (wrote : sealBytes aead key nonce plaintext = .ok sealed) :
    ∃ ciphertext, aead.encrypt key nonce plaintext = some ciphertext ∧ sealed = nonce.bytes ++ ciphertext := by
  unfold sealBytes at wrote
  split at wrote
  case _ ciphertext encrypted =>
    cases wrote
    exact ⟨ciphertext, encrypted, rfl⟩
  · cases wrote

variable (aead key) in
theorem unseal_long (long : sealNonceLen ≤ sealed.length) : ∃ nonce : Nonce, nonce.bytes = sealed.take sealNonceLen ∧
    unsealBytes aead key sealed =
      some ((aead.decrypt key nonce (sealed.drop sealNonceLen)).elim (.error (.decrypt aeadError)) .ok) := by
  have taken : (sealed.take sealNonceLen).length = sealNonceLen := List.length_take_of_le long
  refine ⟨⟨sealed.take sealNonceLen, taken⟩, rfl, ?_⟩
  rw [unsealBytes, if_neg (Nat.not_lt.mpr long), splitAt?, if_pos long]
  simp only [Option.bind_eq_bind, Option.bind_some, Nonce.fromSlice?, dif_pos taken]
  cases aead.decrypt key ⟨sealed.take sealNonceLen, taken⟩ (sealed.drop sealNonceLen) <;> rfl

theorem unseal_short (short : sealed.length < sealNonceLen) :
    unsealBytes aead key sealed = some (.error .truncatedPayload) :=
  if_pos short

variable (aead key) in
theorem unseal_returns (sealed : Bytes) : (unsealBytes aead key sealed).isSome = true := by
  rcases Nat.lt_or_ge sealed.length sealNonceLen with short | long
  · rw [unseal_short short]
    rfl
  · obtain ⟨nonce, -, opened⟩ := unseal_long aead key long
    rw [opened]
    rfl

theorem unseal_seal (wrote : sealBytes aead key nonce plaintext = .ok sealed) :
    unsealBytes aead key sealed = some (.ok plaintext) := by
  obtain ⟨ciphertext, encrypted, rfl⟩ := sealed_of_seal wrote
  have long : sealNonceLen ≤ (nonce.bytes ++ ciphertext).length := by
    rw [List.length_append, nonce.length_bytes]
    exact Nat.le_add_right _ _
  obtain ⟨again, front, opened⟩ := unseal_long aead key long
  have same : again = nonce := by
    rw [← nonce.length_bytes, List.take_left] at front
    cases again
    cases nonce
    cases front
    rfl
  have behind : (nonce.bytes ++ ciphertext).drop sealNonceLen = ciphertext := by
    rw [← nonce.length_bytes, List.drop_left]
  rw [opened, behind, same, aead.opens key nonce plaintext ciphertext encrypted]
  rfl

def zeroNonce : Nonce := ⟨List.replicate 24 0, rfl⟩

example : (sealBytes Aead.labelling 7 zeroNonce [1, 2, 3]).toOption.map (unsealBytes Aead.labelling 8) =
    some (some (.error (.decrypt "aead::Error"))) := by decide

theorem seal_of_unseal (opened : unsealBytes aead key sealed = some (.ok plaintext)) :
    ∃ nonce, sealBytes aead key nonce plaintext = .ok sealed := by
  rcases Nat.lt_or_ge sealed.length sealNonceLen with short | long
  · rw [unseal_short short] at opened
    cases opened
  · obtain ⟨nonce, front, unsealed⟩ := unseal_long aead key long
    cases decrypted : aead.decrypt key nonce (sealed.drop sealNonceLen) with
    | none =>
        rw [unsealed, decrypted] at opened
        cases opened
    | some recovered =>
        rw [unsealed, decrypted] at opened
        cases opened
        refine ⟨nonce, ?_⟩
        rw [sealBytes, aead.rejects key nonce _ _ decrypted]
        show Except.ok (nonce.bytes ++ _) = _
        rw [front, List.take_append_drop]

theorem unseal_rejects (foreign : ∀ nonce plaintext, sealBytes aead key nonce plaintext ≠ .ok sealed) :
    ∃ e, unsealBytes aead key sealed = some (.error e) := by
  obtain ⟨result, returned⟩ := Option.isSome_iff_exists.mp (unseal_returns aead key sealed)
  cases result with
  | error e => exact ⟨e, returned⟩
  | ok plaintext =>
      obtain ⟨nonce, wrote⟩ := seal_of_unseal returned
      exact absurd wrote (foreign nonce plaintext)

end Seal

/-! ## The payload -/

theorem stringField_ofFields {pairs : List (String × Json)} (distinct : (pairs.map Prod.fst).Nodup) (key : String) :
    stringField (Json.ofFields pairs) key = (pairs.lookup key).bind Json.asStr? := by
  rw [stringField, Json.get?_ofFields distinct]

theorem mapField_strings {v : Json} {key : String} {fields : List (String × String)}
    (stands : v.get? key = some (.object (fields.map fun field => (field.1, .string field.2)))) :
    mapField v key = some fields := by
  rw [mapField, stands]
  exact Json.mapM_strings fields

theorem fromValue_toValue (cred : Credential) : Credential.fromValue (Credential.toValue cred) = some cred := by
  cases cred with
  | sshKey username privateKeyPem passphrase =>
      cases passphrase with
      | none =>
          rw [Credential.toValue, Credential.fromValue]
          simp [stringField_ofFields, optionalField, Json.get?_ofFields, List.lookup_cons, Json.asStr?]
      | some passphrase =>
          rw [Credential.toValue, Credential.fromValue]
          simp [stringField_ofFields, optionalField, Json.get?_ofFields, List.lookup_cons, Json.asStr?]
  | sshPassword username password =>
      rw [Credential.toValue, Credential.fromValue]
      simp [stringField_ofFields, List.lookup_cons, Json.asStr?]
  | apiToken token =>
      rw [Credential.toValue, Credential.fromValue]
      simp [stringField_ofFields, List.lookup_cons, Json.asStr?]
  | generic fields =>
      have map : mapField (Credential.toValue (.generic fields)) "fields" = some fields := by
        apply mapField_strings
        rw [Credential.toValue, Json.get?_ofFields (by simp)]
        rfl
      rw [Credential.fromValue, map, Credential.toValue]
      simp [stringField_ofFields, List.lookup_cons, Json.asStr?]

theorem plain_strings (budget : Nat) (fields : List (String × String)) :
    Json.plainFields budget (fields.map fun field => (field.1, .string field.2)) = true := by
  induction fields with
  | nil => rfl
  | cons field rest ih => simpa [Json.plainFields, Json.plainField, Json.plain] using ih

theorem plain_toValue {cred : Credential} (ordered : Ordered cred) : (Credential.toValue cred).plain 128 = true := by
  cases cred with
  | sshKey username privateKeyPem passphrase =>
      cases passphrase with
      | none => exact Json.plain_ofFields (by decide) (by simp [Json.plain])
      | some passphrase => exact Json.plain_ofFields (by decide) (by simp [Json.plain])
  | sshPassword username password => exact Json.plain_ofFields (by decide) (by simp [Json.plain])
  | apiToken token => exact Json.plain_ofFields (by decide) (by simp [Json.plain])
  | generic fields =>
      have sorted : ((fields.map fun field => (field.1, Json.string field.2)).map Prod.fst).Pairwise (· < ·) := by
        rw [List.map_map]
        exact ordered
      have map : (Json.object (fields.map fun field => (field.1, .string field.2))).plain 127 = true := by
        rw [Json.plain, plain_strings, decide_eq_true sorted]
        rfl
      apply Json.plain_ofFields (by decide)
      intro p member
      simp only [List.mem_cons, List.not_mem_nil, or_false] at member
      rcases member with rfl | rfl
      · rfl
      · exact map

section Payload
variable {Key : Type} {aead : Aead Key} {texts : JsonText Bytes} {key : Key} {nonce : Nonce} {sealed : Bytes}

theorem open_sealed {cred : OrderedCredential}
    (wrote : sealCredential aead texts key nonce cred.val = .ok sealed) :
    openPayload aead texts key sealed = some (.ok cred.val) := by
  have blob : sealBytes aead key nonce (texts.encode (Credential.toValue cred.val)) = .ok sealed := by
    unfold sealCredential at wrote
    split at wrote
    case _ other encrypted =>
      cases wrote
      exact encrypted
    · cases wrote
  rw [openPayload, unseal_seal blob]
  simp only [Option.map_some, texts.round_trip _ (plain_toValue cred.property), fromValue_toValue]

end Payload

/-! ## The table of credentials -/

section Contents
variable {t t' : Credentials} {id : Uuid}

theorem payload_create {name : String} {cred : Credential} (done : create t id name cred = .ok t') (other : Uuid) :
    (t'.byId other).map CredentialRow.payload =
      if other = id then some cred else (t.byId other).map CredentialRow.payload := by
  rw [Credentials.byId, rows_of_create done, List.find?_cons]
  by_cases same : other = id
  · simp [same]
  · have skip : decide (id = other) = false := by simpa using Ne.symm same
    rw [skip, if_neg same]
    rfl

theorem payload_setPayload (cred : Credential) (found : (t.byId id).isSome) (other : Uuid) :
    ((t.setPayload id cred).byId other).map CredentialRow.payload =
      if other = id then some cred else (t.byId other).map CredentialRow.payload := by
  have keeps : ∀ r : CredentialRow,
      (if r.id = id then { r with kind := cred.kind, payload := cred } else r).id = r.id := by
    intro r
    split <;> rfl
  have mapped : (t.setPayload id cred).byId other =
      (t.byId other).map fun r => if r.id = id then { r with kind := cred.kind, payload := cred } else r :=
    find?_map_of_key keeps t.rows other
  rw [mapped]
  cases at_other : t.byId other with
  | none =>
      have different : other ≠ id := by
        rintro rfl
        simp [at_other] at found
      simp [different]
  | some row =>
      have named : row.id = other := by simpa using List.find?_some at_other
      by_cases same : other = id
      · simp [same, named]
      · simp [same, named]

theorem payload_setName {newName : String} (renamed : t.setName id newName = some t') (other : Uuid) :
    (t'.byId other).map CredentialRow.payload = (t.byId other).map CredentialRow.payload := by
  have keeps : ∀ r : CredentialRow, (if r.id = id then { r with name := newName } else r).id = r.id := by
    intro r
    split <;> rfl
  have mapped : t'.byId other = (t.byId other).map fun r => if r.id = id then { r with name := newName } else r := by
    unfold Credentials.setName at renamed
    split at renamed
    · cases renamed
      exact find?_map_of_key keeps t.rows other
    · cases renamed
  rw [mapped, Option.map_map]
  congr 1
  funext r
  simp only [Function.comp_apply]
  split <;> rfl

theorem byId_erase (t : Credentials) (id other : Uuid) :
    (t.erase id).byId other = if other = id then none else t.byId other := by
  show (t.rows.filter _).find? _ = _
  rw [List.find?_filter]
  by_cases same : other = id
  · rw [if_pos same, List.find?_eq_none]
    simp [same]
  · rw [if_neg same]
    apply congrArg (List.find? · t.rows)
    funext r
    by_cases named : r.id = other <;> simp [named, same]

end Contents

/-! ## What was last written -/

/-- The writes that took effect, the latest first; a deletion takes those of its row back. -/
abbrev Log := List (Uuid × Credential)

def record (log : Log) : Request → Log
  | .create _ id _ cred => (id, cred.val) :: log
  | .update _ id cred => (id, cred.val) :: log
  | .rename _ _ => log
  | .delete id => log.filter fun entry => entry.1 ≠ id

/-- The request on the table whose rows stand with their credentials. -/
def intended (t : Credentials) : Request → Except VaultError Credentials
  | .create _ id name cred => create t id name cred.val
  | .update _ id cred => (Mutation.update id cred.val).execute t
  | .rename id newName => (Mutation.rename id newName).execute t
  | .delete id => (Mutation.delete id).execute t

/-- The table gives each row the credential that was last written to it. -/
def Tracks (t : Credentials) (log : Log) : Prop :=
  ∀ id, (t.byId id).map CredentialRow.payload = log.lookup id

theorem tracks_intended {t t' : Credentials} {log : Log} {request : Request} (tracks : Tracks t log)
    (done : intended t request = .ok t') : Tracks t' (record log request) := by
  intro other
  cases request with
  | create nonce id name cred => rw [record, payload_create done, lookup_cons_ite, tracks other]
  | update nonce id cred =>
      simp only [intended, Mutation.execute, Mutation.id] at done
      split at done
      · cases done
      case _ row found =>
        cases done
        rw [record, payload_setPayload cred.val (Option.isSome_of_eq_some found), lookup_cons_ite, tracks other]
  | rename id newName =>
      simp only [intended, Mutation.execute, Mutation.id] at done
      split at done
      · cases done
      · split at done
        case _ table renamed =>
          cases done
          rw [record, payload_setName renamed, tracks other]
        · cases done
  | delete id =>
      simp only [intended, Mutation.execute, Mutation.id] at done
      split at done
      · cases done
      · cases done
        rw [record, lookup_filter_ne, byId_erase]
        split_ifs with same
        · rfl
        · exact tracks other

/-! ## Refinement -/

section Refine
variable {Key : Type} (aead : Aead Key) (texts : JsonText Bytes) (key : Key)

/-- A sealed row stands for a row that has its credential. -/
structure Holds (row : CredentialRow) (sealed : SealedRow) : Prop where
  id : sealed.id = row.id
  name : sealed.name = row.name
  kind : sealed.kind = kindToStr row.payload.kind
  opens : openPayload aead texts key sealed.payloadSealed = some (.ok row.payload)

def Refines (t : Credentials) (rows : List SealedRow) : Prop := List.Forall₂ (Holds aead texts key) t.rows rows

variable {aead texts key} {t : Credentials} {rows rows' : List SealedRow}

theorem Refines.ids (refines : Refines aead texts key t rows) :
    t.rows.map CredentialRow.id = rows.map SealedRow.id :=
  map_eq_of_forall₂ refines fun _ _ holds => holds.id.symm

theorem Refines.names (refines : Refines aead texts key t rows) :
    t.rows.map CredentialRow.name = rows.map SealedRow.name :=
  map_eq_of_forall₂ refines fun _ _ holds => holds.name.symm

theorem Refines.byId (refines : Refines aead texts key t rows) (id : Uuid) :
    Option.Rel (Holds aead texts key) (t.byId id) (SealedRows.byId rows id) :=
  find?_of_forall₂ refines fun _ _ holds => by rw [holds.id]

theorem Refines.byName (refines : Refines aead texts key t rows) (name : String) :
    Option.Rel (Holds aead texts key) (t.byName name) (SealedRows.byName rows name) :=
  find?_of_forall₂ refines fun _ _ holds => by rw [holds.name]

theorem Refines.found (refines : Refines aead texts key t rows) {id : Uuid} {sealed : SealedRow}
    (found : SealedRows.byId rows id = some sealed) : ∃ row, t.byId id = some row := by
  have related := refines.byId id
  rw [found] at related
  obtain ⟨row, at_id, -⟩ := related_some_right related
  exact ⟨row, at_id⟩

theorem refines_insert (refines : Refines aead texts key t rows) {row : CredentialRow} {sealed : SealedRow}
    (holds : Holds aead texts key row sealed) (inserted : SealedRows.insert rows sealed = some rows') :
    ∃ t', t.insert row = some t' ∧ Refines aead texts key t' rows' := by
  unfold SealedRows.insert at inserted
  split_ifs at inserted with fresh
  cases inserted
  have vacant : row.id ∉ t.rows.map CredentialRow.id ∧ row.name ∉ t.rows.map CredentialRow.name := by
    rw [refines.ids, refines.names, ← holds.id, ← holds.name]
    exact fresh
  refine ⟨_, dif_pos vacant, ?_⟩
  exact List.Forall₂.cons holds refines

theorem refines_setPayload (refines : Refines aead texts key t rows) {cred : Credential} {payload : Bytes}
    (opens : openPayload aead texts key payload = some (.ok cred)) (id : Uuid) :
    Refines aead texts key (t.setPayload id cred) (SealedRows.setPayload rows id (kindToStr cred.kind) payload) := by
  show List.Forall₂ _ (t.rows.map _) (rows.map _)
  rw [List.forall₂_map_left_iff, List.forall₂_map_right_iff]
  refine List.Forall₂.imp ?_ refines
  intro row sealed holds
  rw [holds.id]
  split_ifs with here
  · exact ⟨rfl, holds.name, rfl, opens⟩
  · exact holds

theorem refines_setName (refines : Refines aead texts key t rows) {id : Uuid} {newName : String}
    (renamed : SealedRows.setName rows id newName = some rows') :
    ∃ t', t.setName id newName = some t' ∧ Refines aead texts key t' rows' := by
  have related : List.Forall₂ (Holds aead texts key) (t.renamedRows id newName)
      (rows.map fun r => if r.id = id then { r with name := newName } else r) := by
    rw [Credentials.renamedRows, List.forall₂_map_left_iff, List.forall₂_map_right_iff]
    refine List.Forall₂.imp ?_ refines
    intro row sealed holds
    rw [holds.id]
    split_ifs with here
    · exact ⟨rfl, rfl, holds.kind, holds.opens⟩
    · exact holds
  simp only [SealedRows.setName] at renamed
  split_ifs at renamed with distinct
  cases renamed
  have unique : ((t.renamedRows id newName).map CredentialRow.name).Nodup := by
    rw [map_eq_of_forall₂ related fun _ _ holds => holds.name.symm]
    exact distinct
  exact ⟨_, dif_pos unique, related⟩

theorem refines_erase (refines : Refines aead texts key t rows) (id : Uuid) :
    Refines aead texts key (t.erase id) (SealedRows.erase rows id) := by
  apply List.rel_filter
  · intro row sealed holds
    show decide (row.id ≠ id) = true ↔ decide (sealed.id ≠ id) = true
    rw [holds.id]
  · exact refines

/-- A statement that takes effect on the sealed rows takes effect on what they stand for. -/
theorem statement_refines (refines : Refines aead texts key t rows) {request : Request} {sealed : Bytes}
    (wrote : request.payload aead texts key = .ok sealed) (done : request.statement rows sealed = .ok rows') :
    ∃ t', intended t request = .ok t' ∧ Refines aead texts key t' rows' := by
  cases request with
  | create nonce id name cred =>
      simp only [Request.statement] at done
      split at done
      case _ table inserted =>
        cases done
        have holds : Holds aead texts key ⟨id, name, cred.val.kind, cred.val⟩
            ⟨id, name, kindToStr cred.val.kind, sealed⟩ := ⟨rfl, rfl, rfl, open_sealed wrote⟩
        obtain ⟨t', taken, after⟩ := refines_insert refines holds inserted
        refine ⟨t', ?_, after⟩
        rw [intended, create, taken]
      · cases done
  | update nonce id cred =>
      simp only [Request.statement] at done
      split at done
      case _ row found =>
        cases done
        obtain ⟨row, at_id⟩ := refines.found found
        refine ⟨t.setPayload id cred.val, ?_, refines_setPayload refines (open_sealed wrote) id⟩
        simp only [intended, Mutation.execute, Mutation.id, at_id]
      · cases done
  | rename id newName =>
      simp only [Request.statement] at done
      split at done
      · cases done
      case _ row found =>
        split at done
        case _ table renamed =>
          cases done
          obtain ⟨row, at_id⟩ := refines.found found
          obtain ⟨t', taken, after⟩ := refines_setName refines renamed
          refine ⟨t', ?_, after⟩
          simp only [intended, Mutation.execute, Mutation.id, at_id, taken]
        · cases done
  | delete id =>
      simp only [Request.statement] at done
      split at done
      case _ row found =>
        cases done
        obtain ⟨row, at_id⟩ := refines.found found
        refine ⟨t.erase id, ?_, refines_erase refines id⟩
        simp only [intended, Mutation.execute, Mutation.id, at_id]
      · cases done

end Refine

/-! ## Runs -/

section Run
variable {Key : Type} (aead : Aead Key) (texts : JsonText Bytes) (key : Key)

/-- The sealed rows, with what was written to them. -/
structure History where
  rows : List SealedRow
  log : Log

/-- The table after the call's statement, where it takes effect. -/
def Call.wrote (rows : List SealedRow) (call : Call) : Option (List SealedRow) :=
  match call.reply, call.request.payload aead texts key with
  | .failed _, _ | _, .error _ => none
  | _, .ok sealed => (call.request.statement rows sealed).toOption

def History.step (h : History) (call : Call) : History where
  rows := (call.perform aead texts key h.rows).1
  log := if (Call.wrote aead texts key h.rows call).isSome then record h.log call.request else h.log

def History.run (calls : List Call) : History := calls.foldl (History.step aead texts key) ⟨[], []⟩

/-- Whatever was last written to a row comes back, and its kind stands beside it. -/
structure History.Survives (h : History) : Prop where
  unchanged : ∀ row ∈ h.rows, ∃ cred, h.log.lookup row.id = some cred ∧ row.kind = kindToStr cred.kind ∧
    reveal aead texts key h.rows row.id = some (.ok cred) ∧
    ∀ ref : CredentialRef, ref.name = some row.name → resolveUncached aead texts key h.rows ref = some (.ok cred)
  kept : ∀ id cred, h.log.lookup id = some cred → ∃ row ∈ h.rows, row.id = id

variable {aead texts key} {h : History}

theorem step_cases (h : History) (call : Call) :
    h.step aead texts key call = h ∨
      ∃ sealed rows, call.request.payload aead texts key = .ok sealed ∧ call.request.statement h.rows sealed = .ok rows ∧
        h.step aead texts key call = ⟨rows, record h.log call.request⟩ := by
  unfold History.step Call.perform Call.wrote
  cases wrote : call.request.payload aead texts key with
  | error e => cases call.reply <;> exact Or.inl rfl
  | ok sealed =>
      cases done : call.request.statement h.rows sealed with
      | error e =>
          left
          cases call.reply <;> simp only [done] <;> rfl
      | ok rows =>
          cases call.reply with
          | failed e => exact Or.inl rfl
          | answered =>
              refine Or.inr ⟨sealed, rows, rfl, done, ?_⟩
              simp only [done]
              rfl
          | lost e =>
              refine Or.inr ⟨sealed, rows, rfl, done, ?_⟩
              simp only [done]
              rfl

def Modelled (aead : Aead Key) (texts : JsonText Bytes) (key : Key) (h : History) : Prop :=
  ∃ t, Refines aead texts key t h.rows ∧ Tracks t h.log

theorem modelled_step (modelled : Modelled aead texts key h) (call : Call) :
    Modelled aead texts key (h.step aead texts key call) := by
  rcases step_cases h call with same | ⟨sealed, rows, wrote, done, after⟩
  · rw [same]
    exact modelled
  · obtain ⟨t, refines, tracks⟩ := modelled
    obtain ⟨t', meant, refined⟩ := statement_refines refines wrote done
    rw [after]
    exact ⟨t', refined, tracks_intended tracks meant⟩

theorem modelled_run (calls : List Call) : Modelled aead texts key (History.run aead texts key calls) := by
  suffices steps : ∀ h, Modelled aead texts key h →
      Modelled aead texts key (calls.foldl (History.step aead texts key) h) from
    steps ⟨[], []⟩ ⟨Credentials.empty, List.Forall₂.nil, fun _ => rfl⟩
  induction calls with
  | nil => exact fun h modelled => modelled
  | cons call rest ih => exact fun h modelled => ih _ (modelled_step modelled call)

theorem reveal_of_byId {t : Credentials} {row : CredentialRow} (refines : Refines aead texts key t h.rows) {id : Uuid}
    (found : t.byId id = some row) : reveal aead texts key h.rows id = some (.ok row.payload) := by
  have related := refines.byId id
  rw [found] at related
  obtain ⟨sealed, at_id, holds⟩ := related_some_left related
  rw [reveal, at_id]
  exact holds.opens

theorem resolve_of_byName {t : Credentials} {row : CredentialRow} (refines : Refines aead texts key t h.rows)
    {ref : CredentialRef} {name : String} (named : ref.name = some name) (found : t.byName name = some row) :
    resolveUncached aead texts key h.rows ref = some (.ok row.payload) := by
  have related := refines.byName name
  rw [found] at related
  obtain ⟨sealed, at_name, holds⟩ := related_some_left related
  rw [resolveUncached, named, Option.bind_some, at_name]
  exact holds.opens

theorem survives_of_modelled (modelled : Modelled aead texts key h) : h.Survives aead texts key := by
  obtain ⟨t, refines, tracks⟩ := modelled
  constructor
  · intro sealed member
    obtain ⟨row, among, holds⟩ : ∃ row ∈ t.rows, Holds aead texts key row sealed := related_of_mem_right refines member
    have byId : t.byId sealed.id = some row := (find?_key_eq_some t.ids).mpr ⟨among, holds.id.symm⟩
    have byName : t.byName sealed.name = some row := (find?_key_eq_some t.names).mpr ⟨among, holds.name.symm⟩
    refine ⟨row.payload, ?_, holds.kind, reveal_of_byId refines byId, ?_⟩
    · rw [← tracks sealed.id, byId]
      rfl
    · intro ref named
      exact resolve_of_byName refines named byName
  · intro id cred written
    rw [← tracks id] at written
    obtain ⟨row, found, -⟩ := Option.map_eq_some_iff.mp written
    obtain ⟨among, named⟩ := (find?_key_eq_some t.ids).mp found
    have listed : id ∈ h.rows.map SealedRow.id := refines.ids ▸ List.mem_map.mpr ⟨row, among, named⟩
    obtain ⟨sealed, member, same⟩ := List.mem_map.mp listed
    exact ⟨sealed, member, same⟩

end Run

/-- Over every sequence of requests the rows give back what was last written to them; opening never panics, and fails on
what was not sealed under the key. -/
theorem credentials_come_back {Key : Type} (aead : Aead Key) (texts : JsonText Bytes) (key : Key) :
    (∀ calls, (History.run aead texts key calls).Survives aead texts key) ∧
      (∀ sealed, (unsealBytes aead key sealed).isSome = true) ∧
      (∀ sealed, (∀ nonce plaintext, sealBytes aead key nonce plaintext ≠ .ok sealed) →
        ∃ e, unsealBytes aead key sealed = some (.error e)) ∧
      ∀ sealed : Bytes, sealed.length < sealNonceLen →
        unsealBytes aead key sealed = some (.error .truncatedPayload) :=
  ⟨fun calls => survives_of_modelled (modelled_run calls), unseal_returns aead key, fun _ => unseal_rejects,
    fun _ => unseal_short⟩

end Daimon.Proof.Vault.Sealed
