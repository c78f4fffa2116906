import Daimon.Lib.Serde
import Daimon.Vault.Store

/-!
# Sealed credentials

`daimon-vault/src/sealed.rs`, the payload of `credential.rs` and the statements of `postgres_client.rs` on the columns
themselves: the kind is a text, and the payload the sealed bytes of a JSON text. The cipher and the JSON library are
parameters.
-/

namespace Daimon.Vault.Sealed
open Daimon.Core Daimon.Broker Lib

abbrev Bytes := List UInt8

/-! ## Sealing -/

def sealNonceLen : Nat := 24

/-- An `XNonce`. -/
structure Nonce where
  bytes : Bytes
  length_bytes : bytes.length = sealNonceLen
  deriving DecidableEq

/-- The cipher opens what it sealed under the same key and nonce, and rejects everything else. -/
structure Aead (Key : Type) where
  encrypt : Key → Nonce → Bytes → Option Bytes
  decrypt : Key → Nonce → Bytes → Option Bytes
  opens : ∀ key nonce plaintext ciphertext,
    encrypt key nonce plaintext = some ciphertext → decrypt key nonce ciphertext = some plaintext
  rejects : ∀ key nonce plaintext ciphertext,
    decrypt key nonce ciphertext = some plaintext → encrypt key nonce plaintext = some ciphertext

/-- A cipher on which the model can be run: it writes the key and the nonce in front of the text. -/
def Aead.labelling : Aead UInt8 where
  encrypt key nonce plaintext := some (key :: (nonce.bytes ++ plaintext))
  decrypt key nonce ciphertext :=
    if key :: nonce.bytes <+: ciphertext then some (ciphertext.drop (sealNonceLen + 1)) else none
  opens key nonce plaintext ciphertext encrypted := by
    cases encrypted
    have label : (key :: nonce.bytes).length = sealNonceLen + 1 := by rw [List.length_cons, nonce.length_bytes]
    rw [← List.cons_append, if_pos (List.prefix_append _ _), ← label, List.drop_left]
  rejects key nonce plaintext ciphertext decrypted := by
    have label : (key :: nonce.bytes).length = sealNonceLen + 1 := by rw [List.length_cons, nonce.length_bytes]
    split_ifs at decrypted with front
    obtain ⟨rest, rfl⟩ := front
    rw [← label, List.drop_left] at decrypted
    cases decrypted
    rfl

/-- What `aead::Error` says. -/
def aeadError : String := "aead::Error"

inductive SealError where
  | truncatedPayload
  | encrypt (message : String)
  | decrypt (message : String)
  deriving DecidableEq, Repr

def SealError.display : SealError → String
  | .truncatedPayload => "sealed payload truncated below nonce length"
  | .encrypt message => "encryption failed: " ++ message
  | .decrypt message => "decryption failed (wrong key or tampered payload): " ++ message

/-- `split_at`; none is a panic. -/
def splitAt? (bytes : Bytes) (n : Nat) : Option (Bytes × Bytes) :=
  if n ≤ bytes.length then some (bytes.take n, bytes.drop n) else none

/-- `XNonce::from_slice`; none is a panic. -/
def Nonce.fromSlice? (bytes : Bytes) : Option Nonce :=
  if h : bytes.length = sealNonceLen then some ⟨bytes, h⟩ else none

section Seal
variable {Key : Type} (aead : Aead Key) (key : Key)

/-- `seal`, with the nonce that is drawn for the call. -/
def sealBytes (nonce : Nonce) (plaintext : Bytes) : Except SealError Bytes :=
  match aead.encrypt key nonce plaintext with
  | some ciphertext => .ok (nonce.bytes ++ ciphertext)
  | none => .error (.encrypt aeadError)

/-- `unseal`; none is a panic. -/
def unsealBytes (sealed : Bytes) : Option (Except SealError Bytes) :=
  if sealed.length < sealNonceLen then some (.error .truncatedPayload)
  else do
    let (nonceBytes, ciphertext) ← splitAt? sealed sealNonceLen
    let nonce ← Nonce.fromSlice? nonceBytes
    match aead.decrypt key nonce ciphertext with
    | some plaintext => some (.ok plaintext)
    | none => some (.error (.decrypt aeadError))

end Seal

/-! ## The payload -/

/-- The fields of a `BTreeMap` stand in the order of their keys. -/
def Ordered : Credential → Prop
  | .generic fields => (fields.map Prod.fst).Pairwise (· < ·)
  | _ => True

instance : DecidablePred Ordered
  | .generic fields => inferInstanceAs (Decidable ((fields.map Prod.fst).Pairwise (· < ·)))
  | .sshKey _ _ _ | .sshPassword _ _ | .apiToken _ => isTrue trivial

abbrev OrderedCredential := { cred : Credential // Ordered cred }

/-- An absent passphrase is skipped. -/
def Credential.toValue : Credential → Json
  | .sshKey username privateKeyPem none =>
      .ofFields [("kind", .string "ssh_key"), ("username", .string username),
        ("private_key_pem", .string privateKeyPem)]
  | .sshKey username privateKeyPem (some passphrase) =>
      .ofFields [("kind", .string "ssh_key"), ("username", .string username),
        ("private_key_pem", .string privateKeyPem), ("passphrase", .string passphrase)]
  | .sshPassword username password =>
      .ofFields [("kind", .string "ssh_password"), ("username", .string username), ("password", .string password)]
  | .apiToken token => .ofFields [("kind", .string "api_token"), ("token", .string token)]
  | .generic fields =>
      .ofFields [("kind", .string "generic"), ("fields", .object (fields.map fun field => (field.1, .string field.2)))]

def stringField (v : Json) (key : String) : Option String := (v.get? key).bind Json.asStr?

/-- Absent and `null` are both none. -/
def optionalField (v : Json) (key : String) : Option (Option String) :=
  match v.get? key with
  | none | some .null => some none
  | some value => value.asStr?.map some

def mapField (v : Json) (key : String) : Option (List (String × String)) :=
  match v.get? key with
  | some (.object fields) => fields.mapM fun field => field.2.asStr?.map fun value => (field.1, value)
  | _ => none

/-- The variant is the one that the tag names. -/
def Credential.fromValue (v : Json) : Option Credential := do
  match ← stringField v "kind" with
  | "ssh_key" =>
      return .sshKey (← stringField v "username") (← stringField v "private_key_pem") (← optionalField v "passphrase")
  | "ssh_password" => return .sshPassword (← stringField v "username") (← stringField v "password")
  | "api_token" => return .apiToken (← stringField v "token")
  | "generic" => return .generic (← mapField v "fields")
  | _ => none

def kindToStr : CredentialKind → String
  | .sshKey => "SshKey"
  | .sshPassword => "SshPassword"
  | .apiToken => "ApiToken"
  | .generic => "Generic"

/-! ## Rows -/

structure SealedRow where
  id : Uuid
  name : String
  kind : String
  payloadSealed : Bytes
  deriving DecidableEq

/-- Whether the call that sends a statement gets its answer. A statement that is not answered may have taken effect or
not. -/
inductive Reply where
  | answered
  | failed (error : VaultError)
  | lost (error : VaultError)
  deriving DecidableEq, Repr

/-- What a client asks for, with what is drawn for it: the nonce, and the id that the database gives a new row. -/
inductive Request where
  | create (nonce : Nonce) (id : Uuid) (name : String) (cred : OrderedCredential)
  | update (nonce : Nonce) (id : Uuid) (cred : OrderedCredential)
  | rename (id : Uuid) (newName : String)
  | delete (id : Uuid)

structure Call where
  request : Request
  reply : Reply

namespace SealedRows

def byName (rows : List SealedRow) (name : String) : Option SealedRow := rows.find? fun r => r.name = name

def byId (rows : List SealedRow) (id : Uuid) : Option SealedRow := rows.find? fun r => r.id = id

/-- None where the primary key or the unique index refuses the row. -/
def insert (rows : List SealedRow) (row : SealedRow) : Option (List SealedRow) :=
  if row.id ∉ rows.map SealedRow.id ∧ row.name ∉ rows.map SealedRow.name then some (row :: rows) else none

def setPayload (rows : List SealedRow) (id : Uuid) (kind : String) (sealed : Bytes) : List SealedRow :=
  rows.map fun r => if r.id = id then { r with kind := kind, payloadSealed := sealed } else r

def setName (rows : List SealedRow) (id : Uuid) (newName : String) : Option (List SealedRow) :=
  let renamed := rows.map fun r => if r.id = id then { r with name := newName } else r
  if (renamed.map SealedRow.name).Nodup then some renamed else none

def erase (rows : List SealedRow) (id : Uuid) : List SealedRow := rows.filter fun r => r.id ≠ id

end SealedRows

/-! ## The client -/

section Client
variable {Key : Type} (aead : Aead Key) (texts : JsonText Bytes) (key : Key)

def sealCredential (nonce : Nonce) (cred : Credential) : Except VaultError Bytes :=
  match sealBytes aead key nonce (texts.encode (Credential.toValue cred)) with
  | .ok sealed => .ok sealed
  | .error e => .error (.other ("seal: " ++ e.display))

/-- What a request has sealed before it asks for a connection; nothing where it writes no payload. -/
def Request.payload : Request → Except VaultError Bytes
  | .create nonce _ _ cred => sealCredential aead texts key nonce cred.val
  | .update nonce _ cred => sealCredential aead texts key nonce cred.val
  | .rename _ _ | .delete _ => .ok []

/-- The table after the request's statement, or the error of the call. -/
def Request.statement (rows : List SealedRow) (sealed : Bytes) : Request → Except VaultError (List SealedRow)
  | .create _ id name cred =>
      match SealedRows.insert rows ⟨id, name, kindToStr cred.val.kind, sealed⟩ with
      | some rows => .ok rows
      | none => .error (.transport ("insert: " ++ dbError))
  | .update _ id cred =>
      match SealedRows.byId rows id with
      | some _ => .ok (SealedRows.setPayload rows id (kindToStr cred.val.kind) sealed)
      | none => .error (.notFound id.hyphenated)
  | .rename id newName =>
      match SealedRows.byId rows id with
      | none => .error (.notFound id.hyphenated)
      | some _ =>
          match SealedRows.setName rows id newName with
          | some rows => .ok rows
          | none => .error (.transport ("rename: " ++ dbError))
  | .delete id =>
      match SealedRows.byId rows id with
      | some _ => .ok (SealedRows.erase rows id)
      | none => .error (.notFound id.hyphenated)

/-- `create` returns the id of the new row. -/
def Request.answer : Request → Option Uuid
  | .create _ id _ _ => some id
  | .update _ _ _ | .rename _ _ | .delete _ => none

/-- The table after a call, and what the call returns. -/
def Call.perform (rows : List SealedRow) (call : Call) : List SealedRow × Except VaultError (Option Uuid) :=
  match call.request.payload aead texts key with
  | .error e => (rows, .error e)
  | .ok sealed =>
      match call.reply, call.request.statement rows sealed with
      | .failed e, _ => (rows, .error e)
      | _, .error e => (rows, .error e)
      | .answered, .ok rows => (rows, .ok call.request.answer)
      | .lost e, .ok rows => (rows, .error e)

/-- None is a panic. -/
def openPayload (sealed : Bytes) : Option (Except VaultError Credential) :=
  (unsealBytes aead key sealed).map fun
    | .error e => .error (.other ("unseal: " ++ e.display))
    | .ok blob =>
        match texts.decode blob with
        | .error e => .error (.other ("decode: " ++ e))
        | .ok v =>
            match Credential.fromValue v with
            | some cred => .ok cred
            | none => .error (.other ("decode: " ++ texts.shapeError blob))

def reveal (rows : List SealedRow) (id : Uuid) : Option (Except VaultError Credential) :=
  match SealedRows.byId rows id with
  | some row => openPayload aead texts key row.payloadSealed
  | none => some (.error (.notFound id.hyphenated))

/-- `resolve` of a reference whose name the cache does not have. -/
def resolveUncached (rows : List SealedRow) (ref : CredentialRef) : Option (Except VaultError Credential) :=
  match ref.name.bind (SealedRows.byName rows) with
  | some row => openPayload aead texts key row.payloadSealed
  | none => some (.error (.notFound ref.display))

end Client
end Daimon.Vault.Sealed
