import Daimon.Lib.Lru
import Daimon.Lib.Run
import Daimon.Vault.Store

/-!
# `PostgresVaultClient`

Any number of calls on one client, interleaved. `resolve` looks into the cache, reads the row and fills the
cache; `update`, `rename` and `delete` write the row and clear the cache. Each of these is one step under the lock
of the cache or in the database, and anything may happen between two of them.
-/

namespace Daimon.Vault
open Daimon.Core Daimon.Broker Lib

structure CacheEntry where
  cred : Credential
  insertedAt : Nat
  deriving DecidableEq

abbrev defaultCacheSize : Nat := 64

/-- In nanoseconds. -/
def defaultCacheTtl : Nat := 300 * 1000000000

abbrev Cache := Lru String CacheEntry defaultCacheSize

/-- A statement that took effect: the names it touched, and the place of its outcome among the contents that
the table has had. -/
structure Write where
  names : List String
  version : Nat
  deriving DecidableEq

inductive Resolve where
  | lookup
  | query
  | fill (cred : Credential) (version : Nat)
  | returned (result : Except VaultError Credential)
  | dropped

inductive Mutate where
  | write
  | invalidate (write : Write)
  | returned (write : Write)
  | failed (error : VaultError)
  | dropped

inductive Create where
  | insert
  | returned (result : Except VaultError Uuid)
  | dropped

inductive Call where
  | unnamed (ref : CredentialRef)
  | resolve (ref : CredentialRef) (name : String) (phase : Resolve)
  | create (name : String) (cred : Credential) (phase : Create)
  | mutate (mutation : Mutation) (phase : Mutate)

/-- `past` holds the contents that the table had before, oldest first. -/
structure Client where
  now : Nat
  past : List Credentials
  table : Credentials
  cache : Cache
  calls : List Call

namespace Client

def new (now : Nat) (table : Credentials) : Client := { now, past := [], table, cache := .empty, calls := [] }

def version (c : Client) : Nat := c.past.length

def contents (c : Client) : List Credentials := c.past ++ [c.table]

/-! ## One call -/

/-- What a call goes on with. Where an answer is lost, the statement took effect and the call does not learn it. -/
inductive Answer where
  | lock
  | row
  | inserted (id : Uuid)
  | written
  | failed (error : VaultError)
  | insertedLost (id : Uuid) (error : VaultError)
  | writtenLost (error : VaultError)
  | drop

/-- `stored` is the new content of the table, where the step writes one. -/
structure Effect where
  stored : Option Credentials
  cache : Cache
  call : Call

def lookup (c : Client) (ref : CredentialRef) (name : String) : Effect :=
  match c.cache.get name with
  | (some entry, cache) =>
      if c.now - entry.insertedAt < defaultCacheTtl then
        ⟨none, cache, .resolve ref name (.returned (.ok entry.cred))⟩
      else ⟨none, cache.pop name, .resolve ref name .query⟩
  | (none, cache) => ⟨none, cache, .resolve ref name .query⟩

def query (c : Client) (ref : CredentialRef) (name : String) : Effect :=
  match c.table.byName name with
  | some row => ⟨none, c.cache, .resolve ref name (.fill row.payload c.version)⟩
  | none => ⟨none, c.cache, .resolve ref name (.returned (.error (.notFound ref.display)))⟩

def stepResolve (c : Client) (ref : CredentialRef) (name : String) : Resolve → Answer → Option Effect
  | .lookup, .lock => some (c.lookup ref name)
  | .query, .row => some (c.query ref name)
  -- the pool, the query, the seal or the decoding
  | .query, .failed e => some ⟨none, c.cache, .resolve ref name (.returned (.error e))⟩
  | .fill cred _, .lock =>
      some ⟨none, c.cache.put name ⟨cred, c.now⟩, .resolve ref name (.returned (.ok cred))⟩
  | .lookup, .drop | .query, .drop | .fill _ _, .drop => some ⟨none, c.cache, .resolve ref name .dropped⟩
  | _, _ => none

def stepCreate (c : Client) (name : String) (cred : Credential) : Create → Answer → Option Effect
  | .insert, .inserted id =>
      match Vault.create c.table id name cred with
      | .ok table => some ⟨some table, c.cache, .create name cred (.returned (.ok id))⟩
      | .error e => some ⟨none, c.cache, .create name cred (.returned (.error e))⟩
  | .insert, .failed e => some ⟨none, c.cache, .create name cred (.returned (.error e))⟩
  | .insert, .insertedLost id e =>
      match Vault.create c.table id name cred with
      | .ok table => some ⟨some table, c.cache, .create name cred (.returned (.error e))⟩
      | .error _ => none
  | .insert, .drop => some ⟨none, c.cache, .create name cred .dropped⟩
  | _, _ => none

def stepMutate (c : Client) (m : Mutation) : Mutate → Answer → Option Effect
  | .write, .written =>
      match m.execute c.table with
      | .ok table => some ⟨some table, c.cache, .mutate m (.invalidate ⟨m.names c.table, c.version + 1⟩)⟩
      | .error e => some ⟨none, c.cache, .mutate m (.failed e)⟩
  | .write, .failed e => some ⟨none, c.cache, .mutate m (.failed e)⟩
  | .write, .writtenLost e =>
      match m.execute c.table with
      | .ok table => some ⟨some table, c.cache, .mutate m (.failed e)⟩
      | .error _ => none
  | .invalidate write, .lock => some ⟨none, .empty, .mutate m (.returned write)⟩
  | .write, .drop | .invalidate _, .drop => some ⟨none, c.cache, .mutate m .dropped⟩
  | _, _ => none

def stepCall (c : Client) (answer : Answer) : Call → Option Effect
  | .unnamed _ => none
  | .resolve ref name phase => c.stepResolve ref name phase answer
  | .create name cred phase => c.stepCreate name cred phase answer
  | .mutate m phase => c.stepMutate m phase answer

/-! ## All calls -/

inductive Action where
  | resolve (ref : CredentialRef)
  | create (name : String) (cred : Credential)
  | mutate (mutation : Mutation)
  | elapse (nanos : Nat)
  | step (i : Nat) (answer : Answer)

def start (c : Client) (call : Call) : Client := { c with calls := c.calls ++ [call] }

def apply (c : Client) (i : Nat) (effect : Effect) : Client :=
  match effect.stored with
  | some table =>
      { c with past := c.past ++ [c.table], table, cache := effect.cache, calls := c.calls.set i effect.call }
  | none => { c with cache := effect.cache, calls := c.calls.set i effect.call }

def step (c : Client) : Action → Option Client
  | .resolve ref =>
      match ref.name with
      | some name => some (c.start (.resolve ref name .lookup))
      | none => some (c.start (.unnamed ref))
  | .create name cred => some (c.start (.create name cred .insert))
  | .mutate m => some (c.start (.mutate m .write))
  | .elapse nanos => some { c with now := c.now + nanos }
  | .step i answer => (c.calls[i]?.bind (c.stepCall answer)).map (c.apply i)

end Client
end Daimon.Vault
