import Daimon.App.Iam
import Daimon.Broker.Admin

/-!
# The pages of the vault and the inventory

The server functions of `admin_credentials.rs` and `admin_targets.rs`: each passes the admin gate and forwards to the
broker. Any number of them run interleaved with logins and the other requests; the client of each may go away while it
waits. A name that is no target reference, which is refused before the broker, is left out.
-/

namespace Daimon.App.AdminPages
open Daimon.Core Daimon.Broker Daimon.Broker.Admin Lib

structure Config where
  vaultAdmin : Bool
  audit : Bool
  collation : String → String → Bool

inductive Phase where
  | authenticate (token : Nat)
  | execute (claims : Claims)
  | append (claims : Claims) (entry : Entry) (result : Except Failure Value)
  /-- `logged` is what the call has left in the trail, if it has. -/
  | returned (claims : Claims) (result : Except Failure Value) (logged : Option Entry)
  | dropped (logged : Option Entry)
  | failed (message : String)

structure Call where
  op : AdminOp
  phase : Phase

structure World where
  server : Server
  stores : Stores
  trail : List Entry
  calls : List Call

namespace World

def new (now : Nat) (db : Directory) (stores : Stores) : World := ⟨.new now db, stores, [], []⟩

/-! ## One call -/

/-- What a call goes on with. A statement whose answer is lost, or waited for by nobody, took effect. -/
inductive Answer where
  | done
  | answered (id : Uuid) (latencyMs : Nat)
  | failed (error : Failure) (latencyMs : Nat)
  | lost (id : Uuid) (error : Failure) (latencyMs : Nat)
  | unlogged
  | drop
  | dropLate (id : Uuid)
  deriving DecidableEq

structure Effect where
  stores : Stores
  logged : Option Entry
  phase : Phase

def adminBackendNotAvailable : String :=
  "admin backend `vault` not available — broker constructed without production admin wiring"

variable (config : Config)

def opened (op : AdminOp) (claims : Claims) : Phase :=
  if op.isVault && !config.vaultAdmin then .failed (op.method ++ ": " ++ adminBackendNotAvailable) else .execute claims

/-- The result of the statement, and the event of it unless there is no sink. -/
def audited (op : AdminOp) (claims : Claims) (latencyMs : Nat) (result : Except Failure Value) : Phase :=
  if config.audit then .append claims (op.entry claims.sub result latencyMs) result else .returned claims result none

def refusal (w : World) (token : Nat) : String :=
  if (w.server.authenticate token).isSome then "forbidden" else "unauthenticated"

def stepCall (w : World) (op : AdminOp) : Phase → Answer → Option Effect
  | .authenticate token, .done =>
      match w.server.pass token .admin with
      | some claims => some ⟨w.stores, none, opened config op claims⟩
      | none => some ⟨w.stores, none, .failed (w.refusal token)⟩
  -- the lookup of the session fails
  | .authenticate _, .unlogged => some ⟨w.stores, none, .failed "unauthenticated"⟩
  | .execute claims, .answered id latencyMs =>
      match op.execute config.collation w.stores id with
      | .ok (value, stores) => some ⟨stores, none, audited config op claims latencyMs (.ok value)⟩
      | .error e => some ⟨w.stores, none, audited config op claims latencyMs (.error e)⟩
  | .execute claims, .failed e latencyMs =>
      if op.mayFail e then some ⟨w.stores, none, audited config op claims latencyMs (.error e)⟩ else none
  | .execute claims, .lost id e latencyMs =>
      match op.execute config.collation w.stores id with
      | .ok (_, stores) =>
          if op.mayFail e then some ⟨stores, none, audited config op claims latencyMs (.error e)⟩ else none
      | .error _ => none
  | .execute _, .dropLate id =>
      match op.execute config.collation w.stores id with
      | .ok (_, stores) => some ⟨stores, none, .dropped none⟩
      | .error _ => none
  | .append claims entry result, .done => some ⟨w.stores, some entry, .returned claims result (some entry)⟩
  | .append claims _ result, .unlogged => some ⟨w.stores, none, .returned claims result none⟩
  | .append _ entry _, .dropLate _ => some ⟨w.stores, some entry, .dropped (some entry)⟩
  | .authenticate _, .drop | .execute _, .drop | .append _ _ _, .drop => some ⟨w.stores, none, .dropped none⟩
  | _, _ => none

/-! ## All calls -/

inductive Action where
  | server (action : Server.Action)
  | request (token : Nat) (op : AdminOp)
  | step (i : Nat) (answer : Answer)

def apply (w : World) (i : Nat) (op : AdminOp) (effect : Effect) : World :=
  { w with
    stores := effect.stores
    trail := w.trail ++ effect.logged.toList
    calls := w.calls.set i ⟨op, effect.phase⟩ }

variable (verifyPassword : String → String → Bool)

def step (w : World) : Action → Option World
  | .server action => (w.server.step verifyPassword action).map fun server => { w with server }
  | .request token op => some { w with calls := w.calls ++ [⟨op, .authenticate token⟩] }
  | .step i answer =>
      match w.calls[i]? with
      | some call => (w.stepCall config call.op call.phase answer).map (w.apply i call.op)
      | none => none

end World
end Daimon.App.AdminPages
