import Daimon.App.Users
import Daimon.Lib.Run
import Daimon.Lib.Text

/-!
# Login, requests and the admin pages

`login_action`, the gates of `auth_guard.rs`, the mutations of `iam.rs` and the chat socket of `ws.rs`, in any
number and interleaved. A token is what a login handed out: without the secret no other text validates. The check of
a password is `bcrypt`'s.
-/

namespace Daimon.App
open Daimon.Core Lib

structure Claims where
  sub : String
  userId : Uuid
  role : String
  roles : List String
  exp : Nat
  sessionId : String
  deriving DecidableEq

/-- In seconds, of a session and of a token. -/
def lifetime : Nat := 86400

/-- The leeway that `jsonwebtoken` allows on `exp`. -/
def leeway : Nat := 60

def createJwt (now : Nat) (username : String) (userId : Uuid) (roles : List String) (sessionId : String) : Claims where
  sub := username
  userId
  role := roles.head?.getD "operator"
  roles
  exp := now + lifetime
  sessionId

/-! ## Gates -/

inductive Gate where
  | authenticated
  | admin
  | role (slug : String)
  | approver
  deriving DecidableEq

def Gate.satisfiedBy : Gate → String → Bool
  | .authenticated, _ => false
  | .admin, r => r == "admin"
  | .role slug, r => r == slug || (slug == "operator" && r == "admin")
  | .approver, r => r == "approver" || r == "admin"

def Gate.passes (gate : Gate) (claims : Claims) : Bool := gate == .authenticated || claims.roles.any gate.satisfiedBy

/-! ## Requests of an admin -/

inductive AdminRequest where
  | createUser (username password : String) (roles : List String)
  | setUserStatus (userId : Uuid) (status : String)
  | assignRole (userId : Uuid) (slug : String)
  | revokeRole (userId : Uuid) (slug : String)
  deriving DecidableEq

/-- The user that the last-admin guard counts without. -/
def AdminRequest.guarded : AdminRequest → Option Uuid
  | .setUserStatus userId status => if status = "disabled" then some userId else none
  | .revokeRole userId slug => if slug = "admin" then some userId else none
  | _ => none

def AdminRequest.refusal : AdminRequest → String
  | .revokeRole _ _ => "cannot revoke the last enabled admin"
  | _ => "cannot disable the last enabled admin"

def AdminRequest.invalid : AdminRequest → Option String
  | .createUser username password _ =>
      if trim username = "" then some "username is required"
      else if password = "" then some "password is required"
      else none
  | _ => none

/-- The statement of the request, `none` where the database refuses it. `create_user` has several. -/
def AdminRequest.execute (db : Directory) : AdminRequest → Option Directory
  | .setUserStatus userId status => db.setUserStatus userId status
  | .assignRole userId slug => db.assignRole userId slug
  | .revokeRole userId slug => some (db.revokeRole userId slug)
  | .createUser _ _ _ => none

/-! ## Calls -/

inductive Login where
  | find
  | insert (row : UserRow)
  | returned (token : Nat)
  | failed (message : String)

inductive AdminPhase where
  | authenticate (token : Nat)
  | count (userId : Uuid)
  | write
  | granting (userId : Uuid) (slugs : List String)
  | returned
  | failed (message : String)

def AdminRequest.opened (request : AdminRequest) : AdminPhase :=
  match request.invalid, request.guarded with
  | some message, _ => .failed message
  | none, some userId => .count userId
  | none, none => .write

inductive Call where
  | login (username password : String) (phase : Login)
  | admin (request : AdminRequest) (phase : AdminPhase)

/-- `sockets` are the open chat sockets, each with the claims it was opened with. -/
structure Server where
  now : Nat
  db : Directory
  tokens : List Claims
  sockets : List (Option Claims)
  calls : List Call

namespace Server

def new (now : Nat) (db : Directory) : Server := { now, db, tokens := [], sockets := [], calls := [] }

/-- `authenticate_headers`: the token validates and its session is alive. -/
def authenticate (w : Server) (token : Nat) : Option Claims :=
  match w.tokens[token]? with
  | some claims =>
      if w.now ≤ claims.exp + leeway then
        if (w.db.findValidSession w.now claims.sessionId).isSome then some claims else none
      else none
  | none => none

def pass (w : Server) (token : Nat) (gate : Gate) : Option Claims :=
  (w.authenticate token).filter gate.passes

/-! ## One call -/

/-- What a call goes on with; `lost` where the statement took effect and its answer did not come back. -/
inductive Answer where
  | done
  | inserted (id : Uuid) (passwordHash : String)
  | session (id : String)
  | failed (message : String)
  | lost (message : String)
  deriving DecidableEq

structure Effect where
  db : Directory
  issued : Option Claims
  call : Call

variable (verifyPassword : String → String → Bool)

def stepLogin (w : Server) (username password : String) : Login → Answer → Option Effect
  | .find, .done =>
      match w.db.findUser username with
      | some row =>
          if row.user.status = .active ∧ verifyPassword password row.user.passwordHash = true then
            some ⟨w.db, none, .login username password (.insert row)⟩
          else some ⟨w.db, none, .login username password (.failed "Invalid credentials")⟩
      | none => some ⟨w.db, none, .login username password (.failed "Invalid credentials")⟩
  | .find, .failed e => some ⟨w.db, none, .login username password (.failed ("find_user: " ++ e))⟩
  | .insert row, .session id =>
      -- 32 random bytes: no id comes twice
      if w.tokens.any fun claims => claims.sessionId = id then none
      else
        match w.db.insertSession ⟨id, row.user.id, w.now + lifetime⟩ with
        | some db =>
            some ⟨db, some (createJwt w.now username row.user.id row.roles id),
              .login username password (.returned w.tokens.length)⟩
        | none => none
  | .insert _, .failed e => some ⟨w.db, none, .login username password (.failed ("insert_session: " ++ e))⟩
  | _, _ => none

def stepAdmin (w : Server) (request : AdminRequest) : AdminPhase → Answer → Option Effect
  | .authenticate token, .done =>
      match w.pass token .admin with
      | some _ => some ⟨w.db, none, .admin request request.opened⟩
      | none =>
          let message := if (w.authenticate token).isSome then "forbidden" else "unauthenticated"
          some ⟨w.db, none, .admin request (.failed message)⟩
  | .count userId, .done =>
      if w.db.enabledAdminCountExcluding userId = 0 then some ⟨w.db, none, .admin request (.failed request.refusal)⟩
      else some ⟨w.db, none, .admin request .write⟩
  | .write, .done => (request.execute w.db).map fun db => ⟨db, none, .admin request .returned⟩
  | .write, .lost e => (request.execute w.db).map fun db => ⟨db, none, .admin request (.failed e)⟩
  | .write, .inserted id passwordHash =>
      match request with
      | .createUser username _ slugs =>
          (w.db.insertUser id username passwordHash).map fun db => ⟨db, none, .admin request (.granting id slugs)⟩
      | _ => none
  | .granting _ [], .done => some ⟨w.db, none, .admin request .returned⟩
  | .granting userId (slug :: slugs), .done =>
      (w.db.assignRole userId slug).map fun db => ⟨db, none, .admin request (.granting userId slugs)⟩
  | .count _, .failed e | .write, .failed e | .granting _ _, .failed e =>
      some ⟨w.db, none, .admin request (.failed e)⟩
  | _, _ => none

def stepCall (w : Server) (answer : Answer) : Call → Option Effect
  | .login username password phase => w.stepLogin verifyPassword username password phase answer
  | .admin request phase => w.stepAdmin request phase answer

/-! ## The server -/

inductive Action where
  | request (token : Nat) (gate : Gate)
  | logout (token : Nat)
  | upgrade (token : Nat)
  | chat (socket : Nat)
  | close (socket : Nat)
  | login (username password : String)
  | admin (token : Nat) (request : AdminRequest)
  | step (i : Nat) (answer : Answer)
  | tick (seconds : Nat)
  deriving DecidableEq

def start (w : Server) (call : Call) : Server := { w with calls := w.calls ++ [call] }

def apply (w : Server) (i : Nat) (effect : Effect) : Server :=
  { w with db := effect.db, tokens := w.tokens ++ effect.issued.toList, calls := w.calls.set i effect.call }

def step (w : Server) : Action → Option Server
  | .request token gate => (w.pass token gate).map fun _ => w
  | .logout token => (w.authenticate token).map fun claims => { w with db := w.db.deleteSession claims.sessionId }
  | .upgrade token => (w.authenticate token).map fun claims => { w with sockets := w.sockets ++ [some claims] }
  | .chat socket => (w.sockets[socket]?.bind id).map fun _ => w
  | .close socket => some { w with sockets := w.sockets.set socket none }
  | .login username password => some (w.start (.login username password .find))
  | .admin token request => some (w.start (.admin request (.authenticate token)))
  | .step i answer => (w.calls[i]?.bind (w.stepCall verifyPassword answer)).map (w.apply i)
  | .tick seconds => some { w with now := w.now + seconds }

/-- Whom the server takes the action to come from, and the gate it passes. -/
def authorises (w : Server) : Action → Option (Claims × Gate)
  | .request token gate => (w.pass token gate).map fun claims => (claims, gate)
  | .logout token | .upgrade token => (w.authenticate token).map fun claims => (claims, .authenticated)
  | .chat socket => (w.sockets[socket]?.bind id).map fun claims => (claims, .authenticated)
  | .step i .done =>
      match w.calls[i]? with
      | some (.admin _ (.authenticate token)) => (w.pass token .admin).map fun claims => (claims, .admin)
      | _ => none
  | _ => none

end Server
end Daimon.App
