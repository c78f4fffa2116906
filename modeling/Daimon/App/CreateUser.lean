import Daimon.App.Users
import Daimon.Audit.PostgresSink

/-!
# Creating a user

`create_user` of `daimon-app/src/db.rs`, statement by statement, on a connection that may fail at each of them. An
error is its outermost context.
-/

namespace Daimon.App
open Daimon.Core
open Daimon.Audit (storable)

/-- What becomes of a statement: the answer arrives, it fails before it takes effect, or only its answer is lost. -/
inductive Fate where
  | answered
  | refused
  | lost
  deriving DecidableEq, Repr

/-- What the database makes of a statement with these texts: no text holds a NUL, and no constraint is broken. -/
def effect (texts : List String) (statement : Directory → Option Directory) (db : Directory) : Option Directory :=
  if texts.all storable then statement db else none

/-- The tables after the statement, and whether the client takes it for done. -/
def perform (fate : Fate) (texts : List String) (statement : Directory → Option Directory) (db : Directory) :
    Directory × Bool :=
  match fate, effect texts statement db with
  | .refused, _ => (db, false)
  | _, none => (db, false)
  | .answered, some db' => (db', true)
  | .lost, some db' => (db', false)

example (statement : Directory → Option Directory) (db : Directory) :
    perform .refused [] statement db = (db, false) := by
  simp only [perform]

/-- The loop over the slugs, whose grant statements begin with the one numbered `n`. -/
def grantRoles (fate : Nat → Fate) (userId : Uuid) (username : String) :
    Nat → List String → Directory → Directory × Except String Uuid
  | _, [], db => (db, .ok userId)
  | n, slug :: rest, db =>
      match perform (fate n) [slug] (fun db => db.assignRole userId slug) db with
      | (db, true) => grantRoles fate userId username (n + 1) rest db
      | (db, false) => (db, .error ("grant " ++ slug ++ " to " ++ username))

/-- `id` is the one that the database draws for the row. -/
def createUser (pool : Bool) (fate : Nat → Fate) (id : Uuid) (username passwordHash : String) (roles : List String)
    (db : Directory) : Directory × Except String Uuid :=
  if pool then
    match perform (fate 0) [username, passwordHash] (fun db => db.insertUser id username passwordHash) db with
    | (db, true) => grantRoles fate id username 1 roles db
    | (db, false) => (db, .error ("create user " ++ username))
  else (db, .error "pg client")

end Daimon.App
