import Daimon.Core.Capability

/-!
# Users, roles and sessions

The tables of `daimon-app/src/db.rs` behind login and the admin pages, and the statements on them. Each statement,
and the transaction of `set_user_status`, takes effect at once.
-/

namespace Daimon.App
open Daimon.Core

inductive Status where
  | active
  | disabled
  | locked
  deriving DecidableEq, Repr

def Status.ofText? : String → Option Status
  | "active" => some .active
  | "disabled" => some .disabled
  | "locked" => some .locked
  | _ => none

structure User where
  id : Uuid
  username : String
  passwordHash : String
  status : Status
  deriving DecidableEq

structure Session where
  id : String
  userId : Uuid
  expiresAt : Nat
  deriving DecidableEq

/-- A role stands with its slug, which is unique; `roles` are in the order is_system DESC, slug. -/
structure Directory where
  users : List User
  ids : (users.map User.id).Nodup
  usernames : (users.map User.username).Nodup
  roles : List String
  grants : List (Uuid × String)
  sessions : List Session

structure UserRow where
  user : User
  roles : List String
  deriving DecidableEq

namespace Directory

def hasUser (db : Directory) (id : Uuid) : Bool := db.users.any fun u => u.id = id

def isActive (db : Directory) (id : Uuid) : Bool := db.users.any fun u => u.id = id && u.status = .active

def rolesOf (db : Directory) (id : Uuid) : List String := db.roles.filter fun slug => (id, slug) ∈ db.grants

def findUser (db : Directory) (username : String) : Option UserRow :=
  (db.users.find? fun u => u.username = username).map fun user => { user, roles := db.rolesOf user.id }

/-! ## Accounts -/

def insertUser (db : Directory) (id : Uuid) (username passwordHash : String) : Option Directory :=
  if fresh : id ∉ db.users.map User.id ∧ username ∉ db.users.map User.username then
    some { db with
      users := ⟨id, username, passwordHash, .active⟩ :: db.users
      ids := List.nodup_cons.mpr ⟨fresh.1, db.ids⟩
      usernames := List.nodup_cons.mpr ⟨fresh.2, db.usernames⟩ }
  else none

def withStatus (id : Uuid) (status : Status) (u : User) : User := if u.id = id then { u with status } else u

@[simp] theorem withStatus_id (id : Uuid) (status : Status) (u : User) : (withStatus id status u).id = u.id := by
  unfold withStatus
  split <;> rfl

@[simp] theorem withStatus_username (id : Uuid) (status : Status) (u : User) :
    (withStatus id status u).username = u.username := by
  unfold withStatus
  split <;> rfl

def deleteSessionsOf (db : Directory) (id : Uuid) : Directory :=
  { db with sessions := db.sessions.filter fun s => s.userId ≠ id }

def updateStatus (db : Directory) (id : Uuid) (status : Status) : Directory :=
  { db with
    users := db.users.map (withStatus id status)
    ids := by simpa [List.map_map, Function.comp_def] using db.ids
    usernames := by simpa [List.map_map, Function.comp_def] using db.usernames }

/-- One transaction: the status, and all sessions of the user. The CHECK refuses other texts, where the id has a
row to update. -/
def setUserStatus (db : Directory) (id : Uuid) (status : String) : Option Directory :=
  match Status.ofText? status with
  | some status => some ((db.updateStatus id status).deleteSessionsOf id)
  | none => if db.hasUser id then none else some (db.deleteSessionsOf id)

/-! ## Grants -/

/-- An unknown slug grants nothing; an unknown user breaks the foreign key. -/
def assignRole (db : Directory) (id : Uuid) (slug : String) : Option Directory :=
  if slug ∈ db.roles then
    if db.hasUser id then
      some { db with grants := if (id, slug) ∈ db.grants then db.grants else (id, slug) :: db.grants }
    else none
  else some db

def revokeRole (db : Directory) (id : Uuid) (slug : String) : Directory :=
  { db with grants := db.grants.filter fun g => g ≠ (id, slug) }

def enabledAdminCountExcluding (db : Directory) (id : Uuid) : Nat :=
  (db.users.flatMap fun u => db.grants.filter fun g =>
    g.1 = u.id && g.2 = "admin" && u.status = .active && u.id ≠ id).length

/-! ## Sessions -/

def insertSession (db : Directory) (session : Session) : Option Directory :=
  if (db.sessions.all fun s => s.id ≠ session.id) && db.hasUser session.userId then
    some { db with sessions := session :: db.sessions }
  else none

def findValidSession (db : Directory) (now : Nat) (id : String) : Option Uuid :=
  (db.sessions.find? fun s => s.id = id && now < s.expiresAt).map Session.userId

def deleteSession (db : Directory) (id : String) : Directory :=
  { db with sessions := db.sessions.filter fun s => s.id ≠ id }

end Directory
end Daimon.App
