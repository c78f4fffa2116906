import Daimon.App.CreateUser

/-!
# Users without all of their grants

`create_user` runs its statements outside of a transaction: a grant that fails leaves the row of the user, and the
grants before it.
-/

namespace Daimon.Proof.App
open Daimon.Core Daimon.App
open Daimon.Audit (storable)

section Statements
variable {fate : Fate} {texts : List String} {statement : Directory → Option Directory} {db db' : Directory}

theorem perform_none (nothing : effect texts statement db = none) : perform fate texts statement db = (db, false) := by
  cases fate <;> simp [perform, nothing]

theorem perform_answered (done : effect texts statement db = some db') :
    perform .answered texts statement db = (db', true) := by simp [perform, done]

theorem perform_refused : perform .refused texts statement db = (db, false) := by
  cases done : effect texts statement db <;> simp [perform]

theorem perform_lost (done : effect texts statement db = some db') :
    perform .lost texts statement db = (db', false) := by simp [perform, done]

end Statements

/-! ## Grants -/

section Grants
variable {db db' db'' : Directory} {id : Uuid} {username : String} {slug : String} {slugs more : List String}
  {fate : Nat → Fate} {n : Nat}

/-- The grants of the slugs that name roles are added, and nothing else changes. -/
structure Granted (id : Uuid) (slugs : List String) (db db' : Directory) : Prop where
  users : db'.users = db.users
  roles : db'.roles = db.roles
  sessions : db'.sessions = db.sessions
  grants : ∀ g, g ∈ db'.grants ↔ g ∈ db.grants ∨ (g.1 = id ∧ g.2 ∈ slugs ∧ g.2 ∈ db.roles)

theorem Granted.nothing (id : Uuid) (db : Directory) : Granted id [] db db := ⟨rfl, rfl, rfl, by simp⟩

theorem Granted.append (first : Granted id slugs db db') (second : Granted id more db' db'') :
    Granted id (slugs ++ more) db db'' where
  users := second.users.trans first.users
  roles := second.roles.trans first.roles
  sessions := second.sessions.trans first.sessions
  grants g := by
    rw [second.grants, first.grants, first.roles, List.mem_append]
    tauto

theorem Granted.hasUser (granted : Granted id slugs db db') (user : db.hasUser id = true) : db'.hasUser id = true := by
  rwa [Directory.hasUser, granted.users]

theorem assignRole_granted (user : db.hasUser id = true) (slug : String) :
    ∃ db', db.assignRole id slug = some db' ∧ Granted id [slug] db db' := by
  by_cases role : slug ∈ db.roles
  · let grants := if (id, slug) ∈ db.grants then db.grants else (id, slug) :: db.grants
    refine ⟨{ db with grants }, ?_, rfl, rfl, rfl, ?_⟩
    · rw [Directory.assignRole, if_pos role, if_pos user]
    · rintro ⟨user', slug'⟩
      have asked : (user' = id ∧ slug' ∈ [slug] ∧ slug' ∈ db.roles) ↔ (user', slug') = (id, slug) := by
        rw [List.mem_singleton, Prod.mk.injEq]
        exact ⟨fun all => ⟨all.1, all.2.1⟩, fun same => ⟨same.1, same.2, same.2 ▸ role⟩⟩
      simp only [grants, asked]
      split_ifs with known
      · exact ⟨Or.inl, fun either => either.elim (fun old => old) fun same => same ▸ known⟩
      · rw [List.mem_cons, or_comm]
  · refine ⟨db, by rw [Directory.assignRole, if_neg role], rfl, rfl, rfl, ?_⟩
    rintro ⟨user', slug'⟩
    refine ⟨Or.inl, fun either => either.elim (fun old => old) fun new => ?_⟩
    exact absurd (List.mem_singleton.mp new.2.1 ▸ new.2.2) role

theorem grant_step (user : db.hasUser id = true) (fate : Fate) (slug : String) :
    ∃ db', Granted id [slug] db db' ∧
      (fate = .answered ∧ storable slug = true →
        perform fate [slug] (fun db => db.assignRole id slug) db = (db', true)) ∧
      (¬(fate = .answered ∧ storable slug = true) → ∃ db'',
        perform fate [slug] (fun db => db.assignRole id slug) db = (db'', false) ∧ db''.users = db.users) := by
  obtain ⟨db', assigned, granted⟩ := assignRole_granted user slug
  by_cases taken : storable slug = true
  · have done : effect [slug] (fun db => db.assignRole id slug) db = some db' := by simp [effect, taken, assigned]
    cases fate with
    | answered => exact ⟨db', granted, fun _ => perform_answered done, fun failed => absurd ⟨rfl, taken⟩ failed⟩
    | refused => exact ⟨db', granted, fun answered => Fate.noConfusion answered.1, fun _ => ⟨db, perform_refused, rfl⟩⟩
    | lost =>
        exact ⟨db', granted, fun answered => Fate.noConfusion answered.1,
          fun _ => ⟨db', perform_lost done, granted.users⟩⟩
  · have nothing : effect [slug] (fun db => db.assignRole id slug) db = none := by simp [effect, taken]
    exact ⟨db', granted, fun answered => absurd answered.2 taken, fun _ => ⟨db, perform_none nothing, rfl⟩⟩

/-- Every grant statement is answered, and none is about a text that the database refuses. -/
def GrantsAnswered (fate : Nat → Fate) (n : Nat) (slugs : List String) : Prop :=
  ∀ i slug, slugs[i]? = some slug → fate (n + i) = .answered ∧ storable slug = true

theorem grantsAnswered_cons : GrantsAnswered fate n (slug :: slugs) ↔
    (fate n = .answered ∧ storable slug = true) ∧ GrantsAnswered fate (n + 1) slugs := by
  constructor
  · intro answered
    refine ⟨answered 0 slug rfl, fun i later found => ?_⟩
    rw [Nat.add_right_comm, Nat.add_assoc]
    exact answered (i + 1) later (by simpa using found)
  · rintro ⟨first, rest⟩ i later found
    cases i with
    | zero =>
        obtain rfl : slug = later := by simpa using found
        exact first
    | succ i =>
        rw [← Nat.add_assoc, Nat.add_right_comm]
        exact rest i later (by simpa using found)

theorem grantRoles_ok (user : db.hasUser id = true) (answered : GrantsAnswered fate n slugs) :
    ∃ db', grantRoles fate id username n slugs db = (db', .ok id) ∧ Granted id slugs db db' := by
  induction slugs generalizing n db with
  | nil => exact ⟨db, rfl, .nothing id db⟩
  | cons slug slugs ih =>
      obtain ⟨first, rest⟩ := (grantsAnswered_cons).mp answered
      obtain ⟨next, granted, done, -⟩ := grant_step user (fate n) slug
      obtain ⟨db', loop, others⟩ := ih (granted.hasUser user) rest
      refine ⟨db', ?_, granted.append others⟩
      rw [grantRoles, done first]
      exact loop

theorem grantRoles_failed (user : db.hasUser id = true) (failed : ¬GrantsAnswered fate n slugs) :
    ∃ db' message, grantRoles fate id username n slugs db = (db', .error message) ∧ db'.users = db.users := by
  induction slugs generalizing n db with
  | nil => exact absurd (fun i slug found => nomatch found) failed
  | cons slug slugs ih =>
      rw [grantsAnswered_cons] at failed
      obtain ⟨next, granted, done, stopped⟩ := grant_step user (fate n) slug
      by_cases first : fate n = .answered ∧ storable slug = true
      · obtain ⟨db', message, loop, same⟩ := ih (granted.hasUser user) fun rest => failed ⟨first, rest⟩
        refine ⟨db', message, ?_, same.trans granted.users⟩
        rw [grantRoles, done first]
        exact loop
      · obtain ⟨db', left, same⟩ := stopped first
        exact ⟨db', _, by rw [grantRoles, left], same⟩

end Grants

/-! ## The whole call -/

section Create
variable {db db' : Directory} {id : Uuid} {username passwordHash : String} {roles : List String} {fate : Nat → Fate}
  {pool : Bool}

/-- The user exists, and its grants are those of the slugs that name roles. -/
structure Created (db db' : Directory) (id : Uuid) (username passwordHash : String) (slugs : List String) : Prop where
  users : db'.users = ⟨id, username, passwordHash, .active⟩ :: db.users
  roles : db'.roles = db.roles
  sessions : db'.sessions = db.sessions
  grants : ∀ g, g ∈ db'.grants ↔ g ∈ db.grants ∨ (g.1 = id ∧ g.2 ∈ slugs ∧ g.2 ∈ db.roles)
  /-- Where the grants before the call are grants of users, as their foreign key demands. -/
  own : (∀ g ∈ db.grants, db.hasUser g.1 = true) → db'.rolesOf id = db.roles.filter (· ∈ slugs)

def AllOrNothing (db : Directory) (username passwordHash : String) (roles : List String) :
    Directory × Except String Uuid → Prop
  | (db', .ok id) => Created db db' id username passwordHash roles
  | (db', .error _) => db' = db

def Acceptable (id : Uuid) (username passwordHash : String) (db : Directory) : Prop :=
  (storable username = true ∧ storable passwordHash = true) ∧
    id ∉ db.users.map User.id ∧ username ∉ db.users.map User.username

/-- The row of the user is written, whether or not the client learns of it. -/
def RowWritten (pool : Bool) (fate : Nat → Fate) (id : Uuid) (username passwordHash : String) (db : Directory) : Prop :=
  pool = true ∧ fate 0 ≠ .refused ∧ Acceptable id username passwordHash db

/-- Nothing fails from the row on. -/
def Uninterrupted (fate : Nat → Fate) (roles : List String) : Prop := fate 0 = .answered ∧ GrantsAnswered fate 1 roles

theorem insert_nothing (unacceptable : ¬Acceptable id username passwordHash db) :
    effect [username, passwordHash] (fun db => db.insertUser id username passwordHash) db = none := by
  unfold effect
  split_ifs with taken
  · simp only [List.all_cons, List.all_nil, Bool.and_true, Bool.and_eq_true] at taken
    exact dif_neg fun fresh => unacceptable ⟨taken, fresh⟩
  · rfl

theorem insert_row (acceptable : Acceptable id username passwordHash db) :
    ∃ db', effect [username, passwordHash] (fun db => db.insertUser id username passwordHash) db = some db' ∧
      db'.users = ⟨id, username, passwordHash, .active⟩ :: db.users ∧ db'.roles = db.roles ∧
      db'.sessions = db.sessions ∧ db'.grants = db.grants := by
  have taken : [username, passwordHash].all storable = true := by simp [acceptable.1]
  rw [effect, if_pos taken, Directory.insertUser, dif_pos acceptable.2]
  exact ⟨_, rfl, rfl, rfl, rfl, rfl⟩

theorem createUser_unwritten (unwritten : ¬RowWritten pool fate id username passwordHash db) :
    ∃ message, createUser pool fate id username passwordHash roles db = (db, .error message) := by
  cases pool with
  | false => exact ⟨"pg client", rfl⟩
  | true =>
      have left : perform (fate 0) [username, passwordHash] (fun db => db.insertUser id username passwordHash) db =
          (db, false) := by
        by_cases refused : fate 0 = .refused
        · rw [refused, perform_refused]
        · exact perform_none (insert_nothing fun acceptable => unwritten ⟨rfl, refused, acceptable⟩)
      exact ⟨"create user " ++ username, by rw [createUser, if_pos rfl, left]⟩

theorem created_of_granted {db₁ : Directory} (acceptable : Acceptable id username passwordHash db)
    (users : db₁.users = ⟨id, username, passwordHash, .active⟩ :: db.users) (same : db₁.roles = db.roles)
    (sessions : db₁.sessions = db.sessions) (grants : db₁.grants = db.grants) (granted : Granted id roles db₁ db') :
    Created db db' id username passwordHash roles where
  users := granted.users.trans users
  roles := granted.roles.trans same
  sessions := granted.sessions.trans sessions
  grants g := by rw [granted.grants, grants, same]
  own keys := by
    rw [Directory.rolesOf, granted.roles, same]
    apply List.filter_congr
    intro slug role
    have fresh : (id, slug) ∉ db.grants := by
      intro old
      obtain ⟨u, member, is⟩ := List.any_eq_true.mp (keys _ old)
      exact acceptable.2.1 (List.mem_map.mpr ⟨u, member, of_decide_eq_true is⟩)
    simp only [granted.grants, grants, same, fresh, role, false_or, true_and, and_true]

theorem users_ne {db₁ : Directory} {u : User} (users : db₁.users = u :: db.users) : db₁ ≠ db := by
  rintro rfl
  exact List.cons_ne_self _ _ users.symm

/-- The call is all or nothing exactly where nothing fails once the row of the user is written. -/
theorem create_all_or_nothing_iff (pool : Bool) (fate : Nat → Fate) (id : Uuid) (username passwordHash : String)
    (roles : List String) (db : Directory) :
    AllOrNothing db username passwordHash roles (createUser pool fate id username passwordHash roles db) ↔
      (RowWritten pool fate id username passwordHash db → Uninterrupted fate roles) := by
  by_cases written : RowWritten pool fate id username passwordHash db
  · rw [forall_prop_of_true written]
    obtain ⟨rfl, answer, acceptable⟩ := written
    obtain ⟨db₁, inserted, users, same, sessions, grants⟩ := insert_row acceptable
    have user : db₁.hasUser id = true := by simp [Directory.hasUser, users]
    rw [createUser, if_pos rfl, Uninterrupted]
    cases first : fate 0 with
    | refused => exact absurd first answer
    | lost =>
        rw [perform_lost inserted]
        exact iff_of_false (users_ne users) fun run => Fate.noConfusion run.1
    | answered =>
        rw [perform_answered inserted]
        by_cases rest : GrantsAnswered fate 1 roles
        · obtain ⟨db', loop, granted⟩ := @grantRoles_ok db₁ id username roles fate 1 user rest
          simp only [loop]
          exact iff_of_true (created_of_granted acceptable users same sessions grants granted) ⟨trivial, rest⟩
        · obtain ⟨db', message, loop, kept⟩ := @grantRoles_failed db₁ id username roles fate 1 user rest
          simp only [loop]
          exact iff_of_false (users_ne (kept.trans users)) fun run => rest run.2
  · obtain ⟨message, left⟩ := @createUser_unwritten db id username passwordHash roles fate pool written
    rw [left]
    exact iff_of_true rfl fun is => absurd is written

def lab : Directory where
  users := []
  ids := List.nodup_nil
  usernames := List.nodup_nil
  roles := ["admin", "operator"]
  grants := []
  sessions := []

/-- The connection breaks before the second grant. -/
def untilSecondGrant (i : Nat) : Fate := if i < 2 then .answered else .refused

/-- The call fails, the user is there with one of two roles, and the name is taken for a retry. -/
theorem second_grant_lost :
    ∃ db' message, createUser true untilSecondGrant 1 "bob" "hash" ["operator", "admin"] lab = (db', .error message) ∧
      db'.users = [⟨1, "bob", "hash", .active⟩] ∧ db'.grants = [(1, "operator")] ∧
      ¬AllOrNothing lab "bob" "hash" ["operator", "admin"] (db', .error message) ∧
      (createUser true (fun _ => .answered) 2 "bob" "hash" ["operator", "admin"] db').2 =
        .error "create user bob" := by
  refine ⟨_, _, rfl, rfl, rfl, ?_, rfl⟩
  exact @users_ne lab _ ⟨1, "bob", "hash", .active⟩ rfl

end Create

end Daimon.Proof.App
