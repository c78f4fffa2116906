import Daimon.App.Iam
import Daimon.Lib.Lists

/-!
# What a step of the server does

Every step of a call as one of a few moves, and what the statements do to accounts and grants.
-/

namespace Daimon.Proof.App
open Daimon.Core Daimon.App Lib

/-! ## Accounts and grants -/

section Directory
variable {db db' : Directory} {id other : Uuid} {slug : String} {status : Status}

theorem isActive_iff : db.isActive id = true ↔ ∃ u ∈ db.users, u.id = id ∧ u.status = .active := by
  simp [Directory.isActive]

theorem isActive_mono (users : ∀ u ∈ db.users, u ∈ db'.users) (id : Uuid) (active : db.isActive id = true) :
    db'.isActive id = true := by
  obtain ⟨u, member, is⟩ := (isActive_iff).mp active
  exact (isActive_iff).mpr ⟨u, users u member, is⟩

theorem isActive_updateStatus :
    ((db.updateStatus other status).deleteSessionsOf other).isActive id = true ↔
      if id = other then db.hasUser id = true ∧ status = .active else db.isActive id = true := by
  simp only [isActive_iff, Directory.deleteSessionsOf, Directory.updateStatus, List.mem_map, Directory.hasUser,
    List.any_eq_true, decide_eq_true_eq]
  split_ifs with same
  · subst same
    constructor
    · rintro ⟨_, ⟨u, member, rfl⟩, is, active⟩
      rw [Directory.withStatus_id] at is
      rw [Directory.withStatus, if_pos is] at active
      exact ⟨⟨u, member, is⟩, active⟩
    · rintro ⟨⟨u, member, is⟩, rfl⟩
      exact ⟨_, ⟨u, member, rfl⟩, by rw [Directory.withStatus_id, is], by rw [Directory.withStatus, if_pos is]⟩
  · constructor
    · rintro ⟨_, ⟨u, member, rfl⟩, is, active⟩
      rw [Directory.withStatus_id] at is
      rw [Directory.withStatus, if_neg (is ▸ same)] at active
      exact ⟨u, member, is, active⟩
    · rintro ⟨u, member, is, active⟩
      exact ⟨_, ⟨u, member, rfl⟩, by rw [Directory.withStatus_id, is],
        by rw [Directory.withStatus, if_neg (is ▸ same)]; exact active⟩

theorem assignRole_spec (assigned : db.assignRole other slug = some db') :
    db'.users = db.users ∧ db'.sessions = db.sessions ∧ db'.roles = db.roles ∧
      ∀ g, g ∈ db'.grants ↔ g ∈ db.grants ∨ (g = (other, slug) ∧ slug ∈ db.roles) := by
  unfold Directory.assignRole at assigned
  split at assigned
  · rename_i known
    split at assigned
    · cases assigned
      refine ⟨rfl, rfl, rfl, fun g => ?_⟩
      dsimp only
      split
      · rename_i present
        exact ⟨Or.inl, Or.rec id fun is => is.1 ▸ present⟩
      · rw [List.mem_cons, or_comm]
        exact or_congr_right ⟨fun is => ⟨is, known⟩, And.left⟩
    · cases assigned
  · rename_i unknown
    cases assigned
    exact ⟨rfl, rfl, rfl, fun g => ⟨Or.inl, Or.rec id fun is => absurd is.2 unknown⟩⟩

theorem insertUser_spec {username passwordHash : String} (inserted : db.insertUser other username passwordHash = some db') :
    db'.users = ⟨other, username, passwordHash, .active⟩ :: db.users ∧ db'.grants = db.grants ∧
      db'.sessions = db.sessions := by
  unfold Directory.insertUser at inserted
  split at inserted
  · cases inserted
    exact ⟨rfl, rfl, rfl⟩
  · cases inserted

theorem insertSession_spec {session : Session} (inserted : db.insertSession session = some db') :
    db'.users = db.users ∧ db'.grants = db.grants ∧ db'.sessions = session :: db.sessions ∧
      ∀ s ∈ db.sessions, s.id ≠ session.id := by
  unfold Directory.insertSession at inserted
  split at inserted
  · rename_i fresh
    cases inserted
    refine ⟨rfl, rfl, rfl, fun s member => ?_⟩
    simp only [Bool.and_eq_true, List.all_eq_true] at fresh
    simpa using fresh.1 s member
  · cases inserted

theorem mem_rolesOf : slug ∈ db.rolesOf id → (id, slug) ∈ db.grants := by
  simp [Directory.rolesOf]

end Directory

/-! ## Calls -/

inductive Quiet : Server.Answer → Call → Call → Prop
  | login {answer : Server.Answer} {username password message : String} {phase : Login} :
      Quiet answer (.login username password phase) (.login username password (.failed message))
  | failed {request : AdminRequest} {phase : AdminPhase} {message : String} :
      Quiet (.failed message) (.admin request phase) (.admin request (.failed message))
  | admin {answer : Server.Answer} {request : AdminRequest} {phase phase' : AdminPhase} (before : phase ≠ .write) :
      Quiet answer (.admin request phase) (.admin request phase')

inductive Move (w : Server) : Server.Answer → Call → Server.Effect → Prop
  | found {answer : Server.Answer} {username password : String} {row : UserRow}
      (found : w.db.findUser username = some row) (active : row.user.status = .active) :
      Move w answer (.login username password .find) ⟨w.db, none, .login username password (.insert row)⟩
  | signedIn {answer : Server.Answer} {username password id : String} {row : UserRow} {db : Directory}
      (fresh : ∀ claims ∈ w.tokens, claims.sessionId ≠ id)
      (inserted : w.db.insertSession ⟨id, row.user.id, w.now + lifetime⟩ = some db) :
      Move w answer (.login username password (.insert row))
        ⟨db, some (createJwt w.now username row.user.id row.roles id),
          .login username password (.returned w.tokens.length)⟩
  | written {answer : Server.Answer} {request : AdminRequest} {phase : AdminPhase} {db : Directory}
      (kind : answer = .done ∨ ∃ e, answer = .lost e) (executed : request.execute w.db = some db) :
      Move w answer (.admin request .write) ⟨db, none, .admin request phase⟩
  | userMade {id : Uuid} {username password passwordHash : String} {slugs : List String} {db : Directory}
      (inserted : w.db.insertUser id username passwordHash = some db) :
      Move w (.inserted id passwordHash) (.admin (.createUser username password slugs) .write)
        ⟨db, none, .admin (.createUser username password slugs) (.granting id slugs)⟩
  | granted {request : AdminRequest} {userId : Uuid} {slug : String} {slugs : List String} {db : Directory}
      (assigned : w.db.assignRole userId slug = some db) :
      Move w .done (.admin request (.granting userId (slug :: slugs)))
        ⟨db, none, .admin request (.granting userId slugs)⟩
  | quiet {answer : Server.Answer} {call call' : Call} (quiet : Quiet answer call call') :
      Move w answer call ⟨w.db, none, call'⟩

section
variable {verifyPassword : String → String → Bool} {w w' : Server} {answer : Server.Answer} {effect : Server.Effect}

theorem stepLogin_move {username password : String} {phase : Login}
    (stepped : w.stepLogin verifyPassword username password phase answer = some effect) :
    Move w answer (.login username password phase) effect := by
  unfold Server.stepLogin at stepped
  split at stepped
  · split at stepped
    · split at stepped
      · rename_i found checked
        cases stepped
        exact .found found checked.1
      · cases stepped
        exact .quiet .login
    · cases stepped
      exact .quiet .login
  · cases stepped
    exact .quiet .login
  · split at stepped
    · cases stepped
    · rename_i fresh
      split at stepped
      · rename_i inserted
        cases stepped
        exact .signedIn (by simpa using fresh) inserted
      · cases stepped
  · cases stepped
    exact .quiet .login
  · cases stepped

theorem stepAdmin_move {request : AdminRequest} {phase : AdminPhase}
    (stepped : w.stepAdmin request phase answer = some effect) : Move w answer (.admin request phase) effect := by
  unfold Server.stepAdmin at stepped
  split at stepped
  · split at stepped
    all_goals cases stepped
    all_goals exact .quiet (.admin nofun)
  · split at stepped
    all_goals cases stepped
    all_goals exact .quiet (.admin nofun)
  · obtain ⟨db, executed, rfl⟩ := Option.map_eq_some_iff.mp stepped
    exact .written (Or.inl rfl) executed
  · obtain ⟨db, executed, rfl⟩ := Option.map_eq_some_iff.mp stepped
    exact .written (Or.inr ⟨_, rfl⟩) executed
  · split at stepped
    · obtain ⟨db, inserted, rfl⟩ := Option.map_eq_some_iff.mp stepped
      exact .userMade inserted
    · cases stepped
  · cases stepped
    exact .quiet (.admin nofun)
  · obtain ⟨db, assigned, rfl⟩ := Option.map_eq_some_iff.mp stepped
    exact .granted assigned
  all_goals cases stepped
  all_goals exact .quiet .failed

theorem stepCall_move {call : Call} (stepped : w.stepCall verifyPassword answer call = some effect) :
    Move w answer call effect := by
  cases call with
  | login username password phase => exact stepLogin_move stepped
  | admin request phase => exact stepAdmin_move stepped

theorem step_cases {action : Server.Action} (stepped : w.step verifyPassword action = some w') :
    (w'.db = w.db ∧ ∀ i answer, action ≠ .step i answer) ∨
    (∃ (token : Nat) (claims : Claims), action = .logout token ∧
      w' = { w with db := w.db.deleteSession claims.sessionId }) ∨
    ∃ (i : Nat) (answer : Server.Answer) (call : Call) (effect : Server.Effect), action = .step i answer ∧
      w.calls[i]? = some call ∧ Move w answer call effect ∧ w' = w.apply i effect := by
  cases action with
  | request token gate =>
      obtain ⟨claims, -, rfl⟩ := Option.map_eq_some_iff.mp stepped
      exact Or.inl ⟨rfl, by simp⟩
  | logout token =>
      obtain ⟨claims, -, rfl⟩ := Option.map_eq_some_iff.mp stepped
      exact Or.inr (Or.inl ⟨token, claims, rfl, rfl⟩)
  | upgrade token =>
      obtain ⟨claims, -, rfl⟩ := Option.map_eq_some_iff.mp stepped
      exact Or.inl ⟨rfl, by simp⟩
  | chat socket =>
      obtain ⟨claims, -, rfl⟩ := Option.map_eq_some_iff.mp stepped
      exact Or.inl ⟨rfl, by simp⟩
  | close socket =>
      cases stepped
      exact Or.inl ⟨rfl, by simp⟩
  | login username password =>
      cases stepped
      exact Or.inl ⟨rfl, by simp⟩
  | admin token request =>
      cases stepped
      exact Or.inl ⟨rfl, by simp⟩
  | tick seconds =>
      cases stepped
      exact Or.inl ⟨rfl, by simp⟩
  | step i answer =>
      obtain ⟨effect, moved, rfl⟩ := Option.map_eq_some_iff.mp stepped
      obtain ⟨call, found, effected⟩ := Option.bind_eq_some_iff.mp moved
      exact Or.inr (Or.inr ⟨i, answer, call, effect, rfl, found, stepCall_move effected, rfl⟩)

end

/-! ## Samples -/

/-- A check that stands for `bcrypt` on hashes that are the password itself. -/
def samePassword (password hash : String) : Bool := password == hash

def signIn (i : Nat) (username password session : String) : List Server.Action :=
  [.login username password, .step i .done, .step i (.session session)]

end Daimon.Proof.App
