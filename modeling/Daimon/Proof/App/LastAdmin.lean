import Daimon.Proof.App.Step

/-!
# The last administrator

An enabled administrator remains in every state of a run exactly if each statement that takes the role or the
status from a user finds another enabled administrator. The guard of the pages counts earlier, in a statement of
its own, and only for some requests.
-/

namespace Daimon.Proof.App
open Daimon.Core Daimon.App Lib

def EnabledAdmin (db : Directory) (userId : Uuid) : Prop := db.isActive userId = true ∧ (userId, "admin") ∈ db.grants

def HasEnabledAdmin (db : Directory) : Prop := ∃ userId, EnabledAdmin db userId

/-- The user that the statement of the request takes out of the enabled administrators. -/
def removes : AdminRequest → Option Uuid
  | .setUserStatus userId status =>
      match Status.ofText? status with
      | some .active => none
      | some _ => some userId
      | none => none
  | .revokeRole userId slug => if slug = "admin" then some userId else none
  | _ => none

/-- When such a statement takes effect, there is another enabled administrator. -/
def othersRemain (w : Server) : Server.Action → Bool
  | .step i answer =>
      match w.calls[i]?, answer with
      | some (.admin request .write), .done | some (.admin request .write), .lost _ =>
          match removes request with
          | some userId => w.db.enabledAdminCountExcluding userId ≠ 0
          | none => true
      | _, _ => true
  | _ => true

variable {db db' : Directory} {userId : Uuid}

theorem count_ne_zero_iff : db.enabledAdminCountExcluding userId ≠ 0 ↔
    ∃ other, other ≠ userId ∧ EnabledAdmin db other := by
  rw [Directory.enabledAdminCountExcluding, ← Nat.pos_iff_ne_zero, List.length_pos_iff_exists_mem]
  simp only [List.mem_flatMap, List.mem_filter, Bool.and_eq_true, decide_eq_true_eq, EnabledAdmin, isActive_iff]
  constructor
  · rintro ⟨⟨id, slug⟩, u, member, granted, ⟨⟨rfl, rfl⟩, active⟩, other⟩
    exact ⟨u.id, other, ⟨u, member, rfl, active⟩, granted⟩
  · rintro ⟨id, other, ⟨u, member, rfl, active⟩, granted⟩
    exact ⟨(u.id, "admin"), u, member, granted, ⟨⟨rfl, rfl⟩, active⟩, other⟩

theorem EnabledAdmin.mono (admin : EnabledAdmin db userId) (users : ∀ u ∈ db.users, u ∈ db'.users)
    (grants : ∀ g ∈ db.grants, g ∈ db'.grants) : EnabledAdmin db' userId := by
  exact ⟨isActive_mono users userId admin.1, grants _ admin.2⟩

theorem enabledAdmin_executed {request : AdminRequest} {other : Uuid} (executed : request.execute db = some db')
    (taken : removes request = some userId) :
    EnabledAdmin db' other ↔ other ≠ userId ∧ EnabledAdmin db other := by
  cases request with
  | createUser username password roles => cases taken
  | assignRole target slug => cases taken
  | revokeRole target slug =>
      cases executed
      simp only [removes] at taken
      split at taken
      · rename_i admin
        cases taken
        subst admin
        simp only [EnabledAdmin, Directory.revokeRole, List.mem_filter, decide_eq_true_eq, ne_eq, Prod.mk.injEq, and_true]
        exact ⟨fun kept => ⟨kept.2.2, kept.1, kept.2.1⟩, fun kept => ⟨kept.2.1, kept.2.2, kept.1⟩⟩
      · cases taken
  | setUserStatus target text =>
      simp only [removes] at taken
      simp only [AdminRequest.execute, Directory.setUserStatus] at executed
      split at taken
      · cases taken
      · rename_i status inactive parsed
        cases taken
        rw [parsed] at executed
        cases executed
        have grants : ((db.updateStatus userId status).deleteSessionsOf userId).grants = db.grants := rfl
        rw [EnabledAdmin, EnabledAdmin, grants, isActive_updateStatus]
        split_ifs with same
        · simp only [same, ne_eq, not_true_eq_false, false_and, iff_false]
          exact fun enabled => inactive enabled.1.2
        · simp [same]
      · cases taken

theorem enabledAdmin_kept {request : AdminRequest} (executed : request.execute db = some db')
    (kept : removes request = none) (admin : EnabledAdmin db userId) : EnabledAdmin db' userId := by
  cases request with
  | createUser username password roles => cases executed
  | assignRole target slug =>
      obtain ⟨users, -, -, grants⟩ := assignRole_spec executed
      exact admin.mono (fun _ member => users ▸ member) fun g member => (grants g).mpr (Or.inl member)
  | revokeRole target slug =>
      cases executed
      simp only [removes] at kept
      split at kept
      · cases kept
      · rename_i other
        refine ⟨admin.1, ?_⟩
        simp [Directory.revokeRole, admin.2, Ne.symm other]
  | setUserStatus target text =>
      simp only [removes] at kept
      simp only [AdminRequest.execute, Directory.setUserStatus] at executed
      split at kept
      · rename_i parsed
        rw [parsed] at executed
        cases executed
        refine ⟨(isActive_updateStatus).mpr ?_, admin.2⟩
        split_ifs with same
        · obtain ⟨u, member, is, -⟩ := (isActive_iff).mp admin.1
          exact ⟨by simpa [Directory.hasUser] using ⟨u, member, is⟩, rfl⟩
        · exact admin.1
      · cases kept
      · rename_i parsed
        rw [parsed] at executed
        dsimp only at executed
        split at executed
        · cases executed
        · cases executed
          exact admin

theorem executed_iff {request : AdminRequest} (start : HasEnabledAdmin db) (executed : request.execute db = some db') :
    (match removes request with
      | some userId => decide (db.enabledAdminCountExcluding userId ≠ 0)
      | none => true) = true ↔ HasEnabledAdmin db' := by
  cases taken : removes request with
  | none =>
      obtain ⟨admin, enabled⟩ := start
      exact iff_of_true rfl ⟨admin, enabledAdmin_kept executed taken enabled⟩
  | some userId =>
      rw [decide_eq_true_eq, count_ne_zero_iff, HasEnabledAdmin]
      exact exists_congr fun other => (enabledAdmin_executed executed taken).symm

/-! ## Steps and runs -/

variable {verifyPassword : String → String → Bool} {w w' : Server}

theorem move_iff {i : Nat} {answer : Server.Answer} {call : Call} {effect : Server.Effect}
    (start : HasEnabledAdmin w.db) (there : w.calls[i]? = some call) (move : Move w answer call effect) :
    othersRemain w (.step i answer) = true ↔ HasEnabledAdmin effect.db := by
  obtain ⟨admin, enabled⟩ := start
  cases move with
  | written kind executed =>
      rcases kind with rfl | ⟨e, rfl⟩
      all_goals simp only [othersRemain, there]
      all_goals exact executed_iff ⟨admin, enabled⟩ executed
  | found =>
      simp only [othersRemain, there, true_iff]
      exact ⟨admin, enabled⟩
  | quiet quiet =>
      have calm : othersRemain w (.step i answer) = true := by
        cases quiet with
        | login => simp only [othersRemain, there]
        | failed => simp only [othersRemain, there]
        | admin before =>
            simp only [othersRemain, there]
            split
            · rename_i writing
              cases writing
              exact absurd rfl before
            · rename_i writing
              cases writing
              exact absurd rfl before
            · rfl
      exact iff_of_true calm ⟨admin, enabled⟩
  | signedIn fresh inserted =>
      obtain ⟨users, grants, -⟩ := insertSession_spec inserted
      simp only [othersRemain, there, true_iff]
      exact ⟨admin, enabled.mono (fun _ member => users ▸ member) fun _ member => grants ▸ member⟩
  | userMade inserted =>
      obtain ⟨users, grants, -⟩ := insertUser_spec inserted
      simp only [othersRemain, there, true_iff]
      exact ⟨admin, enabled.mono (fun _ member => users ▸ List.mem_cons_of_mem _ member) fun _ member => grants ▸ member⟩
  | granted assigned =>
      obtain ⟨users, -, -, grants⟩ := assignRole_spec assigned
      simp only [othersRemain, there, true_iff]
      exact ⟨admin, enabled.mono (fun _ member => users ▸ member) fun g member => (grants g).mpr (Or.inl member)⟩

theorem step_iff {action : Server.Action} (start : HasEnabledAdmin w.db)
    (stepped : w.step verifyPassword action = some w') : othersRemain w action = true ↔ HasEnabledAdmin w'.db := by
  obtain ⟨same, idle⟩ | ⟨token, claims, rfl, rfl⟩ | ⟨i, answer, call, effect, rfl, there, move, rfl⟩ := step_cases stepped
  · have calm : othersRemain w action = true := by
      cases action with
      | step i answer => exact absurd rfl (idle i answer)
      | _ => rfl
    rw [same]
    exact iff_of_true calm start
  · exact iff_of_true rfl start
  · exact move_iff start there move

/-- From a database with an enabled administrator, every state of a run has one exactly if each status or role
that a statement of the run takes away leaves another enabled administrator. -/
theorem last_admin_iff (verifyPassword : String → String → Bool) (now : Nat) (db : Directory)
    (actions : List Server.Action) (w : Server) (start : HasEnabledAdmin db)
    (reached : run (Server.step verifyPassword) (Server.new now db) actions = some w) :
    Always (Server.step verifyPassword) (fun w => HasEnabledAdmin w.db) (Server.new now db) actions ↔
      AllSteps (Server.step verifyPassword) (fun w action => othersRemain w action = true) (Server.new now db)
        actions :=
  always_iff_allSteps (fun _ _ _ => step_iff) start reached

/-! ## An administrator alone -/

def oneAdmin : Directory where
  users := [⟨1, "root", "secret", .active⟩]
  ids := by decide
  usernames := by decide
  roles := ["admin", "approver", "auditor", "operator", "read-only"]
  grants := [(1, "admin")]
  sessions := []

theorem oneAdmin_enabled : HasEnabledAdmin oneAdmin := ⟨1, by decide, by decide⟩

def ownStatus (status : String) (steps : List Server.Answer) : List Server.Action :=
  signIn 0 "root" "secret" "s1" ++ .admin 0 (.setUserStatus 1 status) :: steps.map (Server.Action.step 1)

theorem refused_disable_keeps_admin : Always (Server.step samePassword) (fun w => HasEnabledAdmin w.db)
    (Server.new 0 oneAdmin) (ownStatus "disabled" [.done, .done]) :=
  (last_admin_iff samePassword 0 oneAdmin (ownStatus "disabled" [.done, .done]) _ oneAdmin_enabled rfl).mpr
    (by decide +kernel)

/-- The guard does not look at the status "locked". -/
theorem locked_last_admin : HasEnabledAdmin oneAdmin ∧ ∃ w, run (Server.step samePassword) (Server.new 0 oneAdmin)
    (ownStatus "locked" [.done, .done]) = some w ∧ ¬HasEnabledAdmin w.db := by
  refine ⟨oneAdmin_enabled, _, rfl, ?_⟩
  rintro ⟨userId, active, -⟩
  obtain ⟨u, member, -, enabled⟩ := (isActive_iff).mp active
  cases List.mem_singleton.mp member
  cases enabled

end Daimon.Proof.App
