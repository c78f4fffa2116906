import Daimon.Proof.App.Step

/-!
# Accounts and roles that are taken away

The gates read the session row and the roles in the token, not the account or the grants. They agree as long as a
status or a role is taken away at a moment when nothing that was read earlier is still in use: a login that has
not inserted its session, an open socket, a live token with the role.
-/

namespace Daimon.Proof.App
open Daimon.Core Daimon.App Lib

/-! ## When a status or a role is taken away cleanly -/

def waits (userId : Uuid) (p : UserRow → Bool) : Call → Bool
  | .login _ _ (.insert row) => row.user.id = userId && p row
  | _ => false

/-- No login of the user has found the account and not inserted its session, and no socket of the user is open. -/
def nothingOpen (w : Server) (userId : Uuid) : Bool :=
  !(w.calls.any (waits userId fun _ => true)) &&
    !(w.sockets.any fun socket => socket.any fun claims => claims.userId = userId)

/-- No login of the user waits with the role, and no token with it has a live session. -/
def nothingHeld (w : Server) (userId : Uuid) (slug : String) : Bool :=
  !(w.calls.any (waits userId fun row => slug ∈ row.roles)) &&
    !(w.tokens.any fun claims => claims.userId = userId && slug ∈ claims.roles &&
      (w.db.findValidSession w.now claims.sessionId).isSome)

def cleanRequest (w : Server) : AdminRequest → Bool
  | .setUserStatus userId status =>
      match Status.ofText? status with
      | some .active | none => true
      | some _ => nothingOpen w userId
  | .revokeRole userId slug => nothingHeld w userId slug
  | _ => true

/-- A statement that takes a status or a role away does so while nothing of it is in use. -/
def cleanCut (w : Server) : Server.Action → Bool
  | .step i answer =>
      match w.calls[i]?, answer with
      | some (.admin request .write), .done | some (.admin request .write), .lost _ => cleanRequest w request
      | _, _ => true
  | _ => true

/-! ## Invariant -/

structure Settled (w : Server) : Prop where
  session {claims : Claims} {s : Session} : claims ∈ w.tokens → s ∈ w.db.sessions → s.id = claims.sessionId →
    s.userId = claims.userId ∧ w.db.isActive claims.userId = true
  role {claims : Claims} {s : Session} {slug : String} : claims ∈ w.tokens → s ∈ w.db.sessions →
    s.id = claims.sessionId → w.now < s.expiresAt → slug ∈ claims.roles → (claims.userId, slug) ∈ w.db.grants
  socket {claims : Claims} : some claims ∈ w.sockets → w.db.isActive claims.userId = true
  waiting {username password : String} {row : UserRow} : .login username password (.insert row) ∈ w.calls →
    w.db.isActive row.user.id = true ∧ ∀ slug ∈ row.roles, (row.user.id, slug) ∈ w.db.grants

theorem settled_new (now : Nat) (db : Directory) : Settled (Server.new now db) where
  session member := absurd member List.not_mem_nil
  role member := absurd member List.not_mem_nil
  socket member := absurd member List.not_mem_nil
  waiting member := absurd member List.not_mem_nil

variable {verifyPassword : String → String → Bool} {w w' : Server} {db : Directory} {userId : Uuid} {slug : String}

theorem findValidSession_isSome {now : Nat} {id : String} :
    (db.findValidSession now id).isSome = true ↔ ∃ s ∈ db.sessions, s.id = id ∧ now < s.expiresAt := by
  simp [Directory.findValidSession]

theorem authenticate_some {token : Nat} {claims : Claims} (passed : w.authenticate token = some claims) :
    claims ∈ w.tokens ∧ ∃ s ∈ w.db.sessions, s.id = claims.sessionId ∧ w.now < s.expiresAt := by
  unfold Server.authenticate at passed
  split at passed
  · rename_i found
    split at passed
    · split at passed
      · rename_i alive
        cases passed
        exact ⟨List.mem_of_getElem? found, (findValidSession_isSome).mp alive⟩
      · cases passed
    · cases passed
  · cases passed

theorem Settled.authenticated {token : Nat} {claims : Claims} (settled : Settled w)
    (passed : w.authenticate token = some claims) :
    w.db.isActive claims.userId = true ∧ ∀ slug ∈ claims.roles, (claims.userId, slug) ∈ w.db.grants := by
  obtain ⟨issued, s, stored, is, alive⟩ := authenticate_some passed
  exact ⟨(settled.session issued stored is).2, fun _ carried => settled.role issued stored is alive carried⟩

theorem Settled.authorised {action : Server.Action} {claims : Claims} {gate : Gate} (settled : Settled w)
    (authorised : w.authorises action = some (claims, gate)) :
    w.db.isActive claims.userId = true ∧
      ∀ slug ∈ claims.roles, gate.satisfiedBy slug = true → (claims.userId, slug) ∈ w.db.grants := by
  have passed {token : Nat} {gate : Gate} {claims : Claims} (passed : w.pass token gate = some claims) :
      w.authenticate token = some claims := (Option.filter_eq_some_iff.mp passed).1
  have carries {token : Nat} {gate : Gate} {claims : Claims} (opened : w.authenticate token = some claims) :
      w.db.isActive claims.userId = true ∧
        ∀ slug ∈ claims.roles, gate.satisfiedBy slug = true → (claims.userId, slug) ∈ w.db.grants := by
    obtain ⟨active, granted⟩ := settled.authenticated opened
    exact ⟨active, fun slug carried _ => granted slug carried⟩
  cases action with
  | request token gate =>
      obtain ⟨claims, opened, is⟩ := Option.map_eq_some_iff.mp authorised
      cases is
      exact carries (passed opened)
  | logout token | upgrade token =>
      obtain ⟨claims, opened, is⟩ := Option.map_eq_some_iff.mp authorised
      cases is
      exact carries opened
  | chat socket =>
      obtain ⟨claims, opened, is⟩ := Option.map_eq_some_iff.mp authorised
      cases is
      obtain ⟨_, there, rfl⟩ := Option.bind_eq_some_iff.mp opened
      refine ⟨settled.socket (List.mem_of_getElem? there), ?_⟩
      rintro slug - ⟨⟩
  | step i answer =>
      cases answer with
      | done =>
          simp only [Server.authorises] at authorised
          split at authorised
          · obtain ⟨claims, opened, is⟩ := Option.map_eq_some_iff.mp authorised
            cases is
            exact carries (passed opened)
          · cases authorised
      | inserted | session | failed | lost => cases authorised
  | close | login | admin | tick => cases authorised

/-! ## Steps -/

theorem Settled.grow (settled : Settled w) (sessions : ∀ s ∈ db.sessions, s ∈ w.db.sessions)
    (active : ∀ id, w.db.isActive id = true → db.isActive id = true) (grants : ∀ g ∈ w.db.grants, g ∈ db.grants) :
    Settled { w with db } where
  session issued stored is :=
    ⟨(settled.session issued (sessions _ stored) is).1, active _ (settled.session issued (sessions _ stored) is).2⟩
  role issued stored is alive carried := grants _ (settled.role issued (sessions _ stored) is alive carried)
  socket opened := active _ (settled.socket opened)
  waiting member := ⟨active _ (settled.waiting member).1,
    fun slug carried => grants _ ((settled.waiting member).2 slug carried)⟩

theorem Settled.setCall {i : Nat} {call : Call} (settled : Settled w)
    (calm : ∀ username password row, call ≠ .login username password (.insert row)) :
    Settled { w with calls := w.calls.set i call } where
  session := settled.session
  role := settled.role
  socket := settled.socket
  waiting {username password row} member := by
    rcases List.mem_or_eq_of_mem_set member with old | is
    · exact settled.waiting old
    · exact absurd is.symm (calm username password row)

theorem Settled.assign (settled : Settled w) (assigned : w.db.assignRole userId slug = some db) :
    Settled { w with db } := by
  obtain ⟨users, sessions, -, grants⟩ := assignRole_spec assigned
  exact settled.grow (fun s stored => sessions ▸ stored) (isActive_mono fun u member => users ▸ member)
    fun g member => (grants g).mpr (Or.inl member)

theorem not_waits_of {p : UserRow → Bool} {username password : String} {row : UserRow}
    (none : w.calls.any (waits userId p) = false) (member : .login username password (.insert row) ∈ w.calls) :
    row.user.id = userId → p row = false := by
  intro is
  have calm := List.any_eq_false.mp none _ member
  simpa [waits, is] using calm

theorem Settled.takeStatus {status : Status} (settled : Settled w) (still : nothingOpen w userId = true) :
    Settled { w with db := (w.db.updateStatus userId status).deleteSessionsOf userId } := by
  rw [nothingOpen, Bool.and_eq_true, Bool.not_eq_true', Bool.not_eq_true'] at still
  obtain ⟨logins, sockets⟩ := still
  have other {id : Uuid} (is : id ≠ userId) (active : w.db.isActive id = true) :
      ((w.db.updateStatus userId status).deleteSessionsOf userId).isActive id = true := by
    rw [isActive_updateStatus, if_neg is]
    exact active
  have stays {s : Session} (stored : s ∈ ((w.db.updateStatus userId status).deleteSessionsOf userId).sessions) :
      s ∈ w.db.sessions ∧ s.userId ≠ userId := by
    simpa [Directory.deleteSessionsOf, Directory.updateStatus] using stored
  constructor
  · intro claims s issued stored is
    obtain ⟨stored, owner⟩ := stays stored
    obtain ⟨same, active⟩ := settled.session issued stored is
    exact ⟨same, other (same ▸ owner) active⟩
  · intro claims s slug issued stored is alive carried
    exact settled.role issued (stays stored).1 is alive carried
  · intro claims opened
    refine other ?_ (settled.socket opened)
    have closed := List.any_eq_false.mp sockets _ opened
    simpa using closed
  · intro username password row member
    obtain ⟨active, granted⟩ := settled.waiting member
    exact ⟨other (fun is => Bool.noConfusion (not_waits_of logins member is)) active, granted⟩

theorem Settled.takeRole (settled : Settled w) (still : nothingHeld w userId slug = true) :
    Settled { w with db := w.db.revokeRole userId slug } := by
  rw [nothingHeld, Bool.and_eq_true, Bool.not_eq_true', Bool.not_eq_true'] at still
  obtain ⟨logins, tokens⟩ := still
  have other {g : Uuid × String} (is : g ≠ (userId, slug)) (granted : g ∈ w.db.grants) :
      g ∈ (w.db.revokeRole userId slug).grants := by
    simp [Directory.revokeRole, granted, is]
  constructor
  · exact settled.session
  · intro claims s held issued stored is alive carried
    refine other ?_ (settled.role issued stored is alive carried)
    rintro same
    obtain ⟨rfl, rfl⟩ := Prod.mk.inj same
    have live : (w.db.findValidSession w.now claims.sessionId).isSome = true :=
      (findValidSession_isSome).mpr ⟨s, stored, is, alive⟩
    have clean := List.any_eq_false.mp tokens claims issued
    simp [carried, live] at clean
  · exact settled.socket
  · intro username password row member
    obtain ⟨active, granted⟩ := settled.waiting member
    refine ⟨active, fun held carried => other ?_ (granted held carried)⟩
    rintro same
    obtain ⟨is, rfl⟩ := Prod.mk.inj same
    simpa [carried] using not_waits_of logins member is

theorem Settled.execute {request : AdminRequest} (settled : Settled w) (clean : cleanRequest w request = true)
    (executed : request.execute w.db = some db) : Settled { w with db } := by
  cases request with
  | createUser username password roles => cases executed
  | assignRole target slug =>
      exact settled.assign executed
  | revokeRole target slug =>
      cases executed
      exact settled.takeRole clean
  | setUserStatus target text =>
      simp only [AdminRequest.execute, Directory.setUserStatus] at executed
      simp only [cleanRequest] at clean
      have fewer {db : Directory} {s : Session} (stored : s ∈ (db.deleteSessionsOf target).sessions) : s ∈ db.sessions :=
        (List.mem_filter.mp stored).1
      split at clean
      · rename_i parsed
        rw [parsed] at executed
        cases executed
        refine settled.grow (fun s stored => fewer stored) (fun id active => ?_) fun g member => member
        obtain ⟨u, member, is, enabled⟩ := (isActive_iff).mp active
        rw [isActive_updateStatus]
        split
        · exact ⟨by simpa [Directory.hasUser] using ⟨u, member, is⟩, rfl⟩
        · exact active
      · rename_i parsed
        rw [parsed] at executed
        dsimp only at executed
        split at executed
        · cases executed
        · cases executed
          exact settled.grow (fun s stored => fewer stored) (fun id active => active) fun g member => member
      · rename_i status _ parsed
        rw [parsed] at executed
        cases executed
        exact settled.takeStatus clean

theorem Settled.signIn {id username : String} {row : UserRow} (settled : Settled w)
    (waiting : w.db.isActive row.user.id = true ∧ ∀ slug ∈ row.roles, (row.user.id, slug) ∈ w.db.grants)
    (fresh : ∀ claims ∈ w.tokens, claims.sessionId ≠ id)
    (inserted : w.db.insertSession ⟨id, row.user.id, w.now + lifetime⟩ = some db) :
    Settled { w with db, tokens := w.tokens ++ [createJwt w.now username row.user.id row.roles id] } := by
  obtain ⟨users, grants, sessions, unused⟩ := insertSession_spec inserted
  have active (other : Uuid) : w.db.isActive other = true → db.isActive other = true :=
    isActive_mono (fun u member => users ▸ member) other
  -- a token and a session of the same id are both old or both new
  have paired {claims : Claims} {s : Session}
      (issued : claims ∈ w.tokens ++ [createJwt w.now username row.user.id row.roles id]) (stored : s ∈ db.sessions)
      (is : s.id = claims.sessionId) : (claims ∈ w.tokens ∧ s ∈ w.db.sessions) ∨
        (claims = createJwt w.now username row.user.id row.roles id ∧ s.userId = row.user.id) := by
    rw [sessions] at stored
    rcases (mem_snoc).mp issued with old | rfl
    · rcases List.mem_cons.mp stored with rfl | before
      · exact absurd is.symm (fresh claims old)
      · exact Or.inl ⟨old, before⟩
    · rcases List.mem_cons.mp stored with rfl | before
      · exact Or.inr ⟨rfl, rfl⟩
      · exact absurd is (unused s before)
  constructor
  · intro claims s issued stored is
    rcases paired issued stored is with ⟨old, before⟩ | ⟨rfl, owner⟩
    · exact ⟨(settled.session old before is).1, active _ (settled.session old before is).2⟩
    · exact ⟨owner, active _ waiting.1⟩
  · intro claims s slug issued stored is alive carried
    dsimp only
    rw [grants]
    rcases paired issued stored is with ⟨old, before⟩ | ⟨rfl, -⟩
    · exact settled.role old before is alive carried
    · exact waiting.2 slug carried
  · intro claims opened
    exact active _ (settled.socket opened)
  · intro username password row member
    dsimp only
    rw [grants]
    exact ⟨active _ (settled.waiting member).1, (settled.waiting member).2⟩

theorem findUser_some {username : String} {row : UserRow} (found : w.db.findUser username = some row)
    (active : row.user.status = .active) :
    w.db.isActive row.user.id = true ∧ ∀ slug ∈ row.roles, (row.user.id, slug) ∈ w.db.grants := by
  obtain ⟨user, first, rfl⟩ := Option.map_eq_some_iff.mp found
  exact ⟨(isActive_iff).mpr ⟨user, List.mem_of_find?_eq_some first, rfl, active⟩, fun _ => mem_rolesOf⟩

theorem apply_unissued (w : Server) (i : Nat) (db : Directory) (call : Call) :
    w.apply i ⟨db, none, call⟩ = { w with db, calls := w.calls.set i call } := by
  simp [Server.apply]

theorem cleanCut_request {i : Nat} {answer : Server.Answer} {request : AdminRequest}
    (clean : cleanCut w (.step i answer) = true) (there : w.calls[i]? = some (.admin request .write))
    (kind : answer = .done ∨ ∃ e, answer = .lost e) : cleanRequest w request = true := by
  rcases kind with rfl | ⟨e, rfl⟩
  all_goals simpa only [cleanCut, there] using clean

theorem Settled.apply {i : Nat} {answer : Server.Answer} {call : Call} {effect : Server.Effect} (settled : Settled w)
    (clean : cleanCut w (.step i answer) = true) (there : w.calls[i]? = some call) (move : Move w answer call effect) :
    Settled (w.apply i effect) := by
  cases move with
  | found found active =>
      rw [apply_unissued]
      refine ⟨settled.session, settled.role, settled.socket, ?_⟩
      intro username password row member
      rcases List.mem_or_eq_of_mem_set member with old | is
      · exact settled.waiting old
      · cases is
        exact findUser_some found active
  | signedIn fresh inserted =>
      have waiting := settled.waiting (List.mem_of_getElem? there)
      exact (settled.signIn waiting fresh inserted).setCall nofun
  | written kind executed =>
      rw [apply_unissued]
      exact (settled.execute (cleanCut_request clean there kind) executed).setCall nofun
  | userMade inserted =>
      obtain ⟨users, grants, sessions⟩ := insertUser_spec inserted
      have made := settled.grow (fun s stored => sessions ▸ stored)
        (isActive_mono fun u member => users ▸ List.mem_cons_of_mem _ member) fun g member => grants ▸ member
      rw [apply_unissued]
      exact made.setCall nofun
  | granted assigned =>
      rw [apply_unissued]
      exact (settled.assign assigned).setCall nofun
  | quiet quiet =>
      rw [apply_unissued]
      refine settled.setCall ?_
      cases quiet with
      | login => nofun
      | failed => nofun
      | admin => nofun

theorem Settled.start {call : Call} (settled : Settled w)
    (calm : ∀ username password row, call ≠ .login username password (.insert row)) : Settled (w.start call) where
  session := settled.session
  role := settled.role
  socket := settled.socket
  waiting {username password row} member := by
    rcases (mem_snoc).mp member with old | is
    · exact settled.waiting old
    · exact absurd is.symm (calm username password row)

theorem step_settled {action : Server.Action} (clean : cleanCut w action = true) (settled : Settled w)
    (stepped : w.step verifyPassword action = some w') : Settled w' := by
  cases action with
  | request token gate | chat socket =>
      obtain ⟨claims, -, rfl⟩ := Option.map_eq_some_iff.mp stepped
      exact settled
  | logout token =>
      obtain ⟨claims, -, rfl⟩ := Option.map_eq_some_iff.mp stepped
      exact settled.grow (fun s stored => (List.mem_filter.mp stored).1) (fun id active => active) fun g member => member
  | upgrade token =>
      obtain ⟨claims, passed, rfl⟩ := Option.map_eq_some_iff.mp stepped
      refine ⟨settled.session, settled.role, ?_, settled.waiting⟩
      intro other opened
      rcases (mem_snoc).mp opened with old | is
      · exact settled.socket old
      · cases is
        exact (settled.authenticated passed).1
  | close socket =>
      cases stepped
      refine ⟨settled.session, settled.role, ?_, settled.waiting⟩
      intro claims opened
      rcases List.mem_or_eq_of_mem_set opened with old | is
      · exact settled.socket old
      · cases is
  | login username password =>
      cases stepped
      exact settled.start nofun
  | admin token request =>
      cases stepped
      exact settled.start nofun
  | tick seconds =>
      cases stepped
      refine ⟨settled.session, ?_, settled.socket, settled.waiting⟩
      intro claims s slug issued stored is alive carried
      exact settled.role issued stored is (Nat.lt_of_le_of_lt (Nat.le_add_right _ _) alive) carried
  | step i answer =>
      obtain ⟨effect, moved, rfl⟩ := Option.map_eq_some_iff.mp stepped
      obtain ⟨call, found, effected⟩ := Option.bind_eq_some_iff.mp moved
      exact settled.apply clean found (stepCall_move effected)

/-! ## What stays taken away -/

/-- The statement makes the account active: a status, or a new account under the id. -/
def reactivates (w : Server) (userId : Uuid) : Server.Action → Bool
  | .step i answer =>
      match w.calls[i]?, answer with
      | some (.admin (.setUserStatus target status) .write), .done
      | some (.admin (.setUserStatus target status) .write), .lost _ =>
          target = userId && Status.ofText? status = some .active
      | some (.admin (.createUser _ _ _) .write), .inserted id _ => id = userId
      | _, _ => false
  | _ => false

def regrants (w : Server) (userId : Uuid) (slug : String) : Server.Action → Bool
  | .step i answer =>
      match w.calls[i]?, answer with
      | some (.admin (.assignRole target granted) .write), .done
      | some (.admin (.assignRole target granted) .write), .lost _ => target = userId && granted = slug
      | some (.admin _ (.granting target (granted :: _))), .done => target = userId && granted = slug
      | _, _ => false
  | _ => false

theorem isActive_cons {u : User} {db' : Directory} (users_eq : db'.users = u :: db.users) :
    db'.isActive userId = ((u.id = userId && u.status = .active) || db.isActive userId) := by
  simp [Directory.isActive, users_eq]

theorem isActive_eq {db' : Directory} (users : db'.users = db.users) : db'.isActive userId = db.isActive userId := by
  rw [Directory.isActive, Directory.isActive, users]

theorem setUserStatus_inactive {db' : Directory} {target : Uuid} {text : String}
    (written : db.setUserStatus target text = some db') (inactive : db.isActive userId = false)
    (other : target = userId → Status.ofText? text ≠ some .active) : db'.isActive userId = false := by
  unfold Directory.setUserStatus at written
  split at written
  · rename_i status parsed
    cases written
    rw [← Bool.not_eq_true, isActive_updateStatus]
    split_ifs with same
    · rintro ⟨-, rfl⟩
      exact other same.symm parsed
    · rw [inactive]
      exact Bool.false_ne_true
  · split at written
    · cases written
    · cases written
      exact inactive

theorem move_inactive {i : Nat} {answer : Server.Answer} {call : Call} {effect : Server.Effect}
    (still : reactivates w userId (.step i answer) = false) (there : w.calls[i]? = some call)
    (move : Move w answer call effect) (inactive : w.db.isActive userId = false) :
    effect.db.isActive userId = false := by
  cases move with
  | found | quiet => exact inactive
  | signedIn fresh inserted => exact (isActive_eq (insertSession_spec inserted).1).trans inactive
  | granted assigned => exact (isActive_eq (assignRole_spec assigned).1).trans inactive
  | userMade inserted =>
      simp only [reactivates, there, decide_eq_false_iff_not] at still
      rw [isActive_cons (insertUser_spec inserted).1]
      simp [still, inactive]
  | @written _ request _ _ kind executed =>
      cases request with
      | createUser username password roles => cases executed
      | assignRole target slug => exact (isActive_eq (assignRole_spec executed).1).trans inactive
      | revokeRole target slug =>
          cases executed
          exact inactive
      | setUserStatus target text =>
          refine setUserStatus_inactive executed inactive fun same active => ?_
          rcases kind with rfl | ⟨e, rfl⟩
          all_goals simp [reactivates, there, same, active] at still

theorem step_inactive {action : Server.Action} (still : reactivates w userId action = false)
    (inactive : w.db.isActive userId = false) (stepped : w.step verifyPassword action = some w') :
    w'.db.isActive userId = false := by
  obtain ⟨same, -⟩ | ⟨token, claims, rfl, rfl⟩ | ⟨i, answer, call, effect, rfl, there, move, rfl⟩ := step_cases stepped
  · rw [same, inactive]
  · exact inactive
  · exact move_inactive still there move inactive

theorem run_inactive {actions : List Server.Action}
    (still : AllSteps (Server.step verifyPassword) (fun w action => reactivates w userId action = false) w actions)
    (inactive : w.db.isActive userId = false) (ran : run (Server.step verifyPassword) w actions = some w') :
    w'.db.isActive userId = false := by
  have kept (v : Server) (action : Server.Action) (v' : Server) (still : reactivates v userId action = false)
      (inactive : v.db.isActive userId = false) (stepped : v.step verifyPassword action = some v') :
      v'.db.isActive userId = false := step_inactive still inactive stepped
  have reached := invariant_of_allSteps kept still inactive ran
  exact reached

theorem assignRole_absent {db' : Directory} {target : Uuid} {granted : String}
    (assigned : db.assignRole target granted = some db') (absent : (userId, slug) ∉ db.grants)
    (other : ¬(target = userId ∧ granted = slug)) : (userId, slug) ∉ db'.grants := by
  rw [(assignRole_spec assigned).2.2.2]
  rintro (before | ⟨is, -⟩)
  · exact absent before
  · obtain ⟨rfl, rfl⟩ := Prod.mk.inj is
    exact other ⟨rfl, rfl⟩

theorem move_absent {i : Nat} {answer : Server.Answer} {call : Call} {effect : Server.Effect}
    (still : regrants w userId slug (.step i answer) = false) (there : w.calls[i]? = some call)
    (move : Move w answer call effect) (absent : (userId, slug) ∉ w.db.grants) : (userId, slug) ∉ effect.db.grants := by
  cases move with
  | found | quiet => exact absent
  | signedIn fresh inserted => rwa [(insertSession_spec inserted).2.1]
  | userMade inserted => rwa [(insertUser_spec inserted).2.1]
  | granted assigned =>
      refine assignRole_absent assigned absent ?_
      simpa [regrants, there] using still
  | @written _ request _ _ kind executed =>
      cases request with
      | createUser username password roles => cases executed
      | assignRole target granted =>
          refine assignRole_absent executed absent ?_
          rcases kind with rfl | ⟨e, rfl⟩
          all_goals simpa [regrants, there] using still
      | revokeRole target taken =>
          cases executed
          exact fun member => absent (List.mem_filter.mp member).1
      | setUserStatus target text =>
          simp only [AdminRequest.execute, Directory.setUserStatus] at executed
          split at executed
          · cases executed
            exact absent
          · split at executed
            · cases executed
            · cases executed
              exact absent

theorem step_absent {action : Server.Action} (still : regrants w userId slug action = false)
    (absent : (userId, slug) ∉ w.db.grants) (stepped : w.step verifyPassword action = some w') :
    (userId, slug) ∉ w'.db.grants := by
  obtain ⟨same, -⟩ | ⟨token, claims, rfl, rfl⟩ | ⟨i, answer, call, effect, rfl, there, move, rfl⟩ := step_cases stepped
  · rwa [same]
  · exact absent
  · exact move_absent still there move absent

theorem run_absent {actions : List Server.Action}
    (still : AllSteps (Server.step verifyPassword) (fun w action => regrants w userId slug action = false) w actions)
    (absent : (userId, slug) ∉ w.db.grants) (ran : run (Server.step verifyPassword) w actions = some w') :
    (userId, slug) ∉ w'.db.grants := by
  have kept (v : Server) (action : Server.Action) (v' : Server) (still : regrants v userId slug action = false)
      (absent : (userId, slug) ∉ v.db.grants) (stepped : v.step verifyPassword action = some v') :
      (userId, slug) ∉ v'.db.grants := step_absent still absent stepped
  have reached := invariant_of_allSteps kept still absent ran
  exact reached

theorem write_executed {k : Nat} {request : AdminRequest} (there : w.calls[k]? = some (.admin request .write))
    (stepped : w.step verifyPassword (.step k .done) = some w') : request.execute w.db = some w'.db := by
  obtain ⟨effect, moved, rfl⟩ := Option.map_eq_some_iff.mp stepped
  rw [there, Option.bind_some] at moved
  obtain ⟨db, executed, rfl⟩ := Option.map_eq_some_iff.mp moved
  exact executed

theorem ofText?_eq_active {text : String} : Status.ofText? text = some .active ↔ text = "active" := by
  unfold Status.ofText?
  split <;> simp_all

theorem takes_status {target : Uuid} {text : String} {db' : Directory} (written : db.setUserStatus target text = some db')
    (other : text ≠ "active") : db'.isActive target = false := by
  unfold Directory.setUserStatus at written
  split at written
  · rename_i status parsed
    cases written
    rw [← Bool.not_eq_true, isActive_updateStatus, if_pos rfl]
    rintro ⟨-, rfl⟩
    exact other ((ofText?_eq_active).mp parsed)
  · split at written
    · cases written
    · rename_i unknown
      cases written
      rw [← Bool.not_eq_true]
      intro active
      obtain ⟨u, member, is, -⟩ := (isActive_iff).mp active
      exact unknown (by simpa [Directory.hasUser] using ⟨u, member, is⟩)

def team : Directory where
  users := [⟨1, "root", "secret", .active⟩, ⟨2, "ops", "pw", .active⟩]
  ids := by decide
  usernames := by decide
  roles := ["admin", "approver", "auditor", "operator", "read-only"]
  grants := [(1, "admin"), (2, "approver")]
  sessions := []

def bothSignIn : List Server.Action := signIn 0 "root" "secret" "s1" ++ signIn 1 "ops" "pw" "s2"

def disableOps : List Server.Action := [.admin 0 (.setUserStatus 2 "disabled"), .step 2 .done, .step 2 .done]

def revokeApprover : List Server.Action := [.admin 0 (.revokeRole 2 "approver"), .step 2 .done]

def reaches (before after : List Server.Action) : Option Server :=
  run (Server.step samePassword) (Server.new 0 team) (before ++ .step 2 .done :: after)

end Daimon.Proof.App
