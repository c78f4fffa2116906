import Daimon.Lib.Lists
import Daimon.Llm.TokenRefresh

/-!
# A session under concurrent refreshes

From reading the file to swapping it a refresh holds the one refresh token that is good. While it does, another call
must not begin a refresh: the token that it reads is used up before it gets to use it.
-/

namespace Daimon.Proof.Llm.TokenRefresh
open Daimon.Llm Daimon.Llm.TokenRefresh Lib
open Daimon.Driver.NetworkResponse (structFields)

/-! ## The file -/

/-- An object with an object of tokens, as `codex login` leaves it. -/
def Live (file : Json) (t : AuthTokens) : Prop :=
  ∃ fields inner, file = .object fields ∧ fields.lookup "tokens" = some (.object inner) ∧
    AuthTokens.fromValue (.object inner) = some t

theorem Live.loadTokens {file : Json} {t : AuthTokens} (live : Live file t) : loadTokens file = some t := by
  obtain ⟨fields, inner, rfl, tokens, read⟩ := live
  simp [TokenRefresh.loadTokens, structFields, tokens, read]

theorem fromValue_object {fields : List (String × Json)} {t : AuthTokens} :
    AuthTokens.fromValue (.object fields) = some t ↔
      (fields.lookup "access_token").bind Json.asStr? = some t.accessToken ∧
      decodeDefault Json.asStr? "" (fields.lookup "refresh_token") = some t.refreshToken ∧
      decodeDefault Json.asStr? "" (fields.lookup "account_id") = some t.accountId := by
  show (((fields.lookup "access_token").bind Json.asStr?).bind fun accessToken =>
    (decodeDefault Json.asStr? "" (fields.lookup "refresh_token")).bind fun refreshToken =>
      (decodeDefault Json.asStr? "" (fields.lookup "account_id")).bind fun accountId =>
        some (⟨accessToken, refreshToken, accountId⟩ : AuthTokens)) = some t ↔ _
  simp only [Option.bind_eq_some_iff, Option.some.injEq]
  constructor
  · rintro ⟨access, first, refresh, second, account, third, rfl⟩
    exact ⟨first, second, third⟩
  · rintro ⟨first, second, third⟩
    exact ⟨_, first, _, second, _, third, rfl⟩

theorem live_setToken {file : Json} {t t' : AuthTokens} {key new : String} (live : Live file t)
    (decoded : ∀ inner, AuthTokens.fromValue (.object inner) = some t →
      AuthTokens.fromValue (.object (Json.insertField key (.string new) inner)) = some t') :
    ∃ file', setToken key new file = some file' ∧ Live file' t' := by
  obtain ⟨fields, inner, rfl, tokens, read⟩ := live
  refine ⟨_, ?_, _, _, rfl, Json.lookup_insertField_self "tokens" _ fields, decoded inner read⟩
  simp [setToken, Json.get?, tokens, setKey]

theorem Live.setAccess {file : Json} {t : AuthTokens} (live : Live file t) (new : String) :
    ∃ file', setToken "access_token" new file = some file' ∧ Live file' { t with accessToken := new } := by
  apply live_setToken live
  intro inner read
  rw [fromValue_object] at read ⊢
  rw [Json.lookup_insertField_self, Json.lookup_insertField_of_ne (by decide), Json.lookup_insertField_of_ne (by decide)]
  exact ⟨rfl, read.2⟩

theorem Live.setRefresh {file : Json} {t : AuthTokens} (live : Live file t) (new : String) :
    ∃ file', setToken "refresh_token" new file = some file' ∧ Live file' { t with refreshToken := new } := by
  apply live_setToken live
  intro inner read
  rw [fromValue_object] at read ⊢
  rw [Json.lookup_insertField_of_ne (by decide), Json.lookup_insertField_self, Json.lookup_insertField_of_ne (by decide)]
  exact ⟨read.1, rfl, read.2.2⟩

theorem Live.setId {file : Json} {t : AuthTokens} (live : Live file t) (new : String) :
    ∃ file', setToken "id_token" new file = some file' ∧ Live file' t := by
  apply live_setToken live
  intro inner read
  rw [fromValue_object] at read ⊢
  rw [Json.lookup_insertField_of_ne (by decide), Json.lookup_insertField_of_ne (by decide),
    Json.lookup_insertField_of_ne (by decide)]
  exact read

/-- The rotated file has the tokens that the refresh returns. -/
theorem Live.rotate {file : Json} {t : AuthTokens} (live : Live file t) (r : RefreshResp) (now : String) :
    ∃ file', rotate r now file = some file' ∧ Live file' (t.renew r) := by
  obtain ⟨accessToken, refreshToken, idToken⟩ := r
  obtain ⟨file₁, access, live₁⟩ := live.setAccess accessToken
  obtain ⟨file₂, refresh, live₂⟩ : ∃ file₂, setTokenIf "refresh_token" refreshToken file₁ = some file₂ ∧
      Live file₂ (t.renew ⟨accessToken, refreshToken, idToken⟩) := by
    cases refreshToken with
    | none => exact ⟨file₁, rfl, live₁⟩
    | some new => exact live₁.setRefresh new
  obtain ⟨file₃, id, live₃⟩ : ∃ file₃, setTokenIf "id_token" idToken file₂ = some file₃ ∧
      Live file₃ (t.renew ⟨accessToken, refreshToken, idToken⟩) := by
    cases idToken with
    | none => exact ⟨file₂, rfl, live₂⟩
    | some new => exact live₂.setId new
  obtain ⟨fields, inner, rfl, tokens, read⟩ := live₃
  refine ⟨.object (Json.insertField "last_refresh" (.string now) fields), ?_, _, inner, rfl, ?_, read⟩
  · simp [TokenRefresh.rotate, access, refresh, id, setKey]
  · rw [Json.lookup_insertField_of_ne (by decide)]
    exact tokens

/-! ## Who holds the session -/

/-- The call has read the file for its refresh and not swapped it yet. -/
def holds : Phase → Bool
  | .loaded _ | .exchanged _ _ | .writing _ _ _ | .swapping _ _ => true
  | _ => false

/-- The call has an answer of the endpoint that is not in the file yet. -/
def hasAnswer : Phase → Bool
  | .exchanged _ _ | .writing _ _ _ | .swapping _ _ => true
  | _ => false

/-- The call failed at what another call did to the token or to the temporary file. -/
def hurt : Phase → Bool
  | .finished .rejected | .finished .swapFailed | .finished .panicked => true
  | _ => false

def isLost : Event → Bool
  | .lost _ => true
  | _ => false

def Stored (s : Shared) (file : Json) : Prop := ∃ t, Live file t ∧ s.issued.head? = some t.refreshToken

/-- What a call that holds the session knows of it. -/
def Held (s : Shared) : Phase → Prop
  | .loaded cur => Stored s s.file ∧ s.issued.head? = some cur.refreshToken
  | .exchanged _ r => (∃ t, Live s.file t) ∧ r.refreshToken ≠ none ∧ s.issued.head? = r.refreshToken
  | .writing _ _ root => Stored s root
  | .swapping _ _ => ∃ root, s.tmp = some root ∧ Stored s root
  | _ => False

variable {s s' : Shared} {phase next : Phase} {event : Event}

theorem advance_idle (idle : holds phase = false) (taken : advance s phase event = some (s', next)) :
    s' = s ∧ hurt next = false ∧ (holds next = false ∨
      phase = .refreshing ∧ event = .readFile ∧ ∃ cur, loadTokens s.file = some cur ∧ next = .loaded cur) := by
  have broke : holds (.finished .broken) = false ∧ hurt (.finished .broken) = false := ⟨rfl, rfl⟩
  unfold advance at taken
  split at taken
  · cases taken
    refine ⟨rfl, ?_⟩
    unfold loadThen
    cases loadTokens s.file with
    | none => exact ⟨rfl, Or.inl rfl⟩
    | some tokens => exact ⟨rfl, Or.inl rfl⟩
  · cases taken
    refine ⟨rfl, ?_⟩
    split_ifs
    · exact ⟨rfl, Or.inl rfl⟩
    · exact ⟨rfl, Or.inl rfl⟩
  · cases taken
    refine ⟨rfl, ?_⟩
    unfold loadThen
    cases loadTokens s.file with
    | none => exact ⟨rfl, Or.inl rfl⟩
    | some tokens => exact ⟨rfl, Or.inr ⟨rfl, rfl, tokens, rfl, rfl⟩⟩
  · cases idle
  · cases idle
  · cases idle
  · cases idle
  · cases idle
  · cases taken
    exact ⟨rfl, rfl, Or.inl rfl⟩
  · cases taken
  · cases taken
    exact ⟨rfl, broke.2, Or.inl broke.1⟩
  · cases taken

theorem issue_latest {refreshToken : String} (issued : s.issue refreshToken = some s') :
    s'.file = s.file ∧ s'.issued.head? = some refreshToken := by
  unfold Shared.issue at issued
  split_ifs at issued
  cases issued
  exact ⟨rfl, rfl⟩

/-- A call that holds the session goes on holding it or lets it go with its last token in the file. -/
theorem advance_held (held : Held s phase) (arrives : isLost event = false)
    (unbroken : event = .fail → hasAnswer phase = false) (taken : advance s phase event = some (s', next)) :
    hurt next = false ∧ (holds next = true ∧ Held s' next ∨ holds next = false ∧ Stored s' s'.file) := by
  cases phase with
  | start | sending | refreshing | resending | finished => cases held
  | loaded cur =>
      obtain ⟨⟨t, live, current⟩, own⟩ := held
      cases event with
      | exchange accessToken refreshToken idToken =>
          rw [advance, if_pos own] at taken
          obtain ⟨after, issued, same⟩ := Option.map_eq_some_iff.mp taken
          cases same
          obtain ⟨same_file, latest⟩ := issue_latest issued
          refine ⟨rfl, Or.inl ⟨rfl, ?_, ?_, latest⟩⟩
          · exact ⟨t, same_file ▸ live⟩
          · exact nofun
      | lost refreshToken => cases arrives
      | fail =>
          cases taken
          exact ⟨rfl, Or.inr ⟨rfl, t, live, current⟩⟩
      | readFile | respond | mutate | write | rename => cases taken
  | exchanged cur r =>
      obtain ⟨⟨t, live⟩, some, latest⟩ := held
      cases event with
      | mutate now =>
          obtain ⟨root, rotated, fresh⟩ := live.rotate r now
          rw [advance, rotated] at taken
          cases taken
          refine ⟨rfl, Or.inl ⟨rfl, _, fresh, ?_⟩⟩
          obtain ⟨new, refresh⟩ := Option.ne_none_iff_exists'.mp some
          rw [latest, AuthTokens.renew, refresh]
          rfl
      | fail => cases unbroken rfl
      | readFile | respond | exchange | lost | write | rename => cases taken
  | writing cur r root =>
      cases event with
      | write =>
          cases taken
          exact ⟨rfl, Or.inl ⟨rfl, root, rfl, held⟩⟩
      | fail => cases unbroken rfl
      | readFile | respond | exchange | lost | mutate | rename => cases taken
  | swapping cur r =>
      obtain ⟨root, written, stored⟩ := held
      cases event with
      | rename =>
          rw [advance, written] at taken
          cases taken
          exact ⟨rfl, Or.inr ⟨rfl, stored⟩⟩
      | fail => cases unbroken rfl
      | readFile | respond | exchange | lost | mutate | write => cases taken

/-! ## A run of calls -/

/-- One call at most holds the session, and where none does the file has the last refresh token. -/
structure Session (w : World) : Prop where
  unhurt : ∀ phase ∈ w.calls, hurt phase = false
  owner : Nobody (holds · = true) w.calls ∧ Stored w.shared w.shared.file ∨
    ∃ i phase, Alone (holds · = true) w.calls i phase ∧ Held w.shared phase

/-- No call begins its refresh while another one holds the session, no answer of the token endpoint is lost, and no call
breaks off with an answer that it has not stored. -/
def Undisturbed (w : World) (a : Action) : Prop :=
  ∀ phase ∈ w.calls[a.call]?, (phase = .refreshing → a.event = .readFile → ∀ other ∈ w.calls, holds other = false) ∧
    isLost a.event = false ∧ (a.event = .fail → hasAnswer phase = false)

instance (w : World) (a : Action) : Decidable (Undisturbed w a) :=
  inferInstanceAs (Decidable (∀ phase ∈ w.calls[a.call]?, _ ∧ _ ∧ _))

theorem step_some {w w' : World} {a : Action} (taken : step w a = some w') : ∃ phase shared next,
    w.calls[a.call]? = some phase ∧ advance w.shared phase a.event = some (shared, next) ∧
      w' = ⟨shared, w.calls.set a.call next⟩ := by
  obtain ⟨phase, found, rest⟩ := Option.bind_eq_some_iff.mp taken
  obtain ⟨⟨shared, next⟩, advanced, same⟩ := Option.bind_eq_some_iff.mp rest
  exact ⟨phase, shared, next, found, advanced, (Option.some.inj same).symm⟩

theorem session_step {w w' : World} {a : Action} (undisturbed : Undisturbed w a) (session : Session w)
    (taken : step w a = some w') : Session w' := by
  obtain ⟨phase, shared, next, found, advanced, rfl⟩ := step_some taken
  obtain ⟨begins, arrives, unbroken⟩ := undisturbed phase found
  have unhurt (fine : hurt next = false) : ∀ p ∈ w.calls.set a.call next, hurt p = false := by
    intro p member
    rcases List.mem_or_eq_of_mem_set member with old | rfl
    · exact session.unhurt p old
    · exact fine
  cases own : holds phase with
  | true =>
      rcases session.owner with ⟨nobody, -⟩ | ⟨i, holder, alone, held⟩
      · exact absurd own (nobody a.call phase found)
      · obtain ⟨rfl, rfl⟩ := alone.eq found own
        obtain ⟨fine, ⟨still, known⟩ | ⟨done, stored⟩⟩ := advance_held held arrives unbroken advanced
        · exact ⟨unhurt fine, Or.inr ⟨a.call, next, alone.set still, known⟩⟩
        · exact ⟨unhurt fine, Or.inl ⟨alone.leave (by simp [done]), stored⟩⟩
  | false =>
      obtain ⟨rfl, fine, idle | ⟨waiting, reads, cur, loaded, rfl⟩⟩ := advance_idle own advanced
      · have agree := agree_set (p := (holds · = true)) found (by simp [own]) (by simpa using idle)
        refine ⟨unhurt fine, ?_⟩
        rcases session.owner with ⟨nobody, stored⟩ | ⟨i, holder, alone, held⟩
        · exact Or.inl ⟨nobody.of_agree agree, stored⟩
        · exact Or.inr ⟨i, holder, alone.of_agree agree, held⟩
      · have nobody : Nobody (holds · = true) w.calls :=
          Nobody.of_forall fun other member => by simp [begins waiting reads other member]
        refine ⟨unhurt fine, Or.inr ⟨a.call, _, nobody.alone_set found rfl, ?_⟩⟩
        rcases session.owner with ⟨-, t, live, current⟩ | ⟨i, holder, alone, -⟩
        · rw [live.loadTokens] at loaded
          cases loaded
          exact ⟨⟨cur, live, current⟩, current⟩
        · exact absurd alone.meets (nobody i holder alone.found)

/-- What a state of the calls must meet. -/
structure SessionKept (w : World) : Prop where
  /-- Once all calls have finished, the file has the refresh token that the endpoint issued last. -/
  stored : (∀ phase ∈ w.calls, ∃ outcome, phase = .finished outcome) →
    ∃ t, loadTokens w.shared.file = some t ∧ w.shared.issued.head? = some t.refreshToken
  unhurt : ∀ phase ∈ w.calls, hurt phase = false

theorem Session.kept {w : World} (session : Session w) : SessionKept w := by
  refine ⟨?_, session.unhurt⟩
  intro finished
  rcases session.owner with ⟨-, t, live, current⟩ | ⟨i, holder, alone, -⟩
  · exact ⟨t, live.loadTokens, current⟩
  · obtain ⟨outcome, rfl⟩ := finished holder (List.mem_of_getElem? alone.found)
    cases alone.meets

/-- In every run of any calls whose steps are undisturbed no call fails for another one, and once all have finished the
session is in the file. -/
theorem session_survives {file : Json} {t : AuthTokens} {tmp : Option Json} {issued : List String} {calls : Nat}
    {actions : List Action} {w : World} (live : Live file t) (current : issued.head? = some t.refreshToken)
    (undisturbed : AllSteps step Undisturbed (.init file tmp issued calls) actions)
    (reached : run step (.init file tmp issued calls) actions = some w) : SessionKept w := by
  have start : Session (.init file tmp issued calls) := by
    have waiting (phase : Phase) (member : phase ∈ List.replicate calls Phase.start) : phase = .start :=
      (List.mem_replicate.mp member).2
    refine ⟨?_, Or.inl ⟨Nobody.of_forall ?_, t, live, current⟩⟩
    · intro phase member
      rw [waiting phase member]
      rfl
    · intro phase member
      rw [waiting phase member]
      exact Bool.false_ne_true
  exact (invariant_of_allSteps (fun _ _ _ => session_step) undisturbed start reached).kept

/-! ## Two calls at once -/

def loginFile : Json :=
  .object [("tokens", .object [("access_token", .string "a0"), ("refresh_token", .string "r0")])]

def login : AuthTokens := ⟨"a0", "r0", ""⟩

theorem live_loginFile : Live loginFile login := ⟨_, _, rfl, rfl, rfl⟩

def refreshOf (call : Nat) (number : String) : List Action :=
  [⟨call, .readFile⟩, ⟨call, .exchange ("a" ++ number) ("r" ++ number) none⟩, ⟨call, .mutate "now"⟩, ⟨call, .write⟩,
    ⟨call, .rename⟩, ⟨call, .respond 200⟩]

def bothExpired : List Action := [⟨0, .readFile⟩, ⟨1, .readFile⟩, ⟨0, .respond 401⟩, ⟨1, .respond 401⟩]

/-- One refresh after the other. -/
def inTurn : List Action := bothExpired ++ (refreshOf 0 "1" ++ refreshOf 1 "2")

/-- The second call reads the file before the first one has used its token. -/
def overlapping : List Action := bothExpired ++ (⟨1, .readFile⟩ :: refreshOf 0 "1" ++ [⟨1, .exchange "a2" "r2" none⟩])

/-- The world after the two refreshes in turn. -/
def renewed : World where
  shared := ⟨.object [("last_refresh", .string "now"),
    ("tokens", .object [("access_token", .string "a2"), ("refresh_token", .string "r2")])], none, ["r2", "r1", "r0"]⟩
  calls := [.finished (.answered 200), .finished (.answered 200)]

theorem inTurn_kept : SessionKept renewed :=
  @session_survives loginFile login none ["r0"] 2 inTurn renewed live_loginFile rfl (by decide) rfl

/-- The second call fails for the first one's refresh. -/
theorem overlapping_hurts : Live loginFile login ∧ ∃ w, run step (.init loginFile none ["r0"] 2) overlapping = some w ∧
    w.calls = [.finished (.answered 200), .finished .rejected] ∧ ¬SessionKept w := by
  refine ⟨live_loginFile, _, rfl, rfl, ?_⟩
  intro kept
  have unhurt : hurt (.finished .rejected) = false := kept.unhurt _ (by decide)
  cases unhurt

end Daimon.Proof.Llm.TokenRefresh
