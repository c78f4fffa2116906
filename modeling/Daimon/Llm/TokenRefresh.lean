import Daimon.Lib.Run
import Daimon.Llm.Types

/-!
# The tokens of a ChatGPT session

Any number of `send_with_refresh` calls of `daimon-llm/src/chatgpt.rs` on one `auth.json`. Each request and each
operation on a file is one step, and anything may happen between two of them. Every use of the token endpoint takes the
presented refresh token away and issues a new one.
-/

namespace Daimon.Llm.TokenRefresh
open Lib
open Daimon.Driver.NetworkResponse (structFields)

structure AuthTokens where
  accessToken : String
  refreshToken : String
  accountId : String
  deriving DecidableEq, Repr

/-- The answer of the token endpoint. -/
structure RefreshResp where
  accessToken : String
  refreshToken : Option String
  idToken : Option String
  deriving DecidableEq, Repr

/-! ## The file -/

def AuthTokens.fromValue (value : Json) : Option AuthTokens :=
  match structFields ["access_token", "refresh_token", "account_id"] value with
  | some [accessToken, refreshToken, accountId] => do
      let accessToken ← accessToken.bind Json.asStr?
      let refreshToken ← decodeDefault Json.asStr? "" refreshToken
      let accountId ← decodeDefault Json.asStr? "" accountId
      return { accessToken, refreshToken, accountId }
  | _ => none

def loadTokens (file : Json) : Option AuthTokens :=
  match structFields ["tokens"] file with
  | some [tokens] => tokens.bind AuthTokens.fromValue
  | _ => none

/-- `value[key] = new`; none where it panics. -/
def setKey (key : String) (new : Json) : Json → Option Json
  | .object fields => some (.object (Json.insertField key new fields))
  | .null => some (.object [(key, new)])
  | _ => none

/-- `root["tokens"][key] = new`. -/
def setToken (key new : String) (root : Json) : Option Json := do
  let tokens ← setKey key (.string new) ((root.get? "tokens").getD .null)
  setKey "tokens" tokens root

def setTokenIf (key : String) (new : Option String) (root : Json) : Option Json :=
  match new with
  | some new => setToken key new root
  | none => some root

/-- The file with the rotated tokens; its other keys stay. -/
def rotate (r : RefreshResp) (now : String) (root : Json) : Option Json := do
  let root ← setToken "access_token" r.accessToken root
  let root ← setTokenIf "refresh_token" r.refreshToken root
  let root ← setTokenIf "id_token" r.idToken root
  setKey "last_refresh" (.string now) root

def AuthTokens.renew (cur : AuthTokens) (r : RefreshResp) : AuthTokens :=
  { cur with accessToken := r.accessToken, refreshToken := r.refreshToken.getD cur.refreshToken }

/-! ## A call -/

inductive Outcome where
  | answered (status : Nat)
  /-- The token endpoint does not know the refresh token. -/
  | rejected
  /-- There is no temporary file to rename. -/
  | swapFailed
  | panicked
  /-- A request or a file operation failed. -/
  | broken
  deriving DecidableEq, Repr

inductive Phase where
  | start
  | sending (tokens : AuthTokens)
  | refreshing
  | loaded (cur : AuthTokens)
  | exchanged (cur : AuthTokens) (r : RefreshResp)
  | writing (cur : AuthTokens) (r : RefreshResp) (root : Json)
  | swapping (cur : AuthTokens) (r : RefreshResp)
  | resending (fresh : AuthTokens)
  | finished (outcome : Outcome)
  deriving DecidableEq

/-- What the environment does for the next step of a call. `lost` is an answer of the token endpoint that does not
arrive. -/
inductive Event where
  | readFile
  | respond (status : Nat)
  | exchange (accessToken refreshToken : String) (idToken : Option String)
  | lost (refreshToken : String)
  | mutate (now : String)
  | write
  | rename
  | fail
  deriving DecidableEq, Repr

/-- What the calls share: the file, the temporary file beside it, and the refresh tokens that the endpoint issued, the
latest first. -/
structure Shared where
  file : Json
  tmp : Option Json
  issued : List String
  deriving DecidableEq

/-- The endpoint's use of a refresh token, which issues a new one. -/
def Shared.issue (s : Shared) (refreshToken : String) : Option Shared :=
  if refreshToken ∈ s.issued then none else some { s with issued := refreshToken :: s.issued }

def loadThen (s : Shared) (next : AuthTokens → Phase) : Phase :=
  match loadTokens s.file with
  | some tokens => next tokens
  | none => .finished .broken

def advance (s : Shared) : Phase → Event → Option (Shared × Phase)
  | .start, .readFile => some (s, loadThen s .sending)
  | .sending _, .respond status =>
      some (s, if status = 401 then .refreshing else .finished (.answered status))
  | .refreshing, .readFile => some (s, loadThen s .loaded)
  | .loaded cur, .exchange accessToken refreshToken idToken =>
      if s.issued.head? = some cur.refreshToken then
        (s.issue refreshToken).map fun s => (s, .exchanged cur ⟨accessToken, some refreshToken, idToken⟩)
      else some (s, .finished .rejected)
  | .loaded cur, .lost refreshToken =>
      if s.issued.head? = some cur.refreshToken then
        (s.issue refreshToken).map fun s => (s, .finished .broken)
      else some (s, .finished .broken)
  | .exchanged cur r, .mutate now =>
      match rotate r now s.file with
      | some root => some (s, .writing cur r root)
      | none => some (s, .finished .panicked)
  | .writing cur r root, .write => some ({ s with tmp := some root }, .swapping cur r)
  | .swapping cur r, .rename =>
      match s.tmp with
      | some root => some ({ s with file := root, tmp := none }, .resending (cur.renew r))
      | none => some (s, .finished .swapFailed)
  | .resending _, .respond status => some (s, .finished (.answered status))
  | .finished _, _ => none
  | _, .fail => some (s, .finished .broken)
  | _, _ => none

/-! ## All calls -/

structure World where
  shared : Shared
  calls : List Phase
  deriving DecidableEq

structure Action where
  call : Nat
  event : Event
  deriving DecidableEq, Repr

def step (w : World) (a : Action) : Option World := do
  let phase ← w.calls[a.call]?
  let (shared, next) ← advance w.shared phase a.event
  return { shared, calls := w.calls.set a.call next }

/-- The calls before their first step. -/
def World.init (file : Json) (tmp : Option Json) (issued : List String) (calls : Nat) : World :=
  ⟨⟨file, tmp, issued⟩, List.replicate calls .start⟩

end Daimon.Llm.TokenRefresh
