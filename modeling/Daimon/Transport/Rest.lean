import Daimon.Broker.Request

/-!
# The REST transport

`RestTransport` (`daimon-transport/src/rest.rs`) up to the request that it sends. Whether a text may stand in a
header is decided by the `http` crate.
-/

namespace Daimon.Transport
open Lib Daimon.Broker

/-- The errors of `HeaderValue::from_str` and `HeaderName::from_bytes`, where the text is refused. -/
structure HeaderChecks where
  value : String → Option String
  name : String → Option String

structure RestRequest where
  method : HttpMethod
  url : String
  headers : List (String × String)
  auth : Option (String × String)
  body : Option Json

def isAbsolute (path : String) : Bool :=
  (stripPrefix? "http://" path).isSome || (stripPrefix? "https://" path).isSome

def leadingSep (path : String) : String := if (stripPrefix? "/" path).isSome then "" else "/"

def fullUrl (target : TransportTarget) (path : String) : String :=
  if isAbsolute path then path
  else "https://" ++ target.host ++ ":" ++ toString target.port ++ leadingSep path ++ path

def credentialKindDebug : CredentialKind → String
  | .sshKey => "SshKey"
  | .sshPassword => "SshPassword"
  | .apiToken => "ApiToken"
  | .generic => "Generic"

def authHeader (checks : HeaderChecks) (token : String) : AuthScheme → Except TransportError (Option (String × String))
  | .none => .ok none
  | .bearer =>
      match checks.value ("Bearer " ++ token) with
      | some e => .error (.auth ("invalid bearer token: " ++ e))
      | none => .ok (some ("authorization", "Bearer " ++ token))
  | .header header value =>
      let rendered := value.replace "\x7btoken\x7d" token
      match checks.value rendered, checks.name header with
      | some e, _ => .error (.auth ("invalid auth header value: " ++ e))
      | none, some e => .error (.auth ("invalid auth header name: " ++ e))
      | none, none => .ok (some (header, rendered))

/-- `exec_http` up to `send`. -/
def execHttp (checks : HeaderChecks) (target : TransportTarget) (method : HttpMethod) (path : String)
    (headers : List (String × String)) (body : Option Json) (auth : AuthScheme) (cred : Credential) :
    Except TransportError RestRequest :=
  match cred with
  | .apiToken token =>
      (authHeader checks token auth).map fun auth => { method, url := fullUrl target path, headers, auth, body }
  | other => .error (.opMismatch "http" ("rest requires ApiToken credential, got " ++ credentialKindDebug other.kind))

def opName : Op → String
  | .shellCommand _ _ => "shell_command"
  | .http _ _ _ _ _ => "http"
  | .snmpGet _ => "snmp_get"
  | .snmpSet _ _ => "snmp_set"
  | .snmpWalk _ => "snmp_walk"

/-- What `execute` sends. -/
def restRequest (checks : HeaderChecks) (target : TransportTarget) (op : Op) (cred : Credential) :
    Except TransportError RestRequest :=
  match op with
  | .http method path headers body auth => execHttp checks target method path headers body auth cred
  | other => .error (.opMismatch (opName other) "rest")

end Daimon.Transport
