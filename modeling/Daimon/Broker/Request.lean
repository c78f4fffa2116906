import Daimon.Core.Capability
import Daimon.Lib.Utf8

/-!
# Execution requests

The data of `daimon-broker`: what an agent sends to `Broker::execute`, the transport operation in it,
and the inventory and vault records the broker resolves on the way.
-/

namespace Daimon.Broker
open Daimon.Core Lib

/-! ## References -/

structure TargetRef where
  name : String
  deriving DecidableEq, Repr

inductive TargetRef.ParseError where
  | missingScheme
  | emptyName
  | invalidShape
  deriving DecidableEq, Repr

def TargetRef.ParseError.display : TargetRef.ParseError → String
  | .missingScheme => "target ref must begin with `target://`"
  | .emptyName => "target ref name is empty"
  | .invalidShape => "target ref must be a single name segment (no slashes)"

def stripPrefix? (scheme text : String) : Option String :=
  if scheme.toList <+: text.toList then some (String.ofList (text.toList.drop scheme.toList.length))
  else none

def TargetRef.parse (text : String) : Except TargetRef.ParseError TargetRef :=
  match stripPrefix? "target://" text with
  | none => .error .missingScheme
  | some rest =>
      if rest = "" then .error .emptyName
      else if '/' ∈ rest.toList then .error .invalidShape
      else .ok ⟨rest⟩

def TargetRef.display (ref : TargetRef) : String := "target://" ++ ref.name

inductive CredentialRef where
  | named (name : String)
  | path (organization collection item : String)
  | uuid (id : String)
  deriving DecidableEq, Repr

inductive CredentialRef.ParseError where
  | missingScheme
  | invalidShape
  deriving DecidableEq, Repr

def isAsciiHexDigit (c : Char) : Bool :=
  c.isDigit || (decide ('a' ≤ c) && decide (c ≤ 'f')) || (decide ('A' ≤ c) && decide (c ≤ 'F'))

def looksLikeUuid (text : String) : Bool :=
  text.toList.length == 36 && text.toList.zipIdx.all fun (c, i) =>
    if i == 8 || i == 13 || i == 18 || i == 23 then c == '-' else isAsciiHexDigit c

/-- `looks_like_uuid` as it stands, over the bytes of the text. -/
def looksLikeUuidBytes (text : String) : Bool :=
  let isHexByte (b : UInt8) : Bool :=
    (0x30 ≤ b && b ≤ 0x39) || (0x61 ≤ b && b ≤ 0x66) || (0x41 ≤ b && b ≤ 0x46)
  (bytesOf text).length == 36 && (bytesOf text).zipIdx.all fun (b, i) =>
    if i == 8 || i == 13 || i == 18 || i == 23 then b == 0x2d else isHexByte b

def CredentialRef.parse (text : String) : Except CredentialRef.ParseError CredentialRef :=
  match stripPrefix? "vault://" text with
  | none => .error .missingScheme
  | some rest =>
      match rest.toList.splitOn '/' with
      | [single] =>
          if single = [] then .error .invalidShape
          else if looksLikeUuid (String.ofList single) then .ok (.uuid (String.ofList single))
          else .ok (.named (String.ofList single))
      | [organization, collection, item] =>
          if organization = [] ∨ collection = [] ∨ item = [] then .error .invalidShape
          else .ok (.path (String.ofList organization) (String.ofList collection) (String.ofList item))
      | _ => .error .invalidShape

/-- A UUID has no name in the in-tree vault. -/
def CredentialRef.name : CredentialRef → Option String
  | .named name => some name
  | .path _ _ item => some item
  | .uuid _ => none

def CredentialRef.display : CredentialRef → String
  | .named name => "vault://" ++ name
  | .path organization collection item => "vault://" ++ organization ++ "/" ++ collection ++ "/" ++ item
  | .uuid id => "vault://" ++ id

/-! ## Operations -/

inductive HttpMethod where
  | get
  | post
  | put
  | patch
  | delete
  deriving DecidableEq, Repr

def HttpMethod.debug : HttpMethod → String
  | .get => "Get"
  | .post => "Post"
  | .put => "Put"
  | .patch => "Patch"
  | .delete => "Delete"

inductive AuthScheme where
  | bearer
  | header (header value : String)
  | none
  deriving DecidableEq, Repr

inductive SnmpValue where
  | int (n : Int)
  | uint (n : Nat)
  | string (s : String)
  | oid (s : String)
  deriving DecidableEq, Repr

inductive Op where
  | shellCommand (command : String) (timeoutSecs : Nat)
  | http (method : HttpMethod) (path : String) (headers : List (String × String))
      (body : Option Json) (auth : AuthScheme)
  | snmpGet (oid : String)
  | snmpSet (oid : String) (value : SnmpValue)
  | snmpWalk (oidRoot : String)
  deriving DecidableEq

inductive OpResult where
  | shellCommand (stdout stderr : String) (exitStatus : Int)
  | http (status : Nat) (body : Json) (headers : List (String × String))
  | snmp (values : List (String × SnmpValue))
  | snmpSetAck
  | structured (doc : Json)
  deriving DecidableEq

def takeChars (n : Nat) (text : String) : String := String.ofList (text.toList.take n)

def opSummaryFor : Op → String
  | .shellCommand command _ => "ssh:exec:" ++ takeChars 80 command
  | .http method path _ _ _ => "http:" ++ method.debug ++ ":" ++ path
  | .snmpGet oid => "snmp:get:" ++ oid
  | .snmpSet oid _ => "snmp:set:" ++ oid
  | .snmpWalk oidRoot => "snmp:walk:" ++ oidRoot

/-! ## Requests -/

structure ExecRequest where
  targetRef : TargetRef
  op : Op
  actorId : String
  capability : Option String
  isReadOnly : Bool
  capabilityMeta : Option Capability
  deriving DecidableEq

namespace ExecRequest

def new (actorId : String) (targetRef : TargetRef) (op : Op) : ExecRequest :=
  { targetRef, op, actorId, capability := none, isReadOnly := false, capabilityMeta := none }

def withCapability (req : ExecRequest) (capability : String) (isReadOnly : Bool) : ExecRequest :=
  { req with capability := some capability, isReadOnly }

def withCapabilityMeta (req : ExecRequest) (capability : Capability) : ExecRequest :=
  { req with
    isReadOnly := capability.isRead
    capability := some capability.name
    capabilityMeta := some capability }

def guardCapability (req : ExecRequest) : String := req.capability.getD "broker.execute"

/-- `derive_read_only`: the descriptor alone decides; a request without one is a write. -/
def deriveReadOnly (req : ExecRequest) : Bool :=
  (req.capabilityMeta.map Capability.isRead).getD false

end ExecRequest

/-! ## Inventory, vault and transport -/

inductive TransportKind where
  | ssh
  | rest
  | snmp
  | grpc
  deriving DecidableEq, Repr

/-- The part of a `ManagedTarget` that `execute` reads. -/
structure ManagedTarget where
  transport : TransportKind
  host : String
  port : Nat
  credentialRef : String
  deriving DecidableEq, Repr

structure TransportTarget where
  host : String
  port : Nat
  deriving DecidableEq, Repr

inductive Credential where
  | sshKey (username privateKeyPem : String) (passphrase : Option String)
  | sshPassword (username password : String)
  | apiToken (token : String)
  | generic (fields : List (String × String))
  deriving DecidableEq, Repr

inductive CredentialKind where
  | sshKey
  | sshPassword
  | apiToken
  | generic
  deriving DecidableEq, Repr

def Credential.kind : Credential → CredentialKind
  | .sshKey _ _ _ => .sshKey
  | .sshPassword _ _ => .sshPassword
  | .apiToken _ => .apiToken
  | .generic _ => .generic

inductive InventoryError where
  | notFound (ref : String)
  | other (message : String)
  deriving DecidableEq, Repr

inductive VaultError where
  | notFound (ref : String)
  | sessionLocked
  | transport (message : String)
  | decode (message : String)
  | other (message : String)
  deriving DecidableEq, Repr

inductive TransportError where
  | notImplemented (kind : String)
  | auth (message : String)
  | connect (message : String)
  | timeout (secs : Nat)
  | io (message : String)
  | opMismatch (op transport : String)
  | other (message : String)
  deriving DecidableEq, Repr

end Daimon.Broker
