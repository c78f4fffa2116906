import Daimon.Broker.Execute
import Daimon.Driver.Param
import Daimon.Lib.JsonLeaves
import Daimon.Lib.Template

/-!
# The connector driver

`ConnectorDriver` (`daimon-driver/src/connector.rs`): a capability is declared in a profile, its parameters
are validated against their classes, and its operation is rendered from templates. How other crates
print their values is a parameter.
-/

namespace Daimon.Driver
open Daimon.Core Lib Broker

/-- Texts made elsewhere: `serde_json` numbers and documents, `Debug` of a list of strings and of a
result, and `Display` of a broker error. -/
structure Texts where
  number : Number → String
  json : Json → String
  strings : List String → String
  opResult : OpResult → String
  brokerError : BrokerError → String

def ParamError.display (texts : Texts) : ParamError → String
  | .empty => "empty parameter is not allowed"
  | .disallowedChar ch cls value => "value contains disallowed char `" ++ ch.toString ++ "` for class " ++
      cls ++ " (value=`" ++ value ++ "`)"
  | .malformed value cls => "value `" ++ value ++ "` is not a valid " ++ cls
  | .notInEnum value allowed => "value `" ++ value ++ "` is not one of the allowed enum members " ++
      texts.strings allowed

namespace Connector

/-! ## Profiles -/

inductive ProfileTransport where
  | rest
  | ssh
  | snmp
  deriving DecidableEq, Repr

/-- The `op` table of a capability. An object in the body keeps its keys in order. -/
structure ProfileOp where
  method : HttpMethod
  path : String
  body : Option Json
  command : Option String
  timeoutSecs : Option Nat
  oid : Option String
  walk : Bool
  sorted : ∀ v, body = some v → v.KeysSorted

structure ProfileCapability where
  name : String
  version : Version
  description : Option String
  compensating : Option String
  irreversible : Bool
  readOnly : Bool
  params : List (String × ParamClass)
  op : ProfileOp
  ordered : (params.map Prod.fst).Pairwise (· < ·)

structure DeclaredCap where
  cap : ProfileCapability
  auth : AuthScheme
  transport : ProfileTransport

inductive ConnectorError where
  | unknownCapability (name : String)
  | missingParam (capability param : String)
  | param (param : String) (source : ParamError)
  | badTarget (message : String)
  | broker (message : String)
  | wrongOpResult (message : String)
  | badProfile (message : String)
  deriving DecidableEq, Repr

def ConnectorError.display (texts : Texts) : ConnectorError → String
  | .unknownCapability name => "unknown capability `" ++ name ++ "`"
  | .missingParam capability name => "missing required param `" ++ name ++ "` for capability `" ++
      capability ++ "`"
  | .param name source => "parameter validation for `" ++ name ++ "`: " ++ source.display texts
  | .badTarget message => "invalid target_ref `" ++ message ++ "`"
  | .broker message => "broker: " ++ message
  | .wrongOpResult message => "unexpected OpResult variant: " ++ message
  | .badProfile message => "malformed connector profile: " ++ message

def schemaFromParams (params : List (String × ParamClass)) : Json :=
  let type : ParamClass → String
    | .int => "integer"
    | _ => "string"
  Json.ofFields [("type", .string "object"),
    ("required", .array (params.map fun (name, _) => .string name)),
    ("properties", Json.ofFields (params.map fun (name, cls) =>
      (name, Json.ofFields [("type", .string (type cls))])))]

def projectCapability (cap : ProfileCapability) : Capability :=
  if cap.readOnly then .readOnly cap.name cap.version
  else
    { name := cap.name, version := cap.version, description := cap.description,
      schema := some (schemaFromParams cap.params),
      compensating := cap.compensating.map fun name => ⟨name, none⟩,
      irreversible := cap.irreversible }

/-! ## Templates -/

abbrev Validated := List (String × String)

def Validated.slot (validated : Validated) (name : List Char) : Option (List Char) :=
  (validated.lookup (String.ofList name)).map String.toList

def slotErrors (capability : String) : SlotErrors Char ConnectorError where
  unterminated _ := .missingParam capability "<unterminated slot>"
  unresolved name := .missingParam capability (String.ofList name)

def substitute (template capability : String) (validated : Validated) : Except ConnectorError String :=
  (fill '{' '}' (slotErrors capability) validated.slot template.toList).map String.ofList

def substituteJson (value : Json) (capability : String) (validated : Validated) :
    Except ConnectorError Json :=
  value.mapStrings fun text => substitute text capability validated

/-! ## Operations -/

def renderBody (body : Option Json) (capability : String) (validated : Validated) :
    Except ConnectorError (Option Json) :=
  match body with
  | some v => (substituteJson v capability validated).map some
  | none => .ok none

def renderHttpOp (op : ProfileOp) (capability : String) (validated : Validated) (auth : AuthScheme) :
    Except ConnectorError Op := do
  let path ← substitute op.path capability validated
  let body ← renderBody op.body capability validated
  return .http op.method path [] body auth

def renderSshOp (op : ProfileOp) (capability : String) (validated : Validated) (timeoutSecs : Nat) :
    Except ConnectorError Op :=
  match op.command with
  | none => .error (.badProfile ("ssh capability `" ++ capability ++ "` has no `command` template"))
  | some template => do
      let command ← substitute template capability validated
      return .shellCommand command (op.timeoutSecs.getD timeoutSecs)

def renderSnmpOp (op : ProfileOp) (capability : String) (validated : Validated) :
    Except ConnectorError Op :=
  match op.oid with
  | none => .error (.badProfile ("snmp capability `" ++ capability ++ "` has no `oid`"))
  | some template => do
      let oid ← substitute template capability validated
      return if op.walk then .snmpWalk oid else .snmpGet oid

/-! ## Dispatch -/

def extractParam (texts : Texts) (params : Json) (name : String) : Option String :=
  match params.get? name with
  | some (.string s) => some s
  | some (.number n) => some (texts.number n)
  | some (.bool b) => some (if b then "true" else "false")
  | _ => none

def collectParams (texts : Texts) (capability : String) (params : Json) :
    List (String × ParamClass) → Except ConnectorError Validated
  | [] => .ok []
  | (pname, pclass) :: declared =>
      match extractParam texts params pname with
      | none => .error (.missingParam capability pname)
      | some raw =>
          match validate raw pclass with
          | .error e => .error (.param pname e)
          | .ok () => (collectParams texts capability params declared).map ((pname, raw) :: ·)

def renderOp (d : DeclaredCap) (capability : String) (validated : Validated) (timeoutSecs : Nat) :
    Except ConnectorError Op :=
  match d.transport with
  | .rest => renderHttpOp d.cap.op capability validated d.auth
  | .ssh => renderSshOp d.cap.op capability validated timeoutSecs
  | .snmp => renderSnmpOp d.cap.op capability validated

/-- `dispatch` up to its call of `broker.execute`. -/
def dispatchRequest (texts : Texts) (declared : List (String × DeclaredCap)) (actorId capability targetRef : String)
    (params : Json) (timeoutSecs : Nat) : Except ConnectorError ExecRequest :=
  match declared.lookup capability with
  | none => .error (.unknownCapability capability)
  | some d => do
      let validated ← collectParams texts capability params d.cap.params
      let op ← renderOp d capability validated timeoutSecs
      match TargetRef.parse targetRef with
      | .error e => .error (.badTarget e.display)
      | .ok target => .ok ((ExecRequest.new actorId target op).withCapabilityMeta (projectCapability d.cap))

end Connector
end Daimon.Driver
