import Daimon.Driver.Connector
import Daimon.Driver.RouterOs
import Daimon.Lib.Text

/-!
# Replies on the bus

How each driver turns the broker's answer into the body of its reply, from a decoded request on: the
bus adapters of `daimon-driver-firewall-routeros/src/lib.rs` and `daimon-driver/src/connector.rs`, their two wire
types, and `NetworkResponse` as its readers decode it.
-/

namespace Daimon.Driver
open Daimon.Core Lib Broker

structure NetworkRequest where
  capability : String
  targetRef : String
  timeoutSecs : Option Nat
  params : Option Json
  deriving DecidableEq

def defaultTimeoutSecs : Nat := 30

def jsonInt (n : Int) : Json :=
  .number (if 0 ≤ n then .posInt (UInt64.ofNat n.toNat) else .negInt n)

/-! ## The RouterOS driver -/

structure NetworkOutput where
  command : String
  stdout : String
  stderr : String
  exitStatus : Int
  deriving DecidableEq, Repr

structure NetworkResponse where
  success : Bool
  output : Option NetworkOutput
  error : Option String
  deriving DecidableEq, Repr

def presentFields (fields : List (String × Option Json)) : Json :=
  Json.ofFields (fields.filterMap fun (key, value) => value.map (key, ·))

namespace NetworkResponse

def ok (output : NetworkOutput) : NetworkResponse := { success := true, output := some output, error := none }

def failure (message : String) : NetworkResponse :=
  { success := false, output := none, error := some message }

def outputValue (output : NetworkOutput) : Json :=
  Json.ofFields [("command", .string output.command), ("stdout", .string output.stdout),
    ("stderr", .string output.stderr), ("exit_status", jsonInt output.exitStatus)]

def toValue (response : NetworkResponse) : Json :=
  presentFields [("success", some (.bool response.success)), ("output", response.output.map outputValue),
    ("error", response.error.map .string)]

/-! How a struct is decoded: its fields by name from an object, or by position from an array. -/

def structFields (names : List String) : Json → Option (List (Option Json))
  | .object fields => some (names.map fun name => fields.lookup name)
  | .array items =>
      if items.length ≤ names.length then some ((List.range names.length).map fun i => items[i]?) else none
  | _ => none

def decodeI32 : Json → Option Int
  | .number (.posInt n) => if n.toNat < 0x80000000 then some n.toNat else none
  | .number (.negInt n) => if -0x80000000 ≤ n then some n else none
  | _ => none

/-- An optional field with a default: absent and `null` are `None`. -/
def decodeOptional {α : Type} (decode : Json → Option α) : Option Json → Option (Option α)
  | none => some none
  | some .null => some none
  | some value => (decode value).map some

def decodeOutput (value : Json) : Option NetworkOutput :=
  match structFields ["command", "stdout", "stderr", "exit_status"] value with
  | some [command, stdout, stderr, exitStatus] => do
      let command ← command.bind Json.asStr?
      let stdout ← stdout.bind Json.asStr?
      let stderr ← stderr.bind Json.asStr?
      let exitStatus ← exitStatus.bind decodeI32
      return { command, stdout, stderr, exitStatus }
  | _ => none

def fromValue (value : Json) : Option NetworkResponse :=
  match structFields ["success", "output", "error"] value with
  | some [success, output, error] => do
      let success ← success.bind Json.asBool?
      let output ← decodeOptional decodeOutput output
      let error ← decodeOptional Json.asStr? error
      return { success, output, error }
  | _ => none

end NetworkResponse

namespace RouterOs

def RouterOsError.display (texts : Texts) : RouterOsError → String
  | .unknownCapability name => "unknown capability: " ++ name
  | .missingParam message => "missing param: " ++ message
  | .param error => "parameter validation: " ++ error.display texts
  | .badTarget message => "invalid target_ref: " ++ message
  | .broker error => "broker: " ++ texts.brokerError error
  | .wrongOpResult message => "unexpected OpResult variant: " ++ message

/-- `dispatch` up to its call of `broker.execute`, with the command it built. -/
def dispatchRequest (actorId : String) (req : NetworkRequest) : Except RouterOsError (String × ExecRequest) := do
  let command ← buildCommand req.capability req.params
  let sent ← buildExecRequest actorId req.capability req.targetRef command
    (req.timeoutSecs.getD defaultTimeoutSecs) buildCapabilities
  return (command, sent)

def dispatchOutput (texts : Texts) (command : String) :
    Except BrokerError OpResult → Except RouterOsError NetworkOutput
  | .error e => .error (.broker e)
  | .ok (.shellCommand stdout stderr exitStatus) => .ok { command, stdout, stderr, exitStatus }
  | .ok other => .error (.wrongOpResult (texts.opResult other))

/-- The reply's body, where `outcome` is the answer of the broker if it is asked. -/
def handle (texts : Texts) (actorId : String) (req : NetworkRequest) (outcome : Except BrokerError OpResult) :
    Json :=
  let result := do
    let (command, _) ← dispatchRequest actorId req
    dispatchOutput texts command outcome
  match result with
  | .ok out => (NetworkResponse.ok out).toValue
  | .error e => (NetworkResponse.failure (e.display texts)).toValue

end RouterOs

/-! ## The connector driver -/

namespace Connector

structure ConnectorOutput where
  capability : String
  success : Bool
  status : Int
  payload : Json
  deriving DecidableEq

def snmpJson : SnmpValue → Json
  | .int n => jsonInt n
  | .uint n => .number (.posInt (UInt64.ofNat n))
  | .string s => .string s
  | .oid s => .string s

def parseResult (texts : Texts) : OpResult → Except ConnectorError (Bool × Int × Json)
  | .http status body _ => .ok (200 ≤ status && status ≤ 299, status, body)
  | .structured doc => .ok (true, 0, doc)
  | .shellCommand stdout stderr exitStatus => .ok (exitStatus == 0, exitStatus,
      Json.ofFields [("stdout", .string stdout), ("stderr", .string stderr),
        ("exit_status", jsonInt exitStatus)])
  | .snmp values => .ok (true, 0, Json.ofFields (values.map fun (oid, v) => (oid, snmpJson v)))
  | .snmpSetAck => .error (.wrongOpResult (texts.opResult .snmpSetAck))

def dispatchOutput (texts : Texts) (capability : String) :
    Except BrokerError OpResult → Except ConnectorError ConnectorOutput
  | .error e => .error (.broker (texts.brokerError e))
  | .ok result => (parseResult texts result).map fun (success, status, payload) =>
      { capability, success, status, payload }

structure ConnectorReplyOutput where
  stdout : String
  stderr : String
  exitStatus : Int
  deriving DecidableEq, Repr

structure ConnectorReply where
  success : Bool
  output : Option ConnectorReplyOutput
  error : Option String
  deriving DecidableEq, Repr

namespace ConnectorReply

def streams (texts : Texts) (payload : Json) : String × String :=
  let text (key : String) : String := ((payload.get? key).bind Json.asStr?).getD ""
  match payload with
  | .object fields =>
      if (fields.lookup "stdout").isSome || (fields.lookup "stderr").isSome then (text "stdout", text "stderr")
      else (texts.json payload, "")
  | .string s => (s, "")
  | other => (texts.json other, "")

def fromOutput (texts : Texts) (out : ConnectorOutput) : ConnectorReply :=
  let (stdout, stderr) := streams texts out.payload
  { success := out.success
    output := some {
      stdout, stderr
      exitStatus := if out.success then 0 else if out.status = 0 then 1 else out.status }
    error :=
      if out.success then none
      else if trim stderr ≠ "" then some stderr
      else some ("capability `" ++ out.capability ++ "` failed (status " ++ toString out.status ++ ")") }

def err (message : String) : ConnectorReply := { success := false, output := none, error := some message }

def outputValue (output : ConnectorReplyOutput) : Json :=
  Json.ofFields [("stdout", .string output.stdout), ("stderr", .string output.stderr),
    ("exit_status", jsonInt output.exitStatus)]

def toValue (reply : ConnectorReply) : Json :=
  presentFields [("success", some (.bool reply.success)), ("output", reply.output.map outputValue),
    ("error", reply.error.map .string)]

end ConnectorReply

def handle (texts : Texts) (declared : List (String × DeclaredCap)) (actorId : String) (req : NetworkRequest)
    (outcome : Except BrokerError OpResult) : Json :=
  let result := do
    let _ ← dispatchRequest texts declared actorId req.capability req.targetRef
      (req.params.getD (.object [])) (req.timeoutSecs.getD defaultTimeoutSecs)
    dispatchOutput texts req.capability outcome
  match result with
  | .ok out => (ConnectorReply.fromOutput texts out).toValue
  | .error e => (ConnectorReply.err (e.display texts)).toValue

end Connector

/-! ## Either driver -/

inductive BusDriver where
  | routerOs
  | connector (declared : List (String × Connector.DeclaredCap))

namespace BusDriver

/-- The request that the driver sends to the broker, if its checks let it get that far. -/
def execRequest (texts : Texts) (driver : BusDriver) (actorId : String) (req : NetworkRequest) :
    Option ExecRequest :=
  match driver with
  | .routerOs => (RouterOs.dispatchRequest actorId req).toOption.map Prod.snd
  | .connector declared => (Connector.dispatchRequest texts declared actorId req.capability req.targetRef
      (req.params.getD (.object [])) (req.timeoutSecs.getD defaultTimeoutSecs)).toOption

def handle (texts : Texts) (driver : BusDriver) (actorId : String) (req : NetworkRequest)
    (outcome : Except BrokerError OpResult) : Json :=
  match driver with
  | .routerOs => RouterOs.handle texts actorId req outcome
  | .connector declared => Connector.handle texts declared actorId req outcome

end BusDriver
end Daimon.Driver
