import Daimon.Driver.Reply
import Daimon.Orchestrator.Dispatch
import Daimon.Proof.Driver.Param

/-!
# Honest and uniform replies

A reply says `success` only where the device did, but for one driver, which takes any shell result for a
success. The connector's wire type lacks a field that the readers of the shared one require.
-/

namespace Daimon.Proof.Driver
open Daimon.Core Lib Daimon.Driver Daimon.Broker
open Daimon.Orchestrator (Step readStepReply reportsFailure)
open Daimon.Driver.Connector (DeclaredCap ConnectorOutput ConnectorReply)

/-! ## Fields of a reply -/

theorem get?_presentFields_success (success : Bool) (output error : Option Json) :
    (presentFields [("success", some (.bool success)), ("output", output), ("error", error)]).get? "success" =
      some (.bool success) := by
  cases output <;> cases error <;>
    simp [presentFields, Json.ofFields, Json.get?, Json.lookup_insertField_self,
      Json.lookup_insertField_of_ne]

theorem get?_presentFields_output (success : Bool) (output error : Option Json) :
    (presentFields [("success", some (.bool success)), ("output", output), ("error", error)]).get? "output" =
      output := by
  cases output <;> cases error <;>
    simp [presentFields, Json.ofFields, Json.get?, Json.lookup_insertField_self,
      Json.lookup_insertField_of_ne]

theorem get?_presentFields_error (success : Bool) (output error : Option Json) :
    (presentFields [("success", some (.bool success)), ("output", output), ("error", error)]).get? "error" =
      error := by
  cases output <;> cases error <;>
    simp [presentFields, Json.ofFields, Json.get?, Json.lookup_insertField_self,
      Json.lookup_insertField_of_ne]

theorem get?_success_response (response : NetworkResponse) :
    response.toValue.get? "success" = some (.bool response.success) :=
  get?_presentFields_success _ _ _

theorem get?_success_reply (reply : ConnectorReply) :
    reply.toValue.get? "success" = some (.bool reply.success) :=
  get?_presentFields_success _ _ _

/-! ## Honest replies -/

def DeviceSucceeded : OpResult → Prop
  | .shellCommand _ _ exitStatus => exitStatus = 0
  | .http status _ _ => 200 ≤ status ∧ status ≤ 299
  | .snmp _ => True
  | .snmpSetAck => True
  | .structured _ => True

/-- The reply claims success, or a step that gets it is done, only if the device has done it. -/
def Honest (body : Json) (outcome : Except BrokerError OpResult) : Prop :=
  (body.get? "success" = some (.bool true) → ∃ result, outcome = .ok result ∧ DeviceSucceeded result) ∧
  ∀ step reply, readStepReply step (.ok body) = .ok reply →
    ∃ result, outcome = .ok result ∧ DeviceSucceeded result

theorem honest_iff {body : Json} {outcome : Except BrokerError OpResult} {success : Bool}
    (stated : body.get? "success" = some (.bool success)) :
    Honest body outcome ↔ (success = true → ∃ result, outcome = .ok result ∧ DeviceSucceeded result) := by
  constructor
  · intro honest claimed
    subst claimed
    exact honest.1 stated
  · intro device
    refine ⟨?_, ?_⟩
    · intro claimed
      rw [stated] at claimed
      exact device (by simpa using claimed)
    · intro step reply read
      apply device
      cases success with
      | true => rfl
      | false => simp [readStepReply, reportsFailure, stated, Json.asBool?] at read

theorem routerOs_success {texts : Texts} {actorId command : String} {req : NetworkRequest} {sent : ExecRequest}
    (reached : RouterOs.dispatchRequest actorId req = .ok (command, sent))
    (outcome : Except BrokerError OpResult) :
    (RouterOs.handle texts actorId req outcome).get? "success" =
      some (.bool (match outcome with
        | .ok (.shellCommand _ _ _) => true
        | _ => false)) := by
  simp only [RouterOs.handle, reached]
  cases outcome with
  | error e => exact get?_success_response _
  | ok result => cases result <;> exact get?_success_response _

theorem connector_success {texts : Texts} {declared : List (String × DeclaredCap)} {actorId : String}
    {req : NetworkRequest} {sent : ExecRequest}
    (reached : Connector.dispatchRequest texts declared actorId req.capability req.targetRef
      (req.params.getD (.object [])) (req.timeoutSecs.getD defaultTimeoutSecs) = .ok sent)
    (outcome : Except BrokerError OpResult) :
    (Connector.handle texts declared actorId req outcome).get? "success" =
      some (.bool (match outcome with
        | .ok (.shellCommand _ _ exitStatus) => exitStatus == 0
        | .ok (.http status _ _) => 200 ≤ status && status ≤ 299
        | .ok (.structured _) => true
        | .ok (.snmp _) => true
        | _ => false)) := by
  simp only [Connector.handle, reached]
  cases outcome with
  | error e => exact get?_success_reply _
  | ok result => cases result <;> exact get?_success_reply _

/-- A reply is honest unless it comes from the RouterOS driver on a shell command that failed. -/
theorem reply_honest_iff (texts : Texts) (driver : BusDriver) (actorId : String) (req : NetworkRequest)
    (sent : ExecRequest) (reached : driver.execRequest texts actorId req = some sent)
    (outcome : Except BrokerError OpResult) :
    Honest (driver.handle texts actorId req outcome) outcome ↔
      ¬ (driver = .routerOs ∧ ∃ stdout stderr exitStatus,
        outcome = .ok (.shellCommand stdout stderr exitStatus) ∧ exitStatus ≠ 0) := by
  cases driver with
  | routerOs =>
      obtain ⟨⟨command, same⟩, made, rfl⟩ := Option.map_eq_some_iff.mp reached
      rw [BusDriver.handle, honest_iff (routerOs_success ((toOption_eq_some).mp made) outcome)]
      cases outcome with
      | error e => simp
      | ok result => cases result <;> simp [DeviceSucceeded]
  | connector declared =>
      rw [BusDriver.handle, honest_iff (connector_success ((toOption_eq_some).mp reached) outcome)]
      cases outcome with
      | error e => simp
      | ok result => cases result <;> simp [DeviceSucceeded]

def printIdentity : NetworkRequest :=
  { capability := "network.routeros.system_info", targetRef := "target://edge", timeoutSecs := none, params := none }

def plainTexts : Texts where
  number _ := "0"
  json _ := ""
  strings members := toString members
  opResult _ := "SnmpSetAck"
  brokerError _ := "broker"

theorem printIdentity_honest :
    ∃ sent, BusDriver.routerOs.execRequest plainTexts "operator" printIdentity = some sent ∧
      Honest (BusDriver.routerOs.handle plainTexts "operator" printIdentity
        (.ok (.shellCommand "name: edge" "" 0))) (.ok (.shellCommand "name: edge" "" 0)) := by
  refine ⟨_, rfl, ?_⟩
  apply (reply_honest_iff plainTexts .routerOs "operator" printIdentity _ rfl _).mpr
  rintro ⟨-, stdout, stderr, exitStatus, same, failed⟩
  cases same
  exact failed rfl

theorem refused_command_reported_done :
    (BusDriver.routerOs.handle plainTexts "operator" printIdentity
      (.ok (.shellCommand "" "no such item" 1))).get? "success" = some (.bool true) ∧
    ¬ Honest (BusDriver.routerOs.handle plainTexts "operator" printIdentity
      (.ok (.shellCommand "" "no such item" 1))) (.ok (.shellCommand "" "no such item" 1)) := by
  have stated : (BusDriver.routerOs.handle plainTexts "operator" printIdentity
      (.ok (.shellCommand "" "no such item" 1))).get? "success" = some (.bool true) := rfl
  refine ⟨stated, ?_⟩
  intro honest
  obtain ⟨result, same, succeeded⟩ := honest.1 stated
  cases same
  exact absurd (show (1 : Int) = 0 from succeeded) (by decide)

/-! ## Uniform decoding -/

inductive ReplySource where
  | output (out : ConnectorOutput)
  | err (message : String)

def ReplySource.reply (texts : Texts) : ReplySource → ConnectorReply
  | .output out => .fromOutput texts out
  | .err message => .err message

/-- The reply decodes as a `NetworkResponse` with the same contents, whose exit status is zero exactly
on success. -/
def DecodesUniformly (reply : ConnectorReply) : Prop :=
  ∃ response, NetworkResponse.fromValue reply.toValue = some response ∧
    response.success = reply.success ∧ response.error = reply.error ∧
    response.output.map (fun o => (o.stdout, o.stderr, o.exitStatus)) =
      reply.output.map (fun o => (o.stdout, o.stderr, o.exitStatus)) ∧
    ∀ o, response.output = some o → (o.exitStatus = 0 ↔ response.success = true)

theorem toValue_eq_object (reply : ConnectorReply) : ∃ fields, reply.toValue = .object fields :=
  ⟨_, rfl⟩

theorem decodeOutput_without_command {fields : List (String × Json)}
    (absent : Json.get? "command" (.object fields) = none) :
    NetworkResponse.decodeOutput (.object fields) = none := by
  have missing : fields.lookup "command" = none := absent
  simp [NetworkResponse.decodeOutput, NetworkResponse.structFields, missing]

theorem decodeOptional_connector (output : Connector.ConnectorReplyOutput) :
    NetworkResponse.decodeOptional NetworkResponse.decodeOutput (some (ConnectorReply.outputValue output)) =
      none := by
  obtain ⟨fields, object⟩ : ∃ fields, ConnectorReply.outputValue output = .object fields := ⟨_, rfl⟩
  have absent : (ConnectorReply.outputValue output).get? "command" = none := by
    simp [ConnectorReply.outputValue, Json.ofFields, Json.get?, Json.lookup_insertField_of_ne]
  rw [object] at absent ⊢
  simp [NetworkResponse.decodeOptional, decodeOutput_without_command absent]

theorem fromValue_object {fields : List (String × Json)} {success output error : Option Json}
    (hasSuccess : Json.get? "success" (.object fields) = success)
    (hasOutput : Json.get? "output" (.object fields) = output)
    (hasError : Json.get? "error" (.object fields) = error) :
    NetworkResponse.fromValue (.object fields) = do
      let success ← success.bind Json.asBool?
      let output ← NetworkResponse.decodeOptional NetworkResponse.decodeOutput output
      let error ← NetworkResponse.decodeOptional Json.asStr? error
      return { success, output, error } := by
  subst hasSuccess hasOutput hasError
  rfl

theorem fromValue_reply (reply : ConnectorReply) :
    NetworkResponse.fromValue reply.toValue =
      match reply.output with
      | some _ => none
      | none => some { success := reply.success, output := none, error := reply.error } := by
  obtain ⟨fields, object⟩ := toValue_eq_object reply
  have success := get?_success_reply reply
  have output : reply.toValue.get? "output" = reply.output.map ConnectorReply.outputValue :=
    get?_presentFields_output _ _ _
  have error : reply.toValue.get? "error" = reply.error.map .string := get?_presentFields_error _ _ _
  rw [object] at success output error ⊢
  rw [fromValue_object success output error]
  cases hasOutput : reply.output with
  | none => cases hasError : reply.error <;> simp [NetworkResponse.decodeOptional, Json.asBool?, Json.asStr?]
  | some out => simp [decodeOptional_connector, Json.asBool?]

theorem reply_decodes_iff (texts : Texts) (source : ReplySource) :
    DecodesUniformly (source.reply texts) ↔ ∃ message, source = .err message := by
  cases source with
  | output out =>
      constructor
      · rintro ⟨response, decoded, -⟩
        rw [fromValue_reply] at decoded
        cases decoded
      · rintro ⟨message, same⟩
        cases same
  | err message =>
      refine ⟨fun _ => ⟨message, rfl⟩, fun _ => ?_⟩
      refine ⟨{ success := false, output := none, error := some message }, ?_, rfl, rfl, rfl, ?_⟩
      · rw [fromValue_reply]
        rfl
      · intro o absent
        cases absent

theorem successful_output_undecodable :
    ConnectorReply.success (.fromOutput plainTexts ⟨"orchestrator.k8s.pod.status", true, 200, .string "ok"⟩) = true ∧
    ¬ DecodesUniformly (.fromOutput plainTexts ⟨"orchestrator.k8s.pod.status", true, 200, .string "ok"⟩) := by
  refine ⟨rfl, ?_⟩
  rintro ⟨response, decoded, -⟩
  rw [fromValue_reply] at decoded
  cases decoded

end Daimon.Proof.Driver
