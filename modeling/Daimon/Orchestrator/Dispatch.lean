import Daimon.Orchestrator.Plan
import Daimon.Runtime.Registry

/-!
# Step and compensator dispatch

The pure parts of `dispatch_step`, `dispatch_compensator` and what they call
(`daimon-orchestrator/src/service.rs`): the request a step puts on the bus, how its reply is read, and which
compensator a succeeded step resolves to.
-/

namespace Daimon.Orchestrator
open Daimon.Core Lib
open Daimon.Runtime (CoreError CapabilityRegistry)

inductive DispatchError where
  | capabilityNotFound (what : String)
  | timeout (secs : Nat)
  | busClosed
  | core (error : CoreError)
  deriving DecidableEq, Repr

def DispatchError.display : DispatchError → String
  | .capabilityNotFound what => "no agent provides capability `" ++ what ++ "`"
  | .timeout secs => "dispatch timed out after " ++ toString secs ++ "s"
  | .busClosed => "bus closed before a reply arrived"
  | .core error => "core: " ++ error.display

inductive Error where
  | pg (message : String)
  | pool (message : String)
  | planNotFound (id : Uuid)
  | dispatch (message : String)
  | dagCycle
  | decode (message : String)
  | other (message : String)
  deriving DecidableEq, Repr

def Error.display : Error → String
  | .pg message => "db: " ++ message
  | .pool message => "pool: " ++ message
  | .planNotFound id => "plan not found: " ++ id.hyphenated
  | .dispatch message => "step dispatch: " ++ message
  | .dagCycle => "dag cycle detected"
  | .decode message => "decode: " ++ message
  | .other message => message

def stepDispatchTimeoutSecs : Nat := 60

/-- The arguments of `Dispatcher::dispatch`, its budget apart: every caller here passes
`STEP_DISPATCH_TIMEOUT`. -/
structure Request (sv : Semver) where
  sender : AgentId
  name : String
  versionReq : sv.VersionReq
  body : Json
  deriving DecidableEq

def capabilityBody (capability targetRef : String) (params : Json) : Json :=
  let timeoutSecs := ((params.get? "timeout_secs").bind Json.asU64?).getD 30
  Json.ofFields [("capability", .string capability), ("target_ref", .string targetRef),
    ("timeout_secs", .number (.posInt timeoutSecs)), ("params", params)]

section
variable (sv : Semver)

def stepRequest (step : Step) : Except Error (Request sv) :=
  match sv.parse step.capabilityVersion with
  | .error e => .error (.dispatch ("bad capability_version `" ++ step.capabilityVersion ++
      "` for step " ++ step.id.hyphenated ++ ": " ++ e))
  | .ok versionReq =>
      match step.targetRef with
      | none => .error (.dispatch ("step " ++ step.id.hyphenated ++ " has no target_ref"))
      | some targetRef => .ok {
          sender := ⟨"orchestrator:" ++ step.planId.hyphenated ++ ":" ++ step.id.hyphenated⟩
          name := step.capabilityName
          versionReq
          body := capabilityBody step.capabilityName targetRef step.params }

def reportsFailure (reply : Json) : Bool :=
  (reply.get? "success").bind Json.asBool? == some false

def readStepReply (step : Step) (outcome : Except DispatchError Json) : Except Error Json :=
  match outcome with
  | .error e => .error (.dispatch e.display)
  | .ok reply =>
      if reportsFailure reply then
        let detail := ((reply.get? "error").bind Json.asStr?).getD "capability reported failure"
        .error (.dispatch ("step " ++ step.id.hyphenated ++ " capability `" ++ step.capabilityName ++
          "` failed: " ++ detail))
      else .ok reply

/-! ## Compensation -/

/-- The version of the step plays no part: any registered version of the name will do. -/
def compensatorFor (registry : CapabilityRegistry) (capabilityName : String) :
    Option CompensatingCapability :=
  match sv.parse "*" with
  | .error _ => none
  | .ok any =>
      match registry.requireByCapability sv capabilityName any with
      | .error _ => none
      | .ok entry => (entry.capabilities.find? fun c => c.name == capabilityName).bind (·.compensating)

/-- The receipt of the step is accepted and not read. -/
def compensationParams (original : Json) (_result : Option Json) : Json :=
  match original with
  | .object fields =>
      if (fields.lookup "match").isSome then original
      else
        match (fields.lookup "comment").bind Json.asStr? with
        | some comment => .object (Json.insertField "match" (.string comment) fields)
        | none => original
  | _ => original

def compensatorVersionReq (comp : CompensatingCapability) : Except Error sv.VersionReq :=
  match comp.versionReq with
  | some text =>
      match sv.parse text with
      | .ok versionReq => .ok versionReq
      | .error e => .error (.dispatch ("bad compensating version_req `" ++ text ++ "`: " ++ e))
  | none => .ok sv.star

def compensatorRequest (step : Step) (comp : CompensatingCapability) : Except Error (Request sv) :=
  match compensatorVersionReq sv comp with
  | .error e => .error e
  | .ok versionReq =>
      match step.targetRef with
      | none => .error (.dispatch ("step " ++ step.id.hyphenated ++ " has no target_ref"))
      | some targetRef => .ok {
          sender := ⟨"orchestrator:" ++ step.planId.hyphenated ++ ":" ++ step.id.hyphenated ++
            ":compensate"⟩
          name := comp.name
          versionReq
          body := capabilityBody comp.name targetRef (compensationParams step.params step.result) }

def readCompensatorReply (outcome : Except DispatchError Json) : Except Error Json :=
  match outcome with
  | .error e => .error (.dispatch e.display)
  | .ok reply => .ok reply

end
end Daimon.Orchestrator
