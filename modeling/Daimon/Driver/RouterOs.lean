import Daimon.Broker.Execute
import Daimon.Driver.Param

/-!
# The RouterOS driver

The capability catalog, the command builder and the request assembly of
`daimon-driver-firewall-routeros/src/lib.rs`.
-/

namespace Daimon.Driver.RouterOs
open Daimon.Core Lib Broker

inductive RouterOsError where
  | unknownCapability (name : String)
  | missingParam (message : String)
  | param (error : ParamError)
  | badTarget (message : String)
  | broker (error : BrokerError)
  | wrongOpResult (message : String)
  deriving DecidableEq

def stringSchema (required properties : List String) : Json :=
  Json.ofFields [("type", .string "object"), ("required", .array (required.map .string)),
    ("properties", Json.ofFields (properties.map fun p => (p, Json.ofFields [("type", .string "string")])))]

def buildCapabilities : List Capability := [
  .readOnly "network.routeros.system_info" (.new 1 0 0),
  .readOnly "network.routeros.interface_list" (.new 1 0 0),
  .readOnly "network.routeros.ip_addresses" (.new 1 0 0),
  .readOnly "network.routeros.firewall_filter_list" (.new 1 0 0),
  { name := "network.routeros.firewall_add_drop_rule"
    version := .new 1 0 0
    description := some ("Append a drop-action rule to `/ip firewall filter`. " ++
      "Params: src_address (CIDR), dst_address (CIDR or address-list name), " ++
      "in_interface (optional), comment (optional).")
    schema := some (stringSchema ["dst_address"] ["src_address", "dst_address", "in_interface", "comment"])
    compensating := some ⟨"network.routeros.firewall_remove_rule", none⟩
    irreversible := false },
  { name := "network.routeros.user_ssh_key_import"
    version := .new 1 0 0
    description := some ("Import a public SSH key into RouterOS `/user ssh-keys`. " ++
      "Params: user (RouterOS user name), file (basename of " ++
      "the uploaded .pub key on the device).")
    schema := some (stringSchema ["user", "file"] ["user", "file"])
    compensating := some ⟨"network.routeros.user_ssh_key_remove", none⟩
    irreversible := false },
  { name := "network.routeros.user_ssh_key_remove"
    version := .new 1 0 0
    description := some ("Remove an SSH key entry from `/user ssh-keys`. " ++
      "Params: number (the row number from ssh-keys print).")
    schema := some (stringSchema ["number"] ["number"])
    compensating := none
    irreversible := true },
  { name := "network.routeros.firewall_remove_rule"
    version := .new 1 0 0
    description := some "Remove a rule from `/ip firewall filter` by id or comment match."
    schema := some (stringSchema ["match"] ["match"])
    compensating := none
    irreversible := true }]

/-! ## Commands -/

def requireParams (params : Option Json) (capability : String) : Except RouterOsError Json :=
  match params with
  | some p => .ok p
  | none => .error (.missingParam (capability ++ " requires params"))

def strParam (p : Json) (key : String) : Option String := (p.get? key).bind Json.asStr?

def requireStr (p : Json) (capability key : String) : Except RouterOsError String :=
  match strParam p key with
  | some value => .ok value
  | none => .error (.missingParam (capability ++ "." ++ key ++ " is required"))

def check (value : String) (cls : ParamClass) : Except RouterOsError Unit :=
  match validate value cls with
  | .ok () => .ok ()
  | .error e => .error (.param e)

def pushStr (p : Json) (key : String) (cls : ParamClass) (render : String → String) (cmd : String) :
    Except RouterOsError String :=
  match strParam p key with
  | none => .ok cmd
  | some value => do
      check value cls
      return cmd ++ render value

def addDropRule (params : Option Json) : Except RouterOsError String := do
  let p ← requireParams params "firewall_add_drop_rule"
  let dst ← requireStr p "firewall_add_drop_rule" "dst_address"
  check dst .cidr
  let cmd := "/ip firewall filter add chain=forward action=drop dst-address=" ++ dst
  let cmd ← pushStr p "src_address" .cidr (" src-address=" ++ ·) cmd
  let cmd ← pushStr p "in_interface" .identifier (" in-interface=" ++ ·) cmd
  pushStr p "comment" .safeText (" comment=\"" ++ · ++ "\"") cmd

def removeRule (params : Option Json) : Except RouterOsError String := do
  let p ← requireParams params "firewall_remove_rule"
  let m ← requireStr p "firewall_remove_rule" "match"
  check m .identifier
  return "/ip firewall filter remove [find " ++ m ++ "]"

def importSshKey (params : Option Json) : Except RouterOsError String := do
  let p ← requireParams params "user_ssh_key_import"
  let user ← requireStr p "user_ssh_key_import" "user"
  let file ← requireStr p "user_ssh_key_import" "file"
  check user .identifier
  check file .safeText
  return "/user ssh-keys import user=" ++ user ++ " public-key-file=" ++ file

def removeSshKey (params : Option Json) : Except RouterOsError String := do
  let p ← requireParams params "user_ssh_key_remove"
  let n ← requireStr p "user_ssh_key_remove" "number"
  check n .int
  return "/user ssh-keys remove " ++ n

def buildCommand (capability : String) (params : Option Json) : Except RouterOsError String :=
  match capability with
  | "network.routeros.system_info" => .ok "/system identity print"
  | "network.routeros.interface_list" => .ok "/interface print"
  | "network.routeros.ip_addresses" => .ok "/ip address print"
  | "network.routeros.firewall_filter_list" => .ok "/ip firewall filter print"
  | "network.routeros.firewall_add_drop_rule" => addDropRule params
  | "network.routeros.firewall_remove_rule" => removeRule params
  | "network.routeros.user_ssh_key_import" => importSshKey params
  | "network.routeros.user_ssh_key_remove" => removeSshKey params
  | other => .error (.unknownCapability other)

/-! ## Requests -/

def buildExecRequest (actorId capability targetRef command : String) (timeoutSecs : Nat)
    (capabilities : List Capability) : Except RouterOsError ExecRequest :=
  match TargetRef.parse targetRef with
  | .error e => .error (.badTarget e.display)
  | .ok target =>
      let req := ExecRequest.new actorId target (.shellCommand command (max timeoutSecs 1))
      match capabilities.find? fun c => c.name == capability with
      | some cap => .ok (req.withCapabilityMeta cap)
      | none => .ok (req.withCapability capability false)

end Daimon.Driver.RouterOs
