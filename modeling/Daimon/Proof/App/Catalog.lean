import Daimon.App.Tools
import Daimon.Lib.JsonSchema
import Daimon.Proof.Driver.Injection

/-!
# What the tool catalog asks for

A driver needs the parameters of a capability and, from the same arguments, the target. The schema of a write names the
parameters and not the target; the schema of a read, which has none of its own, the target and not the parameters.
-/

namespace Daimon.Proof.App
open Daimon.Core Daimon.App.Chat Daimon.Broker Daimon.Driver Lib
open Daimon.Driver.Connector (ProfileCapability projectCapability schemaFromParams collectParams extractParam)
open Daimon.Driver.RouterOs (buildCapabilities buildCommand)

/-! ## Tools and what their drivers need -/

inductive Tool where
  | profile (cap : ProfileCapability)
  | routerOs (cap : Capability) (registered : cap ∈ buildCapabilities)

/-- The parameters that `build_command` reads, with their classes. -/
def routerParams : String → List (String × ParamClass)
  | "network.routeros.firewall_add_drop_rule" =>
      [("dst_address", .cidr), ("src_address", .cidr), ("in_interface", .identifier), ("comment", .safeText)]
  | "network.routeros.firewall_remove_rule" => [("match", .identifier)]
  | "network.routeros.user_ssh_key_import" => [("user", .identifier), ("file", .safeText)]
  | "network.routeros.user_ssh_key_remove" => [("number", .int)]
  | _ => []

example : routerParams "network.routeros.user_ssh_key_remove" = [("number", .int)] := by simp [routerParams]

/-- The parameters that it does not go without. -/
def routerRequired : String → List String
  | "network.routeros.firewall_add_drop_rule" => ["dst_address"]
  | name => (routerParams name).map Prod.fst

namespace Tool

def capability : Tool → Capability
  | .profile cap => projectCapability cap
  | .routerOs cap _ => cap

def inputSchema (tool : Tool) : Json := (toolDefinition tool.capability).inputSchema

def needs : Tool → List String
  | .profile cap => "target_ref" :: cap.params.map Prod.fst
  | .routerOs cap _ => "target_ref" :: routerRequired cap.name

/-- Every value that is there satisfies the class of its parameter. -/
def Fits (texts : Texts) (args : Json) : Tool → Prop
  | .profile cap => ∀ p ∈ cap.params, (args.get? p.1).isSome →
      ∃ raw, extractParam texts args p.1 = some raw ∧ validate raw p.2 = .ok ()
  | .routerOs cap _ => ∀ p ∈ routerParams cap.name, (args.get? p.1).isSome →
      ∃ raw, args.get? p.1 = some (.string raw) ∧ validate raw p.2 = .ok ()

/-- The driver takes every parameter from the arguments. -/
def Extracts (texts : Texts) (args : Json) : Tool → Prop
  | .profile cap => ∃ validated, collectParams texts cap.name args cap.params = .ok validated
  | .routerOs cap _ => ∃ command, buildCommand cap.name (some args) = .ok command

end Tool

/-- The reference is neither missing, which is sent as the empty text, nor without a name. -/
def GivesTarget (req : NetworkRequest) : Prop :=
  req.targetRef ≠ "" ∧ TargetRef.parse req.targetRef ≠ .error .emptyName

def Callable (texts : Texts) (tool : Tool) (args : Json) : Prop :=
  tool.Extracts texts args ∧ ∀ id, GivesTarget (networkRequest ⟨id, tool.capability.name, args⟩)

/-- The arguments name a target, and for a read of a profile they hold its parameters. -/
def HasRest (tool : Tool) (args : Json) : Prop :=
  (∃ ref, args.get? "target_ref" = some (.string ref) ∧ ref ≠ "" ∧ ref ≠ "target://") ∧
    ∀ cap, tool = .profile cap → cap.readOnly = true → ∀ p ∈ cap.params, (args.get? p.1).isSome

/-- The names that a schema misses are none. -/
def AsksForAll : Tool → Prop
  | .profile cap => if cap.readOnly then ∀ p ∈ cap.params, p.1 = "target_ref" else "target_ref" ∈ cap.params.map Prod.fst
  | .routerOs cap _ => cap.schema = none

/-! ## The target -/

theorem parse_emptyName {ref : String} : TargetRef.parse ref = .error .emptyName ↔ ref = "target://" := by
  unfold TargetRef.parse stripPrefix?
  constructor
  · intro failed
    split at failed
    · cases failed
    · rename_i rest stripped
      split at stripped
      · rename_i scheme
        obtain ⟨tail, text⟩ := scheme
        cases stripped
        have nothing : tail = [] := by
          split at failed
          · rename_i blank
            rw [← text] at blank
            simpa using blank
          · split at failed <;> cases failed
        rw [← String.ofList_toList (s := ref), ← text, nothing]
        decide
      · cases stripped
  · rintro rfl
    decide

theorem givesTarget_iff (id name : String) (args : Json) :
    GivesTarget (networkRequest ⟨id, name, args⟩) ↔
      ∃ ref, args.get? "target_ref" = some (.string ref) ∧ ref ≠ "" ∧ ref ≠ "target://" := by
  simp only [GivesTarget, networkRequest, Ne, parse_emptyName]
  cases found : args.get? "target_ref" with
  | none => simp
  | some v => cases v <;> simp [Json.asStr?]

/-! ## The schemas -/

theorem defaultTargetSchema_required : defaultTargetSchema.required = ["target_ref"] := by
  decide

theorem schemaFromParams_type (params : List (String × ParamClass)) :
    (schemaFromParams params).get? "type" = some (.string "object") := by
  simp [schemaFromParams, Json.get?_ofFields]

theorem schemaFromParams_required (params : List (String × ParamClass)) :
    (schemaFromParams params).required = params.map Prod.fst := by
  have names : (schemaFromParams params).get? "required" = some (.array (params.map fun param => .string param.1)) := by
    simp [schemaFromParams, Json.get?_ofFields, List.lookup_cons]
  rw [Json.required, names]
  simp [List.filterMap_map, Function.comp_def, Json.asStr?]

theorem stringSchema_type (names properties : List String) :
    (RouterOs.stringSchema names properties).get? "type" = some (.string "object") := by
  simp [RouterOs.stringSchema, Json.get?_ofFields]

theorem stringSchema_required (names properties : List String) :
    (RouterOs.stringSchema names properties).required = names := by
  have listed : (RouterOs.stringSchema names properties).get? "required" = some (.array (names.map .string)) := by
    simp [RouterOs.stringSchema, Json.get?_ofFields, List.lookup_cons]
  rw [Json.required, listed]
  simp [List.filterMap_map, Function.comp_def, Json.asStr?]

theorem inputSchema_profile (cap : ProfileCapability) :
    (Tool.profile cap).inputSchema = if cap.readOnly then defaultTargetSchema else schemaFromParams cap.params := by
  simp only [Tool.inputSchema, toolDefinition, Tool.capability, projectCapability]
  split <;> rfl

/-! ## Extraction -/

section Profile
variable {texts : Texts} {args : Json}

theorem get?_of_extractParam {name raw : String} (extracted : extractParam texts args name = some raw) :
    (args.get? name).isSome = true := by
  unfold extractParam at extracted
  cases found : args.get? name with
  | none => simp [found] at extracted
  | some v => rfl

theorem collectParams_isOk (name : String) (declared : List (String × ParamClass)) :
    (∃ validated, collectParams texts name args declared = .ok validated) ↔
      ∀ p ∈ declared, ∃ raw, extractParam texts args p.1 = some raw ∧ validate raw p.2 = .ok () := by
  induction declared with
  | nil => simp [collectParams]
  | cons p rest ih =>
      obtain ⟨pname, pclass⟩ := p
      rw [List.forall_mem_cons, ← ih]
      simp only [collectParams]
      cases extracted : extractParam texts args pname with
      | none => simp
      | some raw =>
          cases valid : validate raw pclass with
          | error e => simp [valid]
          | ok _ => simp [valid, Json.map_eq_ok]

theorem extracts_profile {cap : ProfileCapability} (fits : (Tool.profile cap).Fits texts args) :
    (Tool.profile cap).Extracts texts args ↔ ∀ p ∈ cap.params, (args.get? p.1).isSome := by
  refine (collectParams_isOk cap.name cap.params).trans ?_
  constructor
  · intro extracted p member
    obtain ⟨raw, found, -⟩ := extracted p member
    exact get?_of_extractParam found
  · intro present p member
    exact fits p member (present p member)

end Profile

section Router
variable {args : Json} {key : String} {cls : ParamClass}

/-- A value that is there is a text of the class. -/
def FitsAt (args : Json) (key : String) (cls : ParamClass) : Prop :=
  (args.get? key).isSome → ∃ raw, args.get? key = some (.string raw) ∧ validate raw cls = .ok ()

theorem requireStr_ok (capability : String) (fits : FitsAt args key cls) (present : (args.get? key).isSome = true) :
    ∃ raw, RouterOs.requireStr args capability key = .ok raw ∧ RouterOs.check raw cls = .ok () := by
  obtain ⟨raw, found, valid⟩ := fits present
  refine ⟨raw, ?_, ?_⟩
  · simp [RouterOs.requireStr, RouterOs.strParam, found, Json.asStr?]
  · simp [RouterOs.check, valid]

theorem pushStr_ok (fits : FitsAt args key cls) (render : String → String) (cmd : String) :
    ∃ command, RouterOs.pushStr args key cls render cmd = .ok command := by
  cases found : args.get? key with
  | none => exact ⟨cmd, by simp [RouterOs.pushStr, RouterOs.strParam, found]⟩
  | some v =>
      obtain ⟨raw, text, valid⟩ := fits (by rw [found]; rfl)
      refine ⟨cmd ++ render raw, ?_⟩
      simp [RouterOs.pushStr, RouterOs.strParam, text, Json.asStr?, RouterOs.check, valid]

theorem addDropRule_ok (fits : ∀ p ∈ routerParams "network.routeros.firewall_add_drop_rule", FitsAt args p.1 p.2)
    (dst : (args.get? "dst_address").isSome = true) : ∃ command, RouterOs.addDropRule (some args) = .ok command := by
  simp only [routerParams, List.forall_mem_cons] at fits
  obtain ⟨dstFits, srcFits, interfaceFits, commentFits, -⟩ := fits
  obtain ⟨raw, required, valid⟩ := requireStr_ok "firewall_add_drop_rule" dstFits dst
  obtain ⟨withSrc, src⟩ := pushStr_ok srcFits (" src-address=" ++ ·)
    ("/ip firewall filter add chain=forward action=drop dst-address=" ++ raw)
  obtain ⟨withInterface, interface⟩ := pushStr_ok interfaceFits (" in-interface=" ++ ·) withSrc
  obtain ⟨command, comment⟩ := pushStr_ok commentFits (" comment=\"" ++ · ++ "\"") withInterface
  refine ⟨command, ?_⟩
  simp only [RouterOs.addDropRule, RouterOs.requireParams, bind, Except.bind, required, valid, src, interface, comment]

theorem removeRule_ok (fits : ∀ p ∈ routerParams "network.routeros.firewall_remove_rule", FitsAt args p.1 p.2)
    (present : (args.get? "match").isSome = true) : ∃ command, RouterOs.removeRule (some args) = .ok command := by
  simp only [routerParams, List.forall_mem_cons] at fits
  obtain ⟨raw, required, valid⟩ := requireStr_ok "firewall_remove_rule" fits.1 present
  exact ⟨_, by simp only [RouterOs.removeRule, RouterOs.requireParams, bind, Except.bind, required, valid]; rfl⟩

theorem removeSshKey_ok (fits : ∀ p ∈ routerParams "network.routeros.user_ssh_key_remove", FitsAt args p.1 p.2)
    (present : (args.get? "number").isSome = true) : ∃ command, RouterOs.removeSshKey (some args) = .ok command := by
  simp only [routerParams, List.forall_mem_cons] at fits
  obtain ⟨raw, required, valid⟩ := requireStr_ok "user_ssh_key_remove" fits.1 present
  exact ⟨_, by simp only [RouterOs.removeSshKey, RouterOs.requireParams, bind, Except.bind, required, valid]; rfl⟩

theorem importSshKey_ok (fits : ∀ p ∈ routerParams "network.routeros.user_ssh_key_import", FitsAt args p.1 p.2)
    (user : (args.get? "user").isSome = true) (file : (args.get? "file").isSome = true) :
    ∃ command, RouterOs.importSshKey (some args) = .ok command := by
  simp only [routerParams, List.forall_mem_cons] at fits
  obtain ⟨name, named, validName⟩ := requireStr_ok "user_ssh_key_import" fits.1 user
  obtain ⟨path, located, validPath⟩ := requireStr_ok "user_ssh_key_import" fits.2.1 file
  exact ⟨_, by
    simp only [RouterOs.importSshKey, RouterOs.requireParams, bind, Except.bind, named, located, validName, validPath]
    rfl⟩

/-- The schemas of the RouterOS driver name every parameter that its commands need. -/
theorem extracts_routerOs {texts : Texts} {cap : Capability} {registered : cap ∈ buildCapabilities}
    (conforming : args.conforms (Tool.routerOs cap registered).inputSchema = true)
    (fits : (Tool.routerOs cap registered).Fits texts args) : (Tool.routerOs cap registered).Extracts texts args := by
  have known := registered
  simp only [buildCapabilities, List.mem_cons, List.not_mem_nil, or_false] at known
  have required {names properties : List String} {name : String}
      (schema : (Tool.routerOs cap registered).inputSchema = RouterOs.stringSchema names properties)
      (member : name ∈ names) : (args.get? name).isSome = true := by
    rw [schema] at conforming
    refine Json.isSome_of_required conforming (stringSchema_type names properties) ?_
    rwa [stringSchema_required]
  rcases known with rfl | rfl | rfl | rfl | rfl | rfl | rfl | rfl
  · exact ⟨_, rfl⟩
  · exact ⟨_, rfl⟩
  · exact ⟨_, rfl⟩
  · exact ⟨_, rfl⟩
  · exact addDropRule_ok fits (required rfl (by decide))
  · exact importSshKey_ok fits (required rfl (by decide)) (required rfl (by decide))
  · exact removeSshKey_ok fits (required rfl (by decide))
  · exact removeRule_ok fits (required rfl (by decide))

end Router

/-! ## Tools that can be called -/

theorem extracts_iff {texts : Texts} {tool : Tool} {args : Json} (conforming : args.conforms tool.inputSchema = true)
    (fits : tool.Fits texts args) :
    tool.Extracts texts args ↔
      ∀ cap, tool = .profile cap → cap.readOnly = true → ∀ p ∈ cap.params, (args.get? p.1).isSome := by
  cases tool with
  | routerOs cap registered =>
      refine iff_of_true (extracts_routerOs conforming fits) ?_
      intro cap same
      cases same
  | profile cap =>
      rw [extracts_profile fits]
      cases kind : cap.readOnly with
      | true =>
          constructor
          · rintro present _ ⟨⟩ _
            exact present
          · intro present
            exact present cap rfl kind
      | false =>
          rw [inputSchema_profile, kind, if_neg Bool.false_ne_true] at conforming
          refine iff_of_true ?_ ?_
          · intro p member
            refine Json.isSome_of_required conforming (schemaFromParams_type cap.params) ?_
            rw [schemaFromParams_required]
            exact List.mem_map_of_mem member
          · rintro _ ⟨⟩ marked
            rw [kind] at marked
            cases marked

theorem callable_iff {texts : Texts} {tool : Tool} {args : Json} (conforming : args.conforms tool.inputSchema = true)
    (fits : tool.Fits texts args) : Callable texts tool args ↔ HasRest tool args := by
  rw [Callable, HasRest, and_comm, extracts_iff conforming fits]
  refine and_congr_left fun _ => ?_
  constructor
  · intro given
    exact (givesTarget_iff "" tool.capability.name args).mp (given "")
  · intro named id
    exact (givesTarget_iff id tool.capability.name args).mpr named

theorem needs_subset_required (tool : Tool) : tool.needs ⊆ tool.inputSchema.required ↔ AsksForAll tool := by
  cases tool with
  | profile cap =>
      rw [inputSchema_profile, Tool.needs, AsksForAll, List.cons_subset]
      cases cap.readOnly with
      | true => simp [defaultTargetSchema_required, List.subset_def]
      | false => simp [schemaFromParams_required]
  | routerOs cap registered =>
      simp only [buildCapabilities, List.mem_cons, List.not_mem_nil, or_false] at registered
      rw [Tool.needs, AsksForAll, List.cons_subset, Tool.inputSchema, toolDefinition, Tool.capability]
      rcases registered with rfl | rfl | rfl | rfl | rfl | rfl | rfl | rfl <;>
        simp [Capability.readOnly, defaultTargetSchema_required, routerRequired, routerParams, stringSchema_required]

def podParams : List (String × ParamClass) := [("name", .identifier), ("namespace", .identifier)]

theorem podParams_ordered : (podParams.map Prod.fst).Pairwise (· < ·) := by decide

def podStatus : ProfileCapability where
  name := "orchestrator.k8s.pod.status"
  version := .new 1 0 0
  description := some "Read the current status of a pod (GET the pod object)."
  compensating := none
  irreversible := false
  readOnly := true
  params := podParams
  op := ⟨.get, "/api/v1/namespaces/\x7bnamespace\x7d/pods/\x7bname\x7d", none, none, none, none, false,
    Driver.keysSorted_of_none⟩
  ordered := podParams_ordered

def deployRestart : ProfileCapability where
  name := "orchestrator.k8s.deploy.restart"
  version := .new 1 0 0
  description := some "Trigger a rolling restart of a deployment by bumping the restartedAt annotation."
  compensating := some "orchestrator.k8s.deploy.rollback"
  irreversible := false
  readOnly := false
  params := podParams
  op := ⟨.patch, "/apis/apps/v1/namespaces/\x7bnamespace\x7d/deployments/\x7bname\x7d", none, none, none, none, false,
    Driver.keysSorted_of_none⟩
  ordered := podParams_ordered

def plainTexts : Texts where
  number _ := ""
  json _ := ""
  strings _ := ""
  opResult _ := ""
  brokerError _ := ""

def podArgs : Json := .object [("name", .string "web"), ("namespace", .string "shop")]

def podTargetArgs : Json :=
  .object [("name", .string "web"), ("namespace", .string "shop"), ("target_ref", .string "target://k8s")]

theorem podArgs_fit {cap : ProfileCapability} (declared : cap.params = podParams) {fields : List (String × Json)}
    (name : fields.lookup "name" = some (.string "web")) (namespaced : fields.lookup "namespace" = some (.string "shop")) :
    (Tool.profile cap).Fits plainTexts (.object fields) := by
  intro p member _
  simp only [declared, podParams, List.mem_cons, List.not_mem_nil, or_false] at member
  rcases member with rfl | rfl
  · exact ⟨"web", by simp [extractParam, Json.get?, name], by decide⟩
  · exact ⟨"shop", by simp [extractParam, Json.get?, namespaced], by decide⟩

def targetArgs : Json := .object [("target_ref", .string "target://k8s")]

end Daimon.Proof.App
