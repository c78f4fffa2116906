import Daimon.App.Skills
import Daimon.Lib.Lists
import Daimon.Proof.Driver.Param

/-!
# The injection chokepoint

A request that a connector sends to the broker holds nothing but its profile's templates and values
that have passed the check of their parameter's class. The two substitution functions of the
repository are one function up to their errors.
-/

namespace Daimon.Proof.Driver
open Daimon.Core Lib Daimon.Driver Daimon.Broker
open Daimon.Driver.Connector (Validated DeclaredCap ProfileOp dispatchRequest collectParams extractParam)
open Daimon.Lib.Json (bind_ok)

/-! ## Substitution -/

theorem ofList_map_ok {ε : Type} {x : Except ε (List Char)} {text : String} :
    x.map String.ofList = .ok text ↔ x = .ok text.toList := by
  rw [Json.map_eq_ok]
  constructor
  · rintro ⟨chars, rfl, rfl⟩
    rw [String.toList_ofList]
  · intro ok
    exact ⟨text.toList, ok, String.ofList_toList⟩

theorem substitute_ok {template capability text : String} {validated : Validated} :
    Connector.substitute template capability validated = .ok text ↔
      Filled '{' '}' validated.slot template.toList text.toList := by
  rw [Connector.substitute, ofList_map_ok, fill_eq_ok]

theorem skill_substitute_ok {template skill text : String} {step : Nat} {validated : Validated} :
    App.substitute template skill step validated = .ok text ↔
      Filled '{' '}' validated.slot template.toList text.toList := by
  rw [App.substitute, ofList_map_ok, fill_eq_ok]

theorem toOption_eq_of_ok {ε ε' α : Type} {x : Except ε α} {y : Except ε' α}
    (agree : ∀ a, x = .ok a ↔ y = .ok a) : x.toOption = y.toOption := by
  cases x with
  | ok a => rw [(agree a).mp rfl]
            rfl
  | error e =>
      cases y with
      | ok b => cases (agree b).mpr rfl
      | error e' => rfl

theorem substituteJson_agree (value w : Json) (capability skill : String) (step : Nat) (validated : Validated) :
    Connector.substituteJson value capability validated = .ok w ↔
      App.substituteJson value skill step validated = .ok w := by
  rw [← toOption_eq_some, ← toOption_eq_some]
  unfold Connector.substituteJson App.substituteJson
  rw [Json.mapStrings_toOption]
  intro text
  apply toOption_eq_of_ok
  intro filled
  rw [substitute_ok, skill_substitute_ok]

/-! ## Collected parameters -/

theorem collectParams_ok {texts : Texts} {capability : String} {params : Json}
    {declared : List (String × ParamClass)} {validated : Validated}
    (collected : collectParams texts capability params declared = .ok validated) :
    validated.map Prod.fst = declared.map Prod.fst ∧
    ∀ name value, (name, value) ∈ validated → ∃ cls, (name, cls) ∈ declared ∧
      extractParam texts params name = some value ∧ validate value cls = .ok () := by
  induction declared generalizing validated with
  | nil =>
      cases collected
      exact ⟨rfl, fun name value member => by cases member⟩
  | cons entry declared ih =>
      obtain ⟨pname, pclass⟩ := entry
      simp only [collectParams] at collected
      split at collected
      · cases collected
      · rename_i raw extracted
        split at collected
        · cases collected
        · rename_i valid
          obtain ⟨rest, more, rfl⟩ := Json.map_eq_ok.mp collected
          obtain ⟨names, all⟩ := ih more
          refine ⟨by simp [names], ?_⟩
          intro name value member
          rcases List.mem_cons.mp member with same | later
          · cases same
            exact ⟨pclass, List.mem_cons_self, extracted, valid⟩
          · obtain ⟨cls, declaredAs, facts⟩ := all name value later
            exact ⟨cls, List.mem_cons_of_mem _ declaredAs, facts⟩

/-- The validated values are exactly the declared parameters, each as the request gives it and
admissible for its class. -/
def FromRequest (texts : Texts) (params : Json) (declared : List (String × ParamClass)) (validated : Validated) :
    Prop :=
  validated.map Prod.fst = declared.map Prod.fst ∧
  ∀ name value, validated.lookup name = some value → ∃ cls, (name, cls) ∈ declared ∧
    extractParam texts params name = some value ∧ Admissible cls value

theorem collectParams_fromRequest {texts : Texts} {capability : String} {params : Json}
    {declared : List (String × ParamClass)} {validated : Validated}
    (collected : collectParams texts capability params declared = .ok validated) :
    FromRequest texts params declared validated := by
  obtain ⟨names, all⟩ := collectParams_ok collected
  refine ⟨names, ?_⟩
  intro name value found
  obtain ⟨cls, declaredAs, extracted, valid⟩ := all name value (mem_of_lookup found)
  exact ⟨cls, declaredAs, extracted, validate_admissible valid⟩

/-! ## Rendered operations -/

/-- `text` is `template` with every slot replaced at once: each slot names a declared parameter and
holds its admissible value, and every character that is not the template's own is of the class of the
parameter it came from. -/
def Rendered (declared : List (String × ParamClass)) (validated : Validated) (template text : String) : Prop :=
  ∃ layout : Layout Char, layout.Reads '{' '}' template.toList ∧
    text.toList = (layout.pieces validated.slot).map Prod.fst ∧
    (∀ slot ∈ layout.slots, ∃ cls value, (String.ofList slot.2, cls) ∈ declared ∧
      validated.lookup (String.ofList slot.2) = some value ∧ Admissible cls value) ∧
    ∀ c name, (c, some name) ∈ layout.pieces validated.slot →
      ∃ cls, (String.ofList name, cls) ∈ declared ∧ Alphabet cls c

theorem slot_eq_some {validated : Validated} {name chars : List Char} (found : validated.slot name = some chars) :
    ∃ value, validated.lookup (String.ofList name) = some value ∧ value.toList = chars := by
  exact Option.map_eq_some_iff.mp found

theorem substitute_rendered {texts : Texts} {params : Json} {declared : List (String × ParamClass)}
    {validated : Validated} (fromRequest : FromRequest texts params declared validated)
    {template capability text : String} (ok : Connector.substitute template capability validated = .ok text) :
    Rendered declared validated template text := by
  obtain ⟨layout, reads, resolved, filled⟩ := (substitute_ok).mp ok
  have admitted {name chars : List Char} (found : validated.slot name = some chars) :
      ∃ cls value, (String.ofList name, cls) ∈ declared ∧
        validated.lookup (String.ofList name) = some value ∧ Admissible cls value ∧ value.toList = chars := by
    obtain ⟨value, stored, same⟩ := slot_eq_some found
    obtain ⟨cls, declaredAs, -, admissible⟩ := fromRequest.2 _ value stored
    exact ⟨cls, value, declaredAs, stored, admissible, same⟩
  refine ⟨layout, reads, filled, ?_, ?_⟩
  · intro slot member
    obtain ⟨chars, found⟩ := resolved slot member
    obtain ⟨cls, value, declaredAs, stored, admissible, -⟩ := admitted found
    exact ⟨cls, value, declaredAs, stored, admissible⟩
  · intro c name piece
    obtain ⟨-, -, chars, found, inChars⟩ := Layout.pieces_value _ piece
    obtain ⟨cls, value, declaredAs, -, admissible, rfl⟩ := admitted found
    exact ⟨cls, declaredAs, admissible.alphabet inChars⟩

def RenderedBody (declared : List (String × ParamClass)) (validated : Validated) :
    Option Json → Option Json → Prop
  | some template, some body => Json.SameShape (Rendered declared validated) template body
  | none, none => True
  | _, _ => False

def RendersOp (d : DeclaredCap) (validated : Validated) (timeoutSecs : Nat) (op : Op) : Prop :=
  match d.transport with
  | .rest => ∃ path body, op = .http d.cap.op.method path [] body d.auth ∧
      Rendered d.cap.params validated d.cap.op.path path ∧
      RenderedBody d.cap.params validated d.cap.op.body body
  | .ssh => ∃ template command, d.cap.op.command = some template ∧
      op = .shellCommand command (d.cap.op.timeoutSecs.getD timeoutSecs) ∧
      Rendered d.cap.params validated template command
  | .snmp => ∃ template oid, d.cap.op.oid = some template ∧
      op = (if d.cap.op.walk then .snmpWalk oid else .snmpGet oid) ∧
      Rendered d.cap.params validated template oid

theorem renderOp_renders {texts : Texts} {params : Json} {d : DeclaredCap} {validated : Validated}
    (fromRequest : FromRequest texts params d.cap.params validated) {capability : String} {timeoutSecs : Nat}
    {op : Op} (rendered : Connector.renderOp d capability validated timeoutSecs = .ok op) :
    RendersOp d validated timeoutSecs op := by
  unfold Connector.renderOp at rendered
  unfold RendersOp
  cases transport : d.transport with
  | rest =>
      rw [transport] at rendered
      obtain ⟨path, pathOk, later⟩ := bind_ok rendered
      obtain ⟨body, bodyOk, last⟩ := bind_ok later
      cases last
      refine ⟨path, body, rfl, substitute_rendered fromRequest pathOk, ?_⟩
      unfold Connector.renderBody at bodyOk
      cases hasBody : d.cap.op.body with
      | some template =>
          rw [hasBody] at bodyOk
          obtain ⟨w, filled, rfl⟩ := Json.map_eq_ok.mp bodyOk
          have shape := (Json.mapStrings_eq_ok template w (d.cap.op.sorted template hasBody)).mp filled
          exact Json.SameShape.mono (fun s t ok => substitute_rendered fromRequest ok) template w shape
      | none =>
          rw [hasBody] at bodyOk
          cases bodyOk
          trivial
  | ssh =>
      rw [transport] at rendered
      unfold Connector.renderSshOp at rendered
      cases hasCommand : d.cap.op.command with
      | none =>
          rw [hasCommand] at rendered
          cases rendered
      | some template =>
          rw [hasCommand] at rendered
          obtain ⟨command, ok, last⟩ := bind_ok rendered
          cases last
          exact ⟨template, command, rfl, rfl, substitute_rendered fromRequest ok⟩
  | snmp =>
      rw [transport] at rendered
      unfold Connector.renderSnmpOp at rendered
      cases hasOid : d.cap.op.oid with
      | none =>
          rw [hasOid] at rendered
          cases rendered
      | some template =>
          rw [hasOid] at rendered
          obtain ⟨oid, ok, last⟩ := bind_ok rendered
          cases last
          exact ⟨template, oid, rfl, rfl, substitute_rendered fromRequest ok⟩

theorem dispatchRequest_renders {texts : Texts} {declared : List (String × DeclaredCap)}
    {actorId capability targetRef : String} {params : Json} {timeoutSecs : Nat} {req : ExecRequest}
    (reached : dispatchRequest texts declared actorId capability targetRef params timeoutSecs = .ok req) :
    ∃ d validated, declared.lookup capability = some d ∧
      FromRequest texts params d.cap.params validated ∧ RendersOp d validated timeoutSecs req.op := by
  unfold dispatchRequest at reached
  split at reached
  · cases reached
  · rename_i d found
    obtain ⟨validated, collected, later⟩ := bind_ok reached
    obtain ⟨op, rendered, last⟩ := bind_ok later
    have fromRequest := collectParams_fromRequest collected
    split at last
    · cases last
    · cases last
      exact ⟨d, validated, found, fromRequest, renderOp_renders fromRequest rendered⟩

/-- Whenever `dispatch` reaches the broker, the operation holds only template text and admissible
values; the substitution of the connector and that of the skills agree on every template and every
map, for texts and for JSON; and both loops end on every template. -/
theorem injection_chokepoint (texts : Texts) :
    (∀ (declared : List (String × DeclaredCap)) (actorId capability targetRef : String) (params : Json)
        (timeoutSecs : Nat) (req : ExecRequest),
      dispatchRequest texts declared actorId capability targetRef params timeoutSecs = .ok req →
      ∃ d validated, declared.lookup capability = some d ∧
        FromRequest texts params d.cap.params validated ∧ RendersOp d validated timeoutSecs req.op) ∧
    (∀ (template capability skill text : String) (step : Nat) (validated : Validated),
      Connector.substitute template capability validated = .ok text ↔
        App.substitute template skill step validated = .ok text) ∧
    (∀ (value w : Json) (capability skill : String) (step : Nat) (validated : Validated),
      Connector.substituteJson value capability validated = .ok w ↔
        App.substituteJson value skill step validated = .ok w) ∧
    ∀ (template : List Char) (capability skill : String) (step : Nat) (validated : Validated) (fuel : Nat),
      template.length < fuel →
      (∃ result, fillLoop '{' '}' (Connector.slotErrors capability) validated.slot fuel [] template =
        some result) ∧
      ∃ result, fillLoop '{' '}' (App.slotErrors skill step) validated.slot fuel [] template = some result := by
  refine ⟨?_, ?_, substituteJson_agree, ?_⟩
  · intro declared actorId capability targetRef params timeoutSecs req reached
    exact dispatchRequest_renders reached
  · intro template capability skill text step validated
    rw [substitute_ok, skill_substitute_ok]
  · intro template capability skill step validated fuel enough
    exact ⟨⟨_, fillLoop_eq_fill _ _ _ _ template fuel enough⟩,
      ⟨_, fillLoop_eq_fill _ _ _ _ template fuel enough⟩⟩

/-! ## A sample profile -/

def sampleTexts : Texts where
  number
    | .posInt n => toString n.toNat
    | .negInt n => toString n
    | .float q => toString q
  json _ := "{}"
  strings members := toString members
  opResult _ := "SnmpSetAck"
  brokerError _ := "broker"

theorem keysSorted_of_none (v : Json) (body : none = some v) : v.KeysSorted := by
  cases body

def restartService : DeclaredCap where
  cap := {
    name := "compute.linux.service_restart", version := .new 1 0 0, description := none,
    compensating := none, irreversible := true, readOnly := false,
    params := [("service", .identifier)],
    op := {
      method := .get, path := "", body := none, command := some "systemctl restart {service}",
      timeoutSecs := none, oid := none, walk := false, sorted := keysSorted_of_none }
    ordered := List.pairwise_singleton _ _ }
  auth := .bearer
  transport := .ssh

theorem restartService_chokepoint :
    ∃ req, dispatchRequest sampleTexts [("compute.linux.service_restart", restartService)] "operator"
        "compute.linux.service_restart" "target://web" (.object [("service", .string "nginx")]) 30 = .ok req ∧
      req.op = .shellCommand "systemctl restart nginx" 30 ∧
      ∃ d validated, RendersOp d validated 30 req.op := by
  obtain ⟨req, reached, command⟩ : ∃ req, dispatchRequest sampleTexts
      [("compute.linux.service_restart", restartService)] "operator" "compute.linux.service_restart"
      "target://web" (.object [("service", .string "nginx")]) 30 = .ok req ∧
      req.op = .shellCommand "systemctl restart nginx" 30 := ⟨_, rfl, rfl⟩
  obtain ⟨d, validated, -, -, renders⟩ := (injection_chokepoint sampleTexts).1 _ _ _ _ _ _ req reached
  exact ⟨req, reached, command, d, validated, renders⟩

end Daimon.Proof.Driver
