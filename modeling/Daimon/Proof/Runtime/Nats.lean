import Daimon.Lib.Text
import Daimon.Runtime.Nats

/-!
# Envelopes over NATS

Which envelopes reach the subscribers of the NATS bus as they were sent.
-/

namespace Daimon.Proof.Runtime.Nats
open Daimon.Core Daimon.Lib Daimon.Runtime Daimon.Runtime.Nats

variable {sv : Semver} {Text : Type} {texts : JsonText Text} {times : TimeText} {uuids : UuidText} {env : Envelope sv}

/-- A requirement that is printed and parsed again accepts the same versions. -/
def Reparses (sv : Semver) : Prop :=
  ∀ req, ∃ again, sv.parse (sv.display req) = .ok again ∧ ∀ v, sv.satisfies again v = sv.satisfies req v

def SameRecipient : Recipient sv → Recipient sv → Prop
  | .direct id, .direct other => id = other
  | .byCapability name req, .byCapability name' req' => name = name' ∧ ∀ v, sv.satisfies req' v = sv.satisfies req v
  | _, _ => False

/-- The envelopes are equal, up to the way a version requirement is kept. -/
structure Same (env other : Envelope sv) : Prop where
  correlationId : other.correlationId = env.correlationId
  sender : other.sender = env.sender
  recipient : SameRecipient env.recipient other.recipient
  replyTo : other.replyTo = env.replyTo
  body : other.body = env.body
  audit : other.audit = env.audit

/-- The subscribers get the envelope, and each agent takes it for its own exactly if it would have in process. -/
def Survives (texts : JsonText Text) (times : TimeText) (uuids : UuidText) (env : Envelope sv) : Prop :=
  ∃ other, delivered texts times uuids env = some other ∧ Same env other ∧
    ∀ me capabilities, envelopeAddressedTo other.toAgentEnvelope me capabilities =
      envelopeAddressedTo env.toAgentEnvelope me capabilities

def ByCapability (env : Envelope sv) : Prop := ∃ name req, env.recipient = .byCapability name req

def Carried (texts : JsonText Text) (times : TimeText) (env : Envelope sv) : Prop :=
  ∀ value, env.toValue times = .ok value → texts.decode (texts.encode value) = .ok value

theorem send_direct {id : AgentId} (direct : env.recipient = .direct id) :
    send texts times env = .error (.busSend
      "encode envelope: cannot serialize tagged newtype variant Recipient::Direct containing a string") := by
  have refused : env.toValue times =
      .error "cannot serialize tagged newtype variant Recipient::Direct containing a string" := by
    rw [Envelope.toValue, direct]
    rfl
  rw [send, refused]
  rfl

theorem decodeAudit_auditValue (audit : AuditMetadata) :
    Envelope.decodeAudit times uuids (Envelope.auditValue times audit) = some audit := by
  obtain ⟨ts, parent⟩ := audit
  cases parent <;>
    simp [Envelope.decodeAudit, Envelope.auditValue, Driver.presentFields, Json.ofFields,
      Driver.NetworkResponse.structFields, Driver.NetworkResponse.decodeOptional, Json.asStr?,
      Json.lookup_insertField_self, Json.lookup_insertField_of_ne, times.round_trip, Envelope.decodeUuid,
      uuids.round_trip]

theorem decodeRecipient_byCapability {name : String} {req again : sv.VersionReq} {value : Json}
    (parsed : sv.parse (sv.display req) = .ok again)
    (written : Envelope.recipientValue (.byCapability name req) = .ok value) :
    Envelope.decodeRecipient value = some (.byCapability name again) := by
  obtain rfl := Except.ok.inj written
  simp [Envelope.decodeRecipient, Envelope.byCapability, Json.ofFields, Json.lookup_insertField_self,
    Json.lookup_insertField_of_ne, Json.asStr?, parsed, Except.toOption]

theorem plain_auditValue (times : TimeText) (audit : AuditMetadata) : (Envelope.auditValue times audit).plain 127 := by
  refine Json.plain_ofFields (by decide) fun p member => ?_
  obtain ⟨⟨key, value⟩, among, present⟩ := List.mem_filterMap.mp member
  obtain ⟨ts, parent⟩ := audit
  cases parent <;> simp_all <;> grind [Json.plain]

theorem plain_recipientValue {name : String} {req : sv.VersionReq} {value : Json}
    (written : Envelope.recipientValue (.byCapability name req) = .ok value) : value.plain 127 := by
  obtain rfl := Except.ok.inj written
  refine Json.plain_ofFields (by decide) fun p member => ?_
  simp only [List.mem_cons, List.not_mem_nil, or_false] at member
  rcases member with rfl | rfl | rfl <;> rfl

theorem toValue_byCapability (times : TimeText) {name : String} {req : sv.VersionReq}
    (recipient : env.recipient = .byCapability name req) :
    ∃ value, Envelope.recipientValue (.byCapability name req) = .ok value ∧
      env.toValue times = .ok (Driver.presentFields [("correlation_id", some (.string env.correlationId.hyphenated)),
        ("from", some (.string env.sender.name)), ("to", some value),
        ("reply_to", env.replyTo.map fun id => .string id.name), ("body", some env.body),
        ("audit", some (Envelope.auditValue times env.audit))]) := by
  refine ⟨_, rfl, ?_⟩
  rw [Envelope.toValue, recipient]
  rfl

theorem carried_of_plain (plain : env.body.plain 127) : Carried texts times env := by
  intro value written
  refine texts.round_trip value ?_
  cases recipient : env.recipient with
  | direct id =>
      rw [Envelope.toValue, recipient] at written
      cases written
  | byCapability name req =>
      obtain ⟨to', inner, outer⟩ := toValue_byCapability times recipient
      obtain rfl := Except.ok.inj (outer.symm.trans written)
      refine Json.plain_ofFields (by decide) fun p member => ?_
      obtain ⟨⟨key, field⟩, among, present⟩ := List.mem_filterMap.mp member
      have ofRecipient := plain_recipientValue inner
      have ofAudit := plain_auditValue times env.audit
      cases env.replyTo <;> simp_all <;> grind [Json.plain]

theorem fromValue_toValue (uuids : UuidText) {name : String} {req again : sv.VersionReq} {value : Json}
    (recipient : env.recipient = .byCapability name req) (parsed : sv.parse (sv.display req) = .ok again)
    (written : env.toValue times = .ok value) :
    Envelope.fromValue times uuids value = some { env with recipient := .byCapability name again } := by
  obtain ⟨to', inner, outer⟩ := toValue_byCapability times recipient
  obtain rfl := Except.ok.inj (outer.symm.trans written)
  have decoded := decodeRecipient_byCapability parsed inner
  cases env.replyTo <;>
    simp [Envelope.fromValue, Driver.presentFields, Json.ofFields, Driver.NetworkResponse.structFields,
      Driver.NetworkResponse.decodeOptional, Json.asStr?, Json.lookup_insertField_self,
      Json.lookup_insertField_of_ne, Envelope.decodeUuid, uuids.round_trip, decodeAudit_auditValue, decoded]

theorem addressed_same {name : String} {req again : sv.VersionReq} (recipient : env.recipient = .byCapability name req)
    (accepts : ∀ v, sv.satisfies again v = sv.satisfies req v) (me : AgentId) (capabilities : List Capability) :
    envelopeAddressedTo { env.toAgentEnvelope with recipient := .byCapability name again } me capabilities =
      envelopeAddressedTo env.toAgentEnvelope me capabilities := by
  simp only [envelopeAddressedTo, recipient, accepts]

theorem survives_of_byCapability (reparses : Reparses sv) (byCapability : ByCapability env)
    (carried : Carried texts times env) : Survives texts times uuids env := by
  obtain ⟨name, req, recipient⟩ := byCapability
  obtain ⟨again, parsed, accepts⟩ := reparses req
  obtain ⟨value, written⟩ : ∃ value, env.toValue times = .ok value :=
    (toValue_byCapability times recipient).imp' _ fun _ both => both.2
  have read := fromValue_toValue uuids recipient parsed written
  refine ⟨{ env with recipient := .byCapability name again }, ?_, ?_, addressed_same recipient accepts⟩
  · have sent : send texts times env = .ok (texts.encode value) := by rw [send, written]
    rw [delivered, sent, Except.toOption, Option.bind_some, forward, carried _ written]
    exact read
  · exact ⟨rfl, rfl, by simp [recipient, SameRecipient, accepts], rfl, rfl, rfl⟩

theorem byCapability_of_survives (survives : Survives texts times uuids env) : ByCapability env := by
  obtain ⟨other, got, -⟩ := survives
  cases recipient : env.recipient with
  | byCapability name req => exact ⟨name, req, recipient⟩
  | direct id =>
      rw [delivered, send_direct recipient] at got
      cases got

/-- An envelope survives the wire exactly if it is addressed by capability and its JSON text comes back, as every text
without floating-point numbers and of less than the reader's depth does; no reply can be sent. -/
theorem envelope_survives (reparses : Reparses sv) (env : Envelope sv) :
    (Survives texts times uuids env → ByCapability env) ∧
      (ByCapability env → Carried texts times env → Survives texts times uuids env) ∧
      (env.body.plain 127 → (Survives texts times uuids env ↔ ByCapability env)) ∧
      ∀ (sender : AgentId) (body : Json) (now : Int),
        send texts times (env.reply sender body now) = .error (.busSend
          "encode envelope: cannot serialize tagged newtype variant Recipient::Direct containing a string") := by
  refine ⟨byCapability_of_survives, survives_of_byCapability reparses, fun plain => ?_, fun sender body now => ?_⟩
  · exact ⟨byCapability_of_survives, fun byCapability =>
      survives_of_byCapability reparses byCapability (carried_of_plain plain)⟩
  · exact send_direct rfl

/-! ## Caret requirements -/

theorem digits_toDigits (n : Nat) : Semver.digits? (Nat.toDigits 10 n) = some n := by
  have all : (Nat.toDigits 10 n).all Char.isDigit = true :=
    List.all_eq_true.mpr fun c member => Nat.isDigit_of_mem_toDigits (by decide) (by decide) member
  rw [Semver.digits?, if_pos ⟨Nat.toDigits_ne_nil, all⟩, ← Nat.ofDigitChars_eq_foldl, Nat.ofDigitChars_ten_toDigits]

theorem no_dot (n : Nat) : '.' ∉ Nat.toDigits 10 n := by
  intro member
  have digit := Nat.isDigit_of_mem_toDigits (by decide) (by decide) member
  cases digit

theorem caret_parse_display (req : Semver.CaretReq) : Semver.CaretReq.parse req.display = .ok req := by
  cases req with
  | any => rfl
  | caret major minor patch =>
      have literal : ∀ text : String, toString text = text := fun _ => rfl
      have text : (Semver.CaretReq.display (.caret major minor patch)).toList =
          '^' :: (Nat.toDigits 10 major ++ '.' :: (Nat.toDigits 10 minor ++ '.' :: Nat.toDigits 10 patch)) := by
        simp [Semver.CaretReq.display, literal]
      have split : (Nat.toDigits 10 major ++ '.' :: (Nat.toDigits 10 minor ++ '.' :: Nat.toDigits 10 patch)).splitOn
          '.' = [Nat.toDigits 10 major, Nat.toDigits 10 minor, Nat.toDigits 10 patch] := by
        refine (splitOn_eq_iff).mpr ⟨by simp, ?_, by simp [List.intercalate]⟩
        simp [no_dot]
      have other : Semver.CaretReq.display (.caret major minor patch) ≠ "*" := by
        intro same
        have chars := congrArg String.toList same
        rw [text] at chars
        simp at chars
      simp [Semver.CaretReq.parse, other, text, split, digits_toDigits]

theorem caret_reparses : Reparses Semver.caret :=
  fun req => ⟨req, caret_parse_display req, fun _ => rfl⟩

def request : Envelope Semver.caret :=
  { correlationId := 1, sender := ⟨"client"⟩, recipient := .byCapability "noop" .any, body := .null,
    replyTo := some ⟨"client"⟩, audit := ⟨0, none⟩ }

theorem request_survives : Survives JsonText.values TimeText.tallies UuidText.hex request :=
  ((envelope_survives caret_reparses request).2.2.1 rfl).mpr ⟨"noop", .any, rfl⟩

/-- The reply to a request that arrived cannot be sent. -/
theorem reply_not_sent :
    send JsonText.values TimeText.tallies (request.reply ⟨"server"⟩ .null 0) = .error (.busSend
        "encode envelope: cannot serialize tagged newtype variant Recipient::Direct containing a string") ∧
      ¬Survives JsonText.values TimeText.tallies UuidText.hex (request.reply ⟨"server"⟩ .null 0) := by
  refine ⟨rfl, ?_⟩
  rintro ⟨other, got, -⟩
  cases got

end Daimon.Proof.Runtime.Nats
