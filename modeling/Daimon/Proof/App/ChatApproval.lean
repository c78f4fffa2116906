import Daimon.App.Inbound

/-!
# Which approval a message decides

A reply is matched to an alert by the channel and the id of the message alone, before the text is read for an approval
that it names.
-/

namespace Daimon.Proof.App
open Daimon.Core Daimon.App.Chat Daimon.App.Inbound Lib
open Daimon.Gateway (InboundMessage)
open Daimon.Guard (ApprovalTable ApprovalRecord ApprovalStatus)

def pendingIds (table : ApprovalTable) : List Uuid :=
  (table.filter fun row => row.status = .pending).map (·.id)

def Decides (before after : ApprovalTable) (id : Uuid) : Prop := id ∈ pendingIds before ∧ id ∉ pendingIds after

/-- An alert for the approval was delivered as the message replied to, in the chat of the reply. -/
def AlertedHere (uuids : UuidText) (deliveries : List AlertDelivery) (msg : InboundMessage) (id : Uuid) : Prop :=
  ∃ replyId, msg.replyToMessageId = some replyId ∧
    ∃ row ∈ deliveries, repliedTo msg.channel replyId row = true ∧ row.recipient = msg.correlation.replyTo ∧
      uuids.parse row.signature = some id

/-- The approval that a message means: the one it names, or else the one it replies to. -/
def Meant (uuids : UuidText) (deliveries : List AlertDelivery) (msg : InboundMessage) (id : Uuid) : Prop :=
  (∃ approved, parseApprovalCommand uuids msg.text = some (approved, id)) ∨
    (parseApprovalCommand uuids msg.text = none ∧ AlertedHere uuids deliveries msg id)

/-- The sender may decide, the decision is written, and the approval is pending. -/
def canDecide (answers : InboundAnswers) (approvals : ApprovalTable) (id : Uuid) : Bool :=
  (match answers.identity with
    | .ok (some actor) => actor.isApprover
    | _ => false) && answers.guard && answers.decidedAt.isSome && decide (id ∈ pendingIds approvals)

section Decide
variable {uuids : UuidText} {answers : InboundAnswers} {deliveries : List AlertDelivery} {approvals : ApprovalTable}
  {msg : InboundMessage} {id other : Uuid}

theorem pendingIds_updatePending {change : ApprovalRecord → ApprovalRecord}
    (settled : ∀ row, (change row).status ≠ .pending) :
    pendingIds (approvals.updatePending id change) = (pendingIds approvals).filter (· ≠ id) := by
  induction approvals with
  | nil => rfl
  | cons row rest ih =>
      simp only [pendingIds, ApprovalTable.updatePending, List.map_cons, List.filter_cons] at ih ⊢
      by_cases pending : row.status = .pending
      · by_cases same : row.id = id
        · simp [pending, same, settled, ih]
        · simp [pending, same, ih]
      · simp [pending, ih]

theorem find_pending : (approvals.find? fun row => row.id == id && row.status == .pending).isSome =
    decide (id ∈ pendingIds approvals) := by
  rw [Bool.eq_iff_iff, decide_eq_true_eq]
  simp [pendingIds, and_assoc, and_comm, and_left_comm]

theorem decides_decide {operator : Uuid} {status : ApprovalStatus} {now : Nat} (settled : status ≠ .pending) :
    Decides approvals (((approvals.decide id operator status now).map Prod.fst).getD approvals) other ↔
      other = id ∧ id ∈ pendingIds approvals := by
  have found := @find_pending approvals id
  unfold ApprovalTable.decide
  cases row : approvals.find? fun row => row.id == id && row.status == .pending with
  | none =>
      have absent : id ∉ pendingIds approvals := by simpa [row] using found
      simp [Decides, absent]
  | some row' =>
      have present : id ∈ pendingIds approvals := by simpa [row] using found
      simp only [Option.map_some, Option.getD_some, Decides]
      rw [pendingIds_updatePending fun _ => settled]
      simp only [List.mem_filter, decide_eq_true_eq, present, and_true]
      constructor
      · rintro ⟨member, gone⟩
        by_contra distinct
        exact gone ⟨member, distinct⟩
      · rintro rfl
        exact ⟨present, fun kept => kept.2 rfl⟩

end Decide

section Handle
variable (uuids : UuidText) (answers : InboundAnswers) (deliveries : List AlertDelivery) (approvals : ApprovalTable)
  (msg : InboundMessage)

theorem decideOverChat_decides (actor : GatewayActor) (approved : Bool) (id : Uuid) (sessionId : String) (other : Uuid) :
    Decides approvals (decideOverChat answers approvals actor approved id sessionId).approvals other ↔
      other = id ∧ actor.isApprover = true ∧ answers.guard = true ∧ answers.decidedAt.isSome ∧ id ∈ pendingIds approvals := by
  have unchanged : ¬ Decides approvals approvals other := fun decided => decided.2 decided.1
  unfold decideOverChat
  split
  · rename_i refused
    simp only [Bool.not_eq_true'] at refused
    simp [unchanged, refused]
  · rename_i approver
    split
    · rename_i missing
      simp only [Bool.not_eq_true'] at missing
      simp [unchanged, missing]
    · rename_i present
      simp only [Bool.not_eq_true', Bool.not_eq_false] at approver present
      have settled : (if approved then ApprovalStatus.approved else .denied) ≠ .pending := by cases approved <;> simp
      simp only [approver, present, true_and]
      cases answers.decidedAt with
      | none => simp [unchanged]
      | some now =>
          have written := @decides_decide approvals id other actor.userId _ now settled
          simp only [Option.bind_some, Option.isSome_some, true_and]
          rw [← written]
          cases approvals.decide id actor.userId (if approved then .approved else .denied) now <;> rfl

theorem handle_decides (id : Uuid) :
    Decides approvals (handle uuids answers deliveries approvals msg).approvals id ↔
      ∃ approved, decision uuids answers deliveries msg = some (approved, id) ∧ canDecide answers approvals id = true := by
  have unchanged : ¬ Decides approvals approvals id := fun decided => decided.2 decided.1
  unfold handle canDecide
  cases answers.identity with
  | error e => simp [unchanged]
  | ok bound =>
      cases bound with
      | none => simp [unchanged]
      | some actor =>
          simp only
          cases decision uuids answers deliveries msg with
          | none => simp [unchanged]
          | some decided =>
              obtain ⟨approved, target⟩ := decided
              simp only [decideOverChat_decides, Option.some.injEq, Prod.mk.injEq, Bool.and_eq_true, decide_eq_true_eq]
              constructor
              · rintro ⟨rfl, approver, guard, written, pending⟩
                exact ⟨approved, ⟨rfl, rfl⟩, ⟨⟨approver, guard⟩, written⟩, pending⟩
              · rintro ⟨_, ⟨-, rfl⟩, ⟨⟨approver, guard⟩, written⟩, pending⟩
                exact ⟨rfl, approver, guard, written, pending⟩

/-- What makes the approval found for a reply the right one: the text names no other, and without a name an alert for it
is the message replied to in this chat. -/
structure Correlated (id : Uuid) : Prop where
  named : ∀ approved other, parseApprovalCommand uuids msg.text = some (approved, other) → other = id
  here : parseApprovalCommand uuids msg.text = none → AlertedHere uuids deliveries msg id

theorem meant_iff_correlated (id : Uuid) : Meant uuids deliveries msg id ↔ Correlated uuids deliveries msg id := by
  constructor
  · rintro (⟨approved, found⟩ | ⟨none, here⟩)
    · refine ⟨fun approved' other again => ?_, fun none => ?_⟩
      · exact (Prod.mk.inj (Option.some.inj (again.symm.trans found))).2
      · exact absurd (none.symm.trans found) nofun
    · exact ⟨fun approved other found => absurd (none.symm.trans found) nofun, fun _ => here⟩
  · intro correlated
    cases found : parseApprovalCommand uuids msg.text with
    | none => exact .inr ⟨found, correlated.here found⟩
    | some command =>
        obtain rfl := correlated.named command.1 command.2 found
        exact .inl ⟨command.1, found⟩

theorem replyDecision_eq_some {approved : Bool} {id : Uuid} :
    replyDecision uuids answers deliveries msg = some (approved, id) ↔
      ∃ replyId, msg.replyToMessageId = some replyId ∧ parseBareDecision msg.text = some approved ∧
        answers.lookupReached = true ∧ resolveApprovalByReply uuids deliveries msg.channel replyId = some id := by
  unfold replyDecision
  cases msg.replyToMessageId with
  | none => simp
  | some replyId =>
      cases parseBareDecision msg.text with
      | none => simp
      | some word =>
          cases answers.lookupReached with
          | false => simp
          | true => simp [Option.bind_eq_some_iff, and_comm]

/-- A message decides only the approval it means exactly if the approval that the lookup finds for a reply with a
decision word, where it can be decided, is correlated with the message; and it never decides more than one. -/
theorem chat_decision_meant :
    ((∀ id, Decides approvals (handle uuids answers deliveries approvals msg).approvals id →
        Meant uuids deliveries msg id) ↔
      ∀ replyId id, msg.replyToMessageId = some replyId → (parseBareDecision msg.text).isSome →
        answers.lookupReached = true → resolveApprovalByReply uuids deliveries msg.channel replyId = some id →
        canDecide answers approvals id = true → Correlated uuids deliveries msg id) ∧
    ∀ id other, Decides approvals (handle uuids answers deliveries approvals msg).approvals id →
      Decides approvals (handle uuids answers deliveries approvals msg).approvals other → id = other := by
  simp only [handle_decides]
  refine ⟨⟨?_, ?_⟩, ?_⟩
  · intro meant replyId id replies word reached found can
    obtain ⟨approved, bare⟩ := Option.isSome_iff_exists.mp word
    have matched := (replyDecision_eq_some uuids answers deliveries msg).mpr ⟨replyId, replies, bare, reached, found⟩
    refine (meant_iff_correlated uuids deliveries msg id).mp (meant id ⟨approved, ?_, can⟩)
    simp only [decision, matched]
  · rintro correlated id ⟨approved, decided, can⟩
    cases matched : replyDecision uuids answers deliveries msg with
    | some target =>
        simp only [decision, matched, Option.some.injEq] at decided
        subst decided
        obtain ⟨replyId, replies, bare, reached, found⟩ := (replyDecision_eq_some uuids answers deliveries msg).mp matched
        have word : (parseBareDecision msg.text).isSome := Option.isSome_iff_exists.mpr ⟨approved, bare⟩
        exact (meant_iff_correlated uuids deliveries msg id).mpr (correlated replyId id replies word reached found can)
    | none =>
        simp only [decision, matched] at decided
        exact .inl ⟨approved, decided⟩
  · rintro id other ⟨approved, decided, -⟩ ⟨approved', decided', -⟩
    have same := Option.some.inj (decided.symm.trans decided')
    exact (Prod.mk.inj same).2

end Handle

/-! Two alerts with one message id in two chats of a channel. -/

def alert (chat : String) (id : Uuid) (createdAt : Nat) : AlertDelivery :=
  ⟨"approval", id.hyphenated, "telegram", chat, some "7", createdAt⟩

def twoAlerts : List AlertDelivery := [alert "100" 1 1, alert "200" 2 2]

def inbox : ApprovalTable :=
  [1, 2].map fun id => ApprovalTable.newRow id 0 ⟨"user:bob", "net.reboot", none, .null⟩

def approverAnswers : InboundAnswers where
  identity := .ok (some ⟨9, "ana", ["approver"]⟩)
  lookupReached := true
  guard := true
  decidedAt := some 3
  turn := ⟨fun _ => none, .error "no key", ⟨"", true⟩, fun _ => .error "", fun _ => none, fun _ => .ok (),
    fun _ _ => .error "", fun _ _ => .error "", fun _ => ""⟩
  historyOwner := none
  recent := .ok []

def replyIn (chat text : String) : InboundMessage := ⟨"telegram", "1", text, ⟨some chat, chat⟩, some "7"⟩

/-- A bare reply in one chat decides the approval of the other chat, and a reply that names the one approval decides the
other. -/
theorem other_approval_decided :
    (Decides inbox (handle .hex approverAnswers twoAlerts inbox (replyIn "100" "approve")).approvals 2 ∧
      ¬ Meant .hex twoAlerts (replyIn "100" "approve") 2) ∧
    Decides inbox (handle .hex approverAnswers twoAlerts inbox
        (replyIn "200" ("approve " ++ Uuid.hyphenated 1))).approvals 2 ∧
      ¬ Meant .hex twoAlerts (replyIn "200" ("approve " ++ Uuid.hyphenated 1)) 2 := by
  have newestAlert : resolveApprovalByReply .hex twoAlerts "telegram" "7" = some 2 := UuidText.hex.round_trip 2
  have bare : parseApprovalCommand .hex "approve" = none := by decide +kernel
  have named : parseApprovalCommand .hex ("approve " ++ Uuid.hyphenated 1) = some (true, 1) := by decide +kernel
  have decides : ∀ chat text, parseBareDecision text = some true →
      Decides inbox (handle .hex approverAnswers twoAlerts inbox (replyIn chat text)).approvals 2 := by
    intro chat text approve
    refine (handle_decides _ _ _ _ _ _).mpr ⟨true, ?_, by decide +kernel⟩
    simp [decision, replyDecision, replyIn, approve, approverAnswers, newestAlert]
  refine ⟨⟨decides _ _ (by decide +kernel), ?_⟩, decides _ _ (by decide +kernel), ?_⟩
  · rintro (⟨approved, found⟩ | ⟨-, replyId, -, row, member, -, here, parsed⟩)
    · exact absurd (bare.symm.trans found) nofun
    · simp only [twoAlerts, List.mem_cons, List.not_mem_nil, or_false] at member
      rcases member with rfl | rfl
      · exact absurd ((UuidText.hex.round_trip 1).symm.trans parsed) (by decide +kernel)
      · exact absurd here (by decide +kernel)
  · rintro (⟨approved, found⟩ | ⟨none, -⟩)
    · exact absurd (named.symm.trans found) (by simp)
    · exact absurd (named.symm.trans none) nofun

end Daimon.Proof.App
