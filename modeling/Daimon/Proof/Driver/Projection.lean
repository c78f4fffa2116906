import Daimon.Driver.Connector

/-!
# Whether a projected capability is a read

`project_capability` keeps the flags of a profile's capability unless it is marked read-only, and the name decides
among those that have none. The markers are looked for in the whole dotted name.
-/

namespace Daimon.Proof.Driver
open Daimon.Core Lib Daimon.Driver Daimon.Broker
open Daimon.Core.Capability (readMarkers nameIsRead)
open Daimon.Driver.Connector (ProfileCapability ProfileOp DeclaredCap dispatchRequest projectCapability)

def Carries (marker : String) (text : List Char) : Prop := marker.toList <:+: text

instance (marker : String) (text : List Char) : Decidable (Carries marker text) :=
  inferInstanceAs (Decidable (marker.toList <:+: text))

def lastSegment (name : String) : List Char := ((name.toList.splitOn '.').getLast?).getD []

theorem nameIsRead_eq_false {name : String} :
    nameIsRead name = false ↔ ∀ marker ∈ readMarkers, ¬Carries marker name.toList := by
  simp [nameIsRead, Carries]

theorem isRead_projectCapability (cap : ProfileCapability) :
    (projectCapability cap).isRead =
      ((cap.readOnly || cap.compensating.isNone && !cap.irreversible) && nameIsRead cap.name) := by
  unfold projectCapability
  cases cap.readOnly with
  | true => simp [Capability.isRead, Capability.readOnly]
  | false => simp [Capability.isRead]

theorem dispatchRequest_deriveReadOnly {texts : Texts} {declared : List (String × DeclaredCap)}
    {actorId name targetRef : String} {params : Json} {timeoutSecs : Nat} {d : DeclaredCap} {req : ExecRequest}
    (found : declared.lookup name = some d)
    (sent : dispatchRequest texts declared actorId name targetRef params timeoutSecs = .ok req) :
    req.deriveReadOnly = (projectCapability d.cap).isRead := by
  unfold dispatchRequest at sent
  rw [found] at sent
  simp only [bind, Except.bind] at sent
  split at sent
  · cases sent
  · split at sent
    · cases sent
    · split at sent
      · cases sent
      · cases sent
        rfl

/-- A capability that is not marked read-only and has a compensator or is irreversible, and one whose name has no read
marker, is a write, and the guard asks the policy about its requests. -/
theorem project_capability_fail_closed (cap : ProfileCapability)
    (write : cap.readOnly = false ∧ (cap.compensating.isSome ∨ cap.irreversible = true) ∨
      ∀ marker ∈ readMarkers, ¬Carries marker cap.name.toList) :
    (projectCapability cap).isRead = false ∧
      ∀ (texts : Texts) (declared : List (String × DeclaredCap)) (d : DeclaredCap) (actorId targetRef : String)
        (params : Json) (timeoutSecs : Nat) (req : ExecRequest), declared.lookup cap.name = some d → d.cap = cap →
        dispatchRequest texts declared actorId cap.name targetRef params timeoutSecs = .ok req →
        ∀ (g : Guard.Config) (s : Guard.State), s.kill.engaged = false →
          Guard.advance g s (preFlightArgs req) .killCheck .go = some ⟨s, [], .next .policy⟩ := by
  have disposition : (projectCapability cap).isRead = false := by
    rw [isRead_projectCapability]
    rcases write with ⟨plain, compensated | irreversible⟩ | unmarked
    · simp [plain, Option.isNone_eq_false_iff.mpr compensated]
    · simp [plain, irreversible]
    · rw [(nameIsRead_eq_false).mpr unmarked, Bool.and_false]
  refine ⟨disposition, ?_⟩
  intro texts declared d actorId targetRef params timeoutSecs req found same sent g s disengaged
  subst same
  have asked : (preFlightArgs req).isReadOnly = false :=
    (dispatchRequest_deriveReadOnly found sent).trans disposition
  simp [Guard.advance, disengaged, asked]

/-! A capability of a given name and flags, with nothing else in it. -/

def flagged (name : String) (compensating : Option String) (irreversible readOnly : Bool) : ProfileCapability where
  name := name
  version := .new 1 0 0
  description := none
  compensating := compensating
  irreversible := irreversible
  readOnly := readOnly
  params := []
  op := ⟨.get, "", none, none, none, none, false, by simp⟩
  ordered := List.Pairwise.nil

theorem project_capability_fail_closed_restart :
    (projectCapability (flagged "orchestrator.k8s.deploy.restart" (some "orchestrator.k8s.deploy.rollback") false
      false)).isRead = false :=
  (project_capability_fail_closed _ (Or.inl ⟨rfl, Or.inl rfl⟩)).1

/-- The disposition by the flags and the last segment of the name alone. -/
def FailClosed (cap : ProfileCapability) : Prop :=
  cap.compensating.isSome ∨ cap.irreversible = true ∨
      (∀ marker ∈ readMarkers, ¬Carries marker (lastSegment cap.name)) →
    (projectCapability cap).isRead = false

/-- The override for a capability that is irreversible, the verb `status` behind a dot, and a marker in the name of the
resource: each of them is a read. -/
theorem project_capability_reads :
    ¬FailClosed (flagged "compute.proxmox.vm.status" none true true) ∧
      ¬FailClosed (flagged "orchestrator.k8s.pod.status" none false true) ∧
      ¬FailClosed (flagged "network.firewall.address_list.add" none false false) := by
  unfold FailClosed
  refine ⟨fun closed => ?_, fun closed => ?_, fun closed => ?_⟩
  · exact absurd (closed (Or.inr (Or.inl rfl))) (by decide +kernel)
  · exact absurd (closed (Or.inr (Or.inr (by decide +kernel)))) (by decide +kernel)
  · exact absurd (closed (Or.inr (Or.inr (by decide +kernel)))) (by decide +kernel)

end Daimon.Proof.Driver
