import Daimon.Proof.Orchestrator.Saga
import Daimon.Proof.Broker.Lint

/-!
# Which compensator a step resolves to

Three lookups over one registry: the forward dispatch by name and requirement, the compensator of a
step by name alone, and the boot lint by name alone.
-/

namespace Daimon.Proof.Orchestrator
open Daimon.Core Lib Daimon.Orchestrator
open Daimon.Runtime (CapabilityRegistry RegistryEntry)

variable {sv : Semver}

theorem mem_findByCapability {registry : CapabilityRegistry} {name : String} {versionReq : sv.VersionReq}
    {entry : RegistryEntry} : entry ∈ registry.findByCapability sv name versionReq ↔
      entry ∈ registry.entries ∧
        ∃ cap ∈ entry.capabilities, cap.name = name ∧ sv.satisfies versionReq cap.version = true := by
  simp [CapabilityRegistry.findByCapability]

theorem requireByCapability_mem {registry : CapabilityRegistry} {name : String} {versionReq : sv.VersionReq}
    {entry : RegistryEntry} (found : registry.requireByCapability sv name versionReq = .ok entry) :
    entry ∈ registry.findByCapability sv name versionReq := by
  unfold CapabilityRegistry.requireByCapability at found
  split at found
  · cases found
    exact List.mem_of_head? ‹_›
  · cases found

theorem requireByCapability_ok_iff (registry : CapabilityRegistry) (name : String) (versionReq : sv.VersionReq) :
    (∃ entry, registry.requireByCapability sv name versionReq = .ok entry) ↔
      ∃ cap ∈ registry.capabilities, cap.name = name ∧ sv.satisfies versionReq cap.version = true := by
  constructor
  · rintro ⟨entry, found⟩
    obtain ⟨inRegistry, cap, member, matching⟩ := (mem_findByCapability).mp (requireByCapability_mem found)
    exact ⟨cap, List.mem_flatMap.mpr ⟨entry, inRegistry, member⟩, matching⟩
  · rintro ⟨cap, registered, matching⟩
    obtain ⟨entry, inRegistry, member⟩ := List.mem_flatMap.mp registered
    have found := (mem_findByCapability).mpr ⟨inRegistry, cap, member, matching⟩
    unfold CapabilityRegistry.requireByCapability
    cases first : (registry.findByCapability sv name versionReq).head? with
    | some head => exact ⟨head, rfl⟩
    | none =>
        rw [List.head?_eq_none_iff.mp first] at found
        cases found

theorem compensatorFor_declared {registry : CapabilityRegistry} {name : String} {comp : CompensatingCapability}
    (resolves : compensatorFor sv registry name = some comp) :
    ∃ cap ∈ registry.capabilities, cap.name = name ∧ cap.compensating = some comp := by
  simp only [compensatorFor, sv.parse_star] at resolves
  split at resolves
  · cases resolves
  case h_2 entry required =>
    obtain ⟨cap, first, declared⟩ := Option.bind_eq_some_iff.mp resolves
    have inRegistry := ((mem_findByCapability).mp (requireByCapability_mem required)).1
    have member := List.mem_of_find?_eq_some first
    have named : cap.name = name := by simpa using List.find?_some first
    exact ⟨cap, List.mem_flatMap.mpr ⟨entry, inRegistry, member⟩, named, declared⟩

theorem compensator_resolution (b : Daimon.Broker.Config) (registry : CapabilityRegistry) :
    (∀ (rows : PlanRows) (r : Runner sv) (m : Moved sv) (idx : Nat) (comp : CompensatingCapability),
      advance rows r (.registry registry) = some m → .compensating idx comp ∈ m.events →
      ∃ step, r.steps[idx]? = some step ∧
        ∃ cap ∈ registry.capabilities, cap.name = step.capabilityName ∧ cap.compensating = some comp) ∧
    (b.lintWriteCapabilities registry.capabilities = .ok () →
      ∀ cap ∈ registry.capabilities, ∀ comp, cap.compensating = some comp →
        (∃ c ∈ registry.capabilities, c.name = comp.name) ∧
        (∀ versionReq, compensatorVersionReq sv comp = .ok versionReq →
          ((∃ entry, registry.requireByCapability sv comp.name versionReq = .ok entry) ↔
            ∃ c ∈ registry.capabilities, c.name = comp.name ∧ sv.satisfies versionReq c.version = true)) ∧
        (comp.versionReq = none → (∃ c ∈ registry.capabilities, c.name = comp.name ∧ c.version.pre = "") →
          ∃ versionReq entry, compensatorVersionReq sv comp = .ok versionReq ∧
            registry.requireByCapability sv comp.name versionReq = .ok entry)) := by
  constructor
  · intro rows r m idx comp moved attempted
    cases advance_transition moved with
    | skip => simp at attempted
    | @unsendable _ _ _ step _ _ _ found resolves =>
        obtain ⟨rfl, rfl⟩ : idx = _ ∧ comp = _ := by simpa using attempted
        exact ⟨step, found, compensatorFor_declared resolves⟩
    | @compensate _ _ _ step _ _ _ found resolves =>
        obtain ⟨rfl, rfl⟩ : idx = _ ∧ comp = _ := by simpa using attempted
        exact ⟨step, found, compensatorFor_declared resolves⟩
  · intro clean cap member comp declared
    refine ⟨Broker.lint_compensator_present clean member declared,
      fun versionReq _ => requireByCapability_ok_iff registry comp.name versionReq, ?_⟩
    rintro anyVersion ⟨c, registered, named, release⟩
    have matching : sv.satisfies sv.star c.version = true := by simp [sv.satisfies_star, release]
    obtain ⟨entry, found⟩ := (requireByCapability_ok_iff registry comp.name sv.star).mpr
      ⟨c, registered, named, matching⟩
    exact ⟨sv.star, entry, by simp [compensatorVersionReq, anyVersion], found⟩

def twoVersions : CapabilityRegistry :=
  { entries := [
      ⟨⟨"routeros-next"⟩, [
        { name := "network.routeros.firewall_add_drop_rule", version := .new 2 0 0, description := none,
          schema := none, irreversible := false,
          compensating := some ⟨"network.routeros.firewall_remove_rule", some "^2.0.0"⟩ }]⟩,
      ⟨⟨"routeros"⟩, [
        { name := "network.routeros.firewall_add_drop_rule", version := .new 1 0 0, description := none,
          schema := none, irreversible := false,
          compensating := some ⟨"network.routeros.firewall_remove_rule", none⟩ },
        { name := "network.routeros.firewall_remove_rule", version := .new 1 0 0, description := none,
          schema := none, irreversible := true, compensating := none }]⟩]
    distinct := by decide }

/-- The sample step asks for version 1 and is compensated as version 2 says; the lint is clean and the
requirement of that compensator is met by nothing. -/
theorem resolution_ignores_versions :
    ∃ (rows : PlanRows) (r : Runner Semver.caret) (m : Moved Semver.caret) (step : Step)
        (comp : CompensatingCapability) (stepReq compReq : Semver.caret.VersionReq),
      r.steps[0]? = some step ∧ Semver.caret.parse step.capabilityVersion = .ok stepReq ∧
      advance rows r (.registry twoVersions) = some m ∧ .compensating 0 comp ∈ m.events ∧
      (¬ ∃ cap ∈ twoVersions.capabilities, cap.name = step.capabilityName ∧
        Semver.caret.satisfies stepReq cap.version = true ∧ cap.compensating = some comp) ∧
      ({ guard := none, transports := [] } : Daimon.Broker.Config).lintWriteCapabilities
        twoVersions.capabilities = .ok () ∧
      (∃ cap ∈ twoVersions.capabilities, cap.compensating = some comp) ∧
      compensatorVersionReq Semver.caret comp = .ok compReq ∧
      ¬ ∃ c ∈ twoVersions.capabilities, c.name = comp.name ∧
        Semver.caret.satisfies compReq c.version = true := by
  refine ⟨samplePass.rows, samplePass.runner, _, _, _, .caret 1 0 0, .caret 2 0 0, rfl, rfl, rfl,
    List.mem_cons_self, ?_, rfl, ?_, rfl, ?_⟩ <;> decide

end Daimon.Proof.Orchestrator
