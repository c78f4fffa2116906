import Daimon.Core.Capability

/-!
# The capability registry

`CapabilityRegistry` (`daimon-runtime/src/registry.rs`). The registry is a hash map keyed by agent id; its
entries are listed in the order in which the map happens to iterate, so a statement about every
registry is a statement about every iteration order.
-/

namespace Daimon.Runtime
open Daimon.Core Lib

inductive CoreError where
  | capabilityNotFound (name versionReq : String)
  | agentNotFound (id : String)
  | busSend (message : String)
  | handler (message : String)
  | other (message : String)
  deriving DecidableEq, Repr

def CoreError.display : CoreError → String
  | .capabilityNotFound name versionReq =>
      "no agent registered for capability `" ++ name ++ "` matching `" ++ versionReq ++ "`"
  | .agentNotFound id => "agent `" ++ id ++ "` not found"
  | .busSend message => "bus send failed: " ++ message
  | .handler message => "agent handler error: " ++ message
  | .other message => message

structure RegistryEntry where
  agentId : AgentId
  capabilities : List Capability
  deriving DecidableEq

structure CapabilityRegistry where
  entries : List RegistryEntry
  distinct : (entries.map RegistryEntry.agentId).Nodup
  deriving DecidableEq

namespace CapabilityRegistry

/-- Every capability currently registered, flattened across agents (`Harness::capabilities`). -/
def capabilities (registry : CapabilityRegistry) : List Capability :=
  registry.entries.flatMap RegistryEntry.capabilities

def get (registry : CapabilityRegistry) (agentId : AgentId) : Option RegistryEntry :=
  registry.entries.find? fun entry => entry.agentId == agentId

def empty : CapabilityRegistry := { entries := [], distinct := List.nodup_nil }

def unregister (registry : CapabilityRegistry) (agentId : AgentId) : CapabilityRegistry where
  entries := registry.entries.filter fun entry => entry.agentId != agentId
  distinct := registry.distinct.sublist (List.filter_sublist.map _)

theorem unregister_absent (registry : CapabilityRegistry) (agentId : AgentId) :
    agentId ∉ (registry.unregister agentId).entries.map RegistryEntry.agentId := by
  simp [unregister]

/-- Replaces any prior entry. -/
def register (registry : CapabilityRegistry) (agentId : AgentId) (capabilities : List Capability) :
    CapabilityRegistry where
  entries := { agentId, capabilities } :: (registry.unregister agentId).entries
  distinct := List.nodup_cons.mpr ⟨registry.unregister_absent agentId, (registry.unregister agentId).distinct⟩

@[simp] theorem get_empty (agentId : AgentId) : empty.get agentId = none := rfl

@[simp] theorem get_unregister (registry : CapabilityRegistry) (agentId other : AgentId) :
    (registry.unregister agentId).get other = if other = agentId then none else registry.get other := by
  unfold get unregister
  rw [List.find?_filter]
  split
  · next same =>
      rw [List.find?_eq_none]
      simp [same]
  · next different =>
      congr 1
      funext entry
      by_cases found : entry.agentId = other <;> simp [found, different]

@[simp] theorem get_register (registry : CapabilityRegistry) (agentId other : AgentId)
    (capabilities : List Capability) :
    (registry.register agentId capabilities).get other =
      if other = agentId then some { agentId, capabilities } else registry.get other := by
  have rest := registry.get_unregister agentId other
  unfold get at rest ⊢
  by_cases same : other = agentId
  · simp [register, same]
  · simp only [register, List.find?_cons, beq_eq_false_iff_ne.mpr (Ne.symm same), rest, if_neg same]

variable (sv : Semver)

def findByCapability (registry : CapabilityRegistry) (name : String) (versionReq : sv.VersionReq) :
    List RegistryEntry :=
  registry.entries.filter fun entry =>
    entry.capabilities.any fun cap => cap.name == name && sv.satisfies versionReq cap.version

def requireByCapability (registry : CapabilityRegistry) (name : String) (versionReq : sv.VersionReq) :
    Except CoreError RegistryEntry :=
  match (registry.findByCapability sv name versionReq).head? with
  | some entry => .ok entry
  | none => .error (.capabilityNotFound name (sv.display versionReq))

end CapabilityRegistry
end Daimon.Runtime
