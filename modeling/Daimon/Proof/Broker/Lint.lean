import Daimon.Broker.Execute

/-!
# The boot lint

What a clean `lint_write_capabilities` says about the linted set.
-/

namespace Daimon.Proof.Broker
open Daimon.Core Daimon.Broker

theorem lintCapability_ok {b : Config} {g : Guard.Config} {present : List String} {cap : Capability}
    (attached : b.guard = some g) (passed : b.lintCapability present cap = .ok ())
    (write : cap.isRead = false) : (g.policy.evaluate cap.name).decision ≠ .allow := by
  intro allowed
  unfold Config.lintCapability at passed
  split at passed
  · cases passed
  · simp [write, attached, allowed] at passed

theorem forM_ok {α : Type} {f : α → Except String Unit} {xs : List α} (passed : xs.forM f = .ok ())
    (x : α) (member : x ∈ xs) : f x = .ok () := by
  induction xs with
  | nil => cases member
  | cons y ys ih =>
      change (f y >>= fun _ => ys.forM f) = .ok () at passed
      cases first : f y with
      | error e => simp [first, bind, Except.bind] at passed
      | ok =>
          simp only [first, bind, Except.bind] at passed
          rcases List.mem_cons.mp member with rfl | rest
          · exact first
          · exact ih passed rest

theorem lint_write_not_allowed {b : Config} {g : Guard.Config} {caps : List Capability}
    (attached : b.guard = some g) (clean : b.lintWriteCapabilities caps = .ok ()) {cap : Capability}
    (member : cap ∈ caps) (write : cap.isRead = false) :
    (g.policy.evaluate cap.name).decision ≠ .allow :=
  lintCapability_ok attached (forM_ok clean cap member) write

theorem lint_compensator_present {b : Config} {caps : List Capability}
    (clean : b.lintWriteCapabilities caps = .ok ()) {cap : Capability} (member : cap ∈ caps)
    {comp : CompensatingCapability} (declared : cap.compensating = some comp) :
    ∃ c ∈ caps, c.name = comp.name := by
  have passed := forM_ok clean cap member
  unfold Config.lintCapability at passed
  split at passed
  · cases passed
  case h_2 kept =>
    have present : comp.name ∈ caps.map Capability.name := by
      simpa [declared, Option.filter] using kept
    simpa using present

end Daimon.Proof.Broker
