import Daimon.Lib.Window

/-!
# De-duplication windows

`DedupCache::admit` of `daimon-app/src/alert_router.rs`, whose keys are signatures, and `TriageAgent::admit` of
`daimon-triage/src/lib.rs`, whose keys are a source and a metric. An `Instant` and a `Duration` are in nanoseconds, and
`duration_since` is zero for a later instant.
-/

namespace Daimon.Triage
open Lib.Window

variable {κ : Type} [DecidableEq κ] (ttl : Nat)

def DedupCache.evict (seen : Seen κ) (now : Nat) : Seen κ := fun k => (seen k).filter fun t => now - t < ttl

def DedupCache.admitSignature (seen : Seen κ) (now : Nat) (sig : κ) : Seen κ × Bool :=
  let seen := evict ttl seen now
  match seen sig with
  | some t => if now - t < ttl then (seen, false) else (Function.update seen sig (some now), true)
  | none => (Function.update seen sig (some now), true)

def TriageAgent.admitMetric (seen : Seen κ) (now : Nat) (key : κ) : Seen κ × Bool :=
  match seen key with
  | some prev => if now - prev < ttl then (seen, false) else (Function.update seen key (some now), true)
  | none => (Function.update seen key (some now), true)

end Daimon.Triage
