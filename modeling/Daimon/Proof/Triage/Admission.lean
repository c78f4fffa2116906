import Daimon.App.AlertRouter
import Daimon.Lib.Lists
import Daimon.Triage.Admission

/-!
# One law for both caches
-/

namespace Daimon.Proof.Triage
open Daimon.App Daimon.Triage Lib Lib.Window

section Caches
variable {κ : Type} [DecidableEq κ] {ttl : Nat}

theorem dedupCache_eq (ttl : Nat) :
    (DedupCache.admitSignature ttl : Seen κ → Nat → κ → Seen κ × Bool) = admitVia ttl (DedupCache.evict ttl) := by
  funext seen now sig
  cases found : seen sig with
  | none =>
      have swept : DedupCache.evict ttl seen now sig = none := by simp [DedupCache.evict, found]
      simp [DedupCache.admitSignature, admitVia, isWarm, found, swept]
  | some t =>
      by_cases warm : now - t < ttl
      · have swept : DedupCache.evict ttl seen now sig = some t := by simp [DedupCache.evict, found, warm]
        simp [DedupCache.admitSignature, admitVia, isWarm, found, swept, warm]
      · have swept : DedupCache.evict ttl seen now sig = none := by
          simp [DedupCache.evict, found, Nat.le_of_not_lt warm]
        simp [DedupCache.admitSignature, admitVia, isWarm, found, swept, warm]

theorem triageAgent_eq (ttl : Nat) :
    (TriageAgent.admitMetric ttl : Seen κ → Nat → κ → Seen κ × Bool) = admitVia ttl fun seen _ => seen := by
  funext seen now key
  rw [TriageAgent.admitMetric, admitVia, isWarm]
  cases seen key with
  | none => simp
  | some prev => simp

omit [DecidableEq κ] in
theorem sweeps_evict (ttl : Nat) : Sweeps ttl (DedupCache.evict ttl : Seen κ → Nat → Seen κ) where
  old found := (Option.filter_eq_some_iff.mp found).1
  kept found past warm := Option.filter_eq_some_iff.mpr ⟨found, by simp; omega⟩

omit [DecidableEq κ] in
theorem sweeps_nothing (ttl : Nat) : Sweeps ttl fun (seen : Seen κ) (_ : Nat) => seen where
  old found := found
  kept found _ _ := found

/-- The calls of a process with their answers. -/
def dedupLog (ttl : Nat) (calls : List (Call κ)) : List (Call κ × Bool) :=
  logFrom (DedupCache.admitSignature ttl) (fun _ => none) calls

def triageLog (ttl : Nat) (calls : List (Call κ)) : List (Call κ × Bool) :=
  logFrom (TriageAgent.admitMetric ttl) (fun _ => none) calls

variable {calls : List (Call κ)}

theorem windowed_dedup (ordered : calls.Pairwise fun a b => a.time ≤ b.time) : Windowed ttl (dedupLog ttl calls) := by
  rw [dedupLog, dedupCache_eq]
  exact windowed_log (admits_via (sweeps_evict ttl)) ordered

theorem windowed_triage (ordered : calls.Pairwise fun a b => a.time ≤ b.time) : Windowed ttl (triageLog ttl calls) := by
  rw [triageLog, triageAgent_eq]
  exact windowed_log (admits_via (sweeps_nothing ttl)) ordered

theorem calls_dedup (ttl : Nat) (calls : List (Call κ)) : (dedupLog ttl calls).map Prod.fst = calls :=
  calls_logFrom _ calls

theorem calls_triage (ttl : Nat) (calls : List (Call κ)) : (triageLog ttl calls).map Prod.fst = calls :=
  calls_logFrom _ calls

/-- The answers with one suppressed call left out are the answers to the other calls. -/
theorem dedup_without {front back : List (Call κ × Bool)} {c : Call κ}
    (ordered : calls.Pairwise fun a b => a.time ≤ b.time) (split : dedupLog ttl calls = front ++ (c, false) :: back) :
    dedupLog ttl ((front ++ back).map Prod.fst) = front ++ back := by
  have law : Windowed ttl (dedupLog ttl calls) := windowed_dedup ordered
  rw [split] at law
  have whole : calls = (front ++ (c, false) :: back).map Prod.fst := by rw [← split, calls_dedup]
  have sub : ((front ++ back).map Prod.fst).Sublist calls := by
    rw [whole]
    exact ((List.Sublist.refl front).append (List.sublist_cons_self _ back)).map Prod.fst
  exact (windowed_dedup (ordered.sublist sub)).unique law.without (calls_dedup _ _)

theorem dedup_windows {κ : Type} [DecidableEq κ] (ttl : Nat) (calls : List (Call κ))
    (ordered : calls.Pairwise fun a b => a.time ≤ b.time) :
    (dedupLog ttl calls).map Prod.fst = calls ∧ Windowed ttl (dedupLog ttl calls) ∧
      triageLog ttl calls = dedupLog ttl calls ∧
      ((dedupLog ttl calls).Pairwise fun e e' =>
        e.2 = true → e'.2 = true → e.1.key = e'.1.key → e.1.time + ttl ≤ e'.1.time) ∧
      ∀ front c back, dedupLog ttl calls = front ++ (c, false) :: back →
        dedupLog ttl ((front ++ back).map Prod.fst) = front ++ back := by
  have law : Windowed ttl (dedupLog ttl calls) := windowed_dedup ordered
  refine ⟨calls_dedup ttl calls, law, ?_, law.apart, fun front c back => dedup_without ordered⟩
  apply (windowed_triage ordered).unique law
  rw [calls_triage, calls_dedup]

theorem second_call_suppressed :
    dedupLog 10 [⟨0, "cpu"⟩, ⟨9, "cpu"⟩, ⟨10, "cpu"⟩] =
        [(⟨0, "cpu"⟩, true), (⟨9, "cpu"⟩, false), (⟨10, "cpu"⟩, true)] ∧
      triageLog 10 [⟨0, "cpu"⟩, ⟨9, "cpu"⟩, ⟨10, "cpu"⟩] = dedupLog 10 [⟨0, "cpu"⟩, ⟨9, "cpu"⟩, ⟨10, "cpu"⟩] :=
  ⟨by decide, (dedup_windows 10 [⟨0, "cpu"⟩, ⟨9, "cpu"⟩, ⟨10, "cpu"⟩] (by decide)).2.2.1⟩

end Caches

/-! ## The cache of the alert router -/

section Router
variable {seen : AlertRouter.DedupCache} {now : Nat} {sig : String}

/-- The router's list of entries is the cache with the router's window. -/
theorem admitSignature_eq (once : (seen.map Prod.fst).Nodup) (now : Nat) (sig : String) :
    ((seen.admitSignature now sig).1.map Prod.fst).Nodup ∧
      (fun k => (seen.admitSignature now sig).1.lookup k, (seen.admitSignature now sig).2) =
        DedupCache.admitSignature AlertRouter.dedupTtl (fun k => seen.lookup k) now sig := by
  obtain ⟨kept, rest⟩ : ∃ kept, (seen.filter fun entry => now - entry.2 < AlertRouter.dedupTtl) = kept := ⟨_, rfl⟩
  have swept : DedupCache.evict AlertRouter.dedupTtl (fun k => seen.lookup k) now = fun k => kept.lookup k := by
    funext k
    rw [← rest]
    exact (@lookup_filter_value String Nat _ (fun t => now - t < AlertRouter.dedupTtl) seen once k).symm
  have once' : (kept.map Prod.fst).Nodup := rest ▸ once.sublist (List.filter_sublist.map Prod.fst)
  rw [AlertRouter.DedupCache.admitSignature, rest, DedupCache.admitSignature, swept]
  cases found : kept.lookup sig with
  | some t =>
      have warm : now - t < AlertRouter.dedupTtl := by
        have member := mem_of_lookup found
        rw [← rest] at member
        simpa using (List.mem_filter.mp member).2
      simp only [found, if_pos warm]
      exact ⟨once', trivial⟩
  | none =>
      have fresh : sig ∉ kept.map Prod.fst := by
        intro member
        obtain ⟨entry, inside, same⟩ := List.mem_map.mp member
        have absent := List.lookup_eq_none_iff.mp found entry inside
        simp [same] at absent
      simp only [found]
      refine ⟨List.nodup_cons.mpr ⟨fresh, once'⟩, ?_⟩
      have inserted : (fun k => List.lookup k ((sig, now) :: kept)) =
          Function.update (fun k => kept.lookup k) sig (some now) := by
        funext k
        rw [lookup_cons_ite, Function.update_apply]
      rw [inserted]

def signatureLog : AlertRouter.DedupCache → List (Call String) → List (Call String × Bool)
  | _, [] => []
  | seen, c :: rest =>
      (c, (seen.admitSignature c.time c.key).2) :: signatureLog (seen.admitSignature c.time c.key).1 rest

theorem signatureLog_eq (once : (seen.map Prod.fst).Nodup) (calls : List (Call String)) :
    signatureLog seen calls =
      logFrom (DedupCache.admitSignature AlertRouter.dedupTtl) (fun k => seen.lookup k) calls := by
  induction calls generalizing seen with
  | nil => rfl
  | cons c rest ih =>
      obtain ⟨once', step⟩ := admitSignature_eq once c.time c.key
      rw [signatureLog, logFrom, ← step, ih once']

theorem signatureLog_nil (calls : List (Call String)) :
    signatureLog [] calls = dedupLog AlertRouter.dedupTtl calls := signatureLog_eq (by simp) calls

end Router

end Daimon.Proof.Triage
