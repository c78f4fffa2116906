import Mathlib.Data.List.Perm.Basic
import Daimon.App.AlertRouter
import Daimon.Lib.Serde

/-!
# Alerts of a flapping metric

The router tells alerts apart by a signature, and the observer puts the id of a new row there for every breach. So no
anomaly is ever suppressed: an alert is routed for each one that reaches the router.
-/

namespace Daimon.Proof.AlertRouter
open Daimon.Core Daimon.App.AlertRouter Daimon.Observer Lib
open Daimon.Driver (presentFields)

variable {uuids : UuidText} {floats : Floats}

theorem hyphenated_injective (uuids : UuidText) : Function.Injective Uuid.hyphenated := by
  intro a b same
  have parsed := uuids.round_trip a
  rw [same, uuids.round_trip b] at parsed
  exact (Option.some.inj parsed).symm

/-! ## What the observer sends -/

theorem lookup_toValue (a : AnomalyDetected) (key : String) :
    a.toValue.get? key = (([("anomaly_id", Json.string a.anomalyId.hyphenated), ("source", .string a.source),
      ("source_id", .string a.sourceId), ("severity", .string a.severity), ("title", .string a.title),
      ("metric_name", .string a.metricName), ("metric_value", a.metricValue.toValue),
      ("threshold", a.threshold.toValue), ("query", .string a.query)] ++
      (a.targetRef.map fun target => ("target_ref", Json.string target)).toList).lookup key) := by
  cases target : a.targetRef with
  | none =>
      simp only [AnomalyDetected.toValue, presentFields, target, List.filterMap_cons, Option.map_some, Option.map_none,
        List.filterMap_nil]
      rw [Json.get?_ofFields (by simp)]
      rfl
  | some target =>
      simp only [AnomalyDetected.toValue, presentFields, target, List.filterMap_cons, Option.map_some,
        List.filterMap_nil]
      rw [Json.get?_ofFields (by simp)]
      rfl

theorem decodeF64_toValue {v v' : F64} (decoded : AnomalyDetected.decodeF64 floats v.toValue = some v') : v' = v := by
  cases v with
  | finite q => exact (Option.some.inj decoded).symm
  | infinite | nan => cases decoded

theorem structFields_toValue (a : AnomalyDetected) :
    Driver.NetworkResponse.structFields AnomalyDetected.fields a.toValue =
      some [some (.string a.anomalyId.hyphenated), some (.string a.source), some (.string a.sourceId),
        some (.string a.severity), some (.string a.title), some (.string a.metricName), some a.metricValue.toValue,
        some a.threshold.toValue, some (.string a.query), a.targetRef.map .string] := by
  have found : Driver.NetworkResponse.structFields AnomalyDetected.fields a.toValue =
      some (AnomalyDetected.fields.map a.toValue.get?) := rfl
  rw [found]
  cases target : a.targetRef <;> simp [AnomalyDetected.fields, lookup_toValue, target, List.lookup_cons]

theorem fromValue_toValue {a a' : AnomalyDetected}
    (decoded : AnomalyDetected.fromValue uuids floats a.toValue = some a') : a' = a := by
  have target : Driver.NetworkResponse.decodeOptional Json.asStr? (a.targetRef.map .string) = some a.targetRef := by
    cases a.targetRef <;> rfl
  simp only [AnomalyDetected.fromValue, structFields_toValue, Option.bind_some, Json.asStr?, uuids.round_trip, target,
    Option.bind_eq_bind, Option.bind_eq_some_iff, Option.pure_def, Option.some.injEq] at decoded
  obtain ⟨value, first, threshold, second, rfl⟩ := decoded
  rw [decodeF64_toValue first, decodeF64_toValue second]

theorem classifyApproval_toValue (a : AnomalyDetected) : classifyApproval a.toValue = none := by
  have absent : a.toValue.get? "kind" = none := by
    rw [lookup_toValue]
    cases a.targetRef <;> simp [List.lookup_cons]
  obtain ⟨fields, object⟩ : ∃ fields, a.toValue = .object fields := ⟨_, rfl⟩
  rw [object] at absent ⊢
  simp [classifyApproval, absent]

/-! ## Signatures -/

variable (uuids floats) in
def busIds (bus : List Json) : List Uuid :=
  bus.filterMap fun body => (AnomalyDetected.fromValue uuids floats body).map (·.anomalyId)

theorem busIds_append (first second : List Json) :
    busIds uuids floats (first ++ second) = busIds uuids floats first ++ busIds uuids floats second :=
  List.filterMap_append

theorem busIds_sent (raised : List (Breach × Raise)) :
    List.Sublist (busIds uuids floats (raised.filterMap fun r => raiseAnomaly r.1 r.2))
      ((raised.filter fun r => r.2.stored).map fun r => r.2.id) := by
  induction raised with
  | nil => exact .slnil
  | cons r rest ih =>
      by_cases stored : r.2.stored = true
      · by_cases sent : r.2.sent = true
        · have raise : raiseAnomaly r.1 r.2 = some (r.1.event r.2.id).toValue := by simp [raiseAnomaly, stored, sent]
          simp only [List.filterMap_cons, raise, List.filter_cons, stored, if_true, List.map_cons]
          cases decoded : AnomalyDetected.fromValue uuids floats (r.1.event r.2.id).toValue with
          | none => simpa [busIds, decoded] using ih.trans (List.sublist_cons_self _ _)
          | some a =>
              have same : a.anomalyId = r.2.id := by rw [fromValue_toValue decoded]; rfl
              simpa [busIds, decoded, same] using ih
        · have raise : raiseAnomaly r.1 r.2 = none := by simp [raiseAnomaly, sent]
          simp only [List.filterMap_cons, raise, List.filter_cons, stored, if_true, List.map_cons]
          exact ih.trans (List.sublist_cons_self _ _)
      · have raise : raiseAnomaly r.1 r.2 = none := by simp [raiseAnomaly, stored]
        simpa [raise, List.filter_cons, stored] using ih

theorem mem_sent {polled : List (NamedQuery × Option (List InstantSample))} {raises : List Raise} {body : Json}
    (member : body ∈ (runOnce polled raises).2) : ∃ a : AnomalyDetected, body = a.toValue := by
  obtain ⟨r, -, raised⟩ := List.mem_filterMap.mp member
  unfold raiseAnomaly at raised
  split at raised
  · exact ⟨_, (Option.some.inj raised).symm⟩
  · cases raised

variable (uuids floats) in
structure Inv (w : World) : Prop where
  distinct : (busIds uuids floats w.bus).Nodup
  stored : ∀ id ∈ busIds uuids floats w.bus, id ∈ w.rows
  unseen : ∀ id ∈ busIds uuids floats w.bus, id.hyphenated ∉ w.seen.map Prod.fst
  known : ∀ sig ∈ w.seen.map Prod.fst, sig ∈ w.approvals ∨ sig ∈ w.rows.map Uuid.hyphenated
  apart : ∀ sig ∈ w.approvals, sig ∉ w.rows.map Uuid.hyphenated
  announced : ∀ body ∈ w.bus, ∀ alert, AnomalyDetected.fromValue uuids floats body = none →
    classifyApproval body = some alert → alert.signature ∈ w.approvals
  routed : ∀ r ∈ w.log, (AnomalyDetected.fromValue uuids floats r.body).isSome → r.routed = true

theorem inv_new : Inv uuids floats World.new := by
  constructor <;> simp [World.new, busIds]

variable {w w' : World}

theorem inv_cycle {polled : List (NamedQuery × Option (List InstantSample))} {raises : List Raise}
    (inv : Inv uuids floats w) (taken : step uuids floats w (.cycle polled raises) = some w') :
    Inv uuids floats w' := by
  simp only [step] at taken
  split at taken
  · rename_i isFresh
    obtain rfl := Option.some.inj taken
    simp only [fresh, Bool.and_eq_true, decide_eq_true_eq, List.all_eq_true] at isFresh
    obtain ⟨nodup, new⟩ := isFresh
    have ids := @busIds_sent uuids floats ((breaches polled).zip raises)
    have newIds : ∀ id ∈ busIds uuids floats (runOnce polled raises).2, id ∉ w.rows ∧ id.hyphenated ∉ w.approvals ∧
        id ∈ (runOnce polled raises).1 := by
      intro id member
      have listed := ids.subset member
      exact ⟨(new id listed).1, (new id listed).2, listed⟩
    refine ⟨?_, ?_, ?_, ?_, ?_, ?_, inv.routed⟩
    · rw [busIds_append]
      refine List.nodup_append.mpr ⟨inv.distinct, nodup.sublist ids, ?_⟩
      rintro id old _ member rfl
      exact (newIds id member).1 (inv.stored id old)
    · intro id member
      rw [busIds_append] at member
      rcases List.mem_append.mp member with old | member
      · exact List.mem_append_left _ (inv.stored id old)
      · exact List.mem_append_right _ (newIds id member).2.2
    · intro id member
      rw [busIds_append] at member
      rcases List.mem_append.mp member with old | member
      · exact inv.unseen id old
      · intro seen
        obtain ⟨row, approval, -⟩ := newIds id member
        rcases inv.known _ seen with announced | stored
        · exact approval announced
        · obtain ⟨other, listed, same⟩ := List.mem_map.mp stored
          exact row (hyphenated_injective uuids same ▸ listed)
    · intro sig seen
      rcases inv.known sig seen with announced | stored
      · exact .inl announced
      · exact .inr (by rw [List.map_append]; exact List.mem_append_left _ stored)
    · intro sig announced stored
      rw [List.map_append] at stored
      rcases List.mem_append.mp stored with old | added
      · exact inv.apart sig announced old
      · obtain ⟨id, listed, rfl⟩ := List.mem_map.mp added
        exact (new id listed).2 announced
    · intro body member alert other approval
      rcases List.mem_append.mp member with old | sent
      · exact inv.announced body old alert other approval
      · obtain ⟨a, rfl⟩ := mem_sent sent
        rw [classifyApproval_toValue] at approval
        cases approval
  · cases taken

theorem inv_announce {body : Json} (inv : Inv uuids floats w)
    (taken : step uuids floats w (.announce body) = some w') : Inv uuids floats w' := by
  simp only [step] at taken
  split at taken
  · rename_i other
    have same : busIds uuids floats (w.bus ++ [body]) = busIds uuids floats w.bus := by
      rw [busIds_append]
      simp [busIds, other]
    have distinct := same ▸ inv.distinct
    have stored := same ▸ inv.stored
    have unseen := same ▸ inv.unseen
    split at taken
    · rename_i quiet
      obtain rfl := Option.some.inj taken
      refine ⟨distinct, stored, unseen, inv.known, inv.apart, fun body' member alert other' approval => ?_, inv.routed⟩
      rcases List.mem_append.mp member with old | new
      · exact inv.announced body' old alert other' approval
      · obtain rfl := List.mem_singleton.mp new
        rw [quiet] at approval
        cases approval
    · rename_i alert found
      split at taken
      · cases taken
      · rename_i foreign
        obtain rfl := Option.some.inj taken
        refine ⟨distinct, stored, unseen, fun sig seen => ?_, fun sig member => ?_,
          fun body' member alert' other' approval => ?_, inv.routed⟩
        · rcases inv.known sig seen with announced | row
          · exact .inl (List.mem_cons_of_mem _ announced)
          · exact .inr row
        · rcases List.mem_cons.mp member with rfl | old
          · exact foreign
          · exact inv.apart sig old
        · rcases List.mem_append.mp member with old | new
          · exact List.mem_cons_of_mem _ (inv.announced body' old alert' other' approval)
          · obtain rfl := List.mem_singleton.mp new
            obtain rfl := Option.some.inj (found.symm.trans approval)
            exact List.mem_cons_self
  · cases taken

theorem Inv.shrink {bus : List Json} {clock : Nat} (inv : Inv uuids floats w) (smaller : bus.Sublist w.bus) :
    Inv uuids floats { w with bus, clock } := by
  have ids : List.Sublist (busIds uuids floats bus) (busIds uuids floats w.bus) := smaller.filterMap _
  exact ⟨inv.distinct.sublist ids, fun id member => inv.stored id (ids.subset member),
    fun id member => inv.unseen id (ids.subset member), inv.known, inv.apart,
    fun body member => inv.announced body (smaller.subset member), inv.routed⟩

theorem admitSignature_unseen {seen : DedupCache} {sig : String} (unseen : sig ∉ seen.map Prod.fst) (now : Nat) :
    (seen.admitSignature now sig).2 = true := by
  have absent : (seen.filter fun entry => now - entry.2 < dedupTtl).lookup sig = none := by
    rw [List.lookup_eq_none_iff]
    intro entry member
    rw [bne_iff_ne]
    rintro rfl
    exact unseen (List.mem_map_of_mem (List.mem_of_mem_filter member))
  simp only [DedupCache.admitSignature, absent]

theorem mem_admitSignature {seen : DedupCache} {now : Nat} {sig s : String}
    (member : s ∈ (seen.admitSignature now sig).1.map Prod.fst) :
    s = sig ∨ s ∈ seen.map Prod.fst := by
  have kept : s ∈ (seen.filter fun entry => now - entry.2 < dedupTtl).map Prod.fst → s ∈ seen.map Prod.fst :=
    fun kept => (List.filter_sublist.map _).subset kept
  unfold DedupCache.admitSignature at member
  dsimp only at member
  split at member
  · split at member
    · exact .inr (kept member)
    · exact (List.mem_cons.mp member).imp_right kept
  · exact (List.mem_cons.mp member).imp_right kept

/-- The router has not seen the signature of an anomaly that is still on its way. -/
theorem inv_receive {i now : Nat} (inv : Inv uuids floats w)
    (taken : step uuids floats w (.receive i now) = some w') : Inv uuids floats w' := by
  simp only [step] at taken
  split at taken
  · rename_i body found
    split at taken
    · obtain rfl := Option.some.inj taken
      have smaller := @Inv.shrink uuids floats w (w.bus.eraseIdx i) now inv (List.eraseIdx_sublist _ _)
      have arrived : body ∈ w.bus := List.mem_of_getElem? found
      unfold receive classify
      cases decoded : AnomalyDetected.fromValue uuids floats body with
      | some a =>
          have perm : (busIds uuids floats w.bus).Perm (a.anomalyId :: busIds uuids floats (w.bus.eraseIdx i)) := by
            obtain ⟨bound, rfl⟩ := List.getElem?_eq_some_iff.mp found
            have moved := ((List.getElem_cons_eraseIdx_perm bound).filterMap fun body =>
              (AnomalyDetected.fromValue uuids floats body).map (·.anomalyId)).symm
            simpa [busIds, decoded] using moved
          have apart := (List.nodup_cons.mp (perm.nodup_iff.mp inv.distinct)).1
          have here : a.anomalyId ∈ busIds uuids floats w.bus := perm.mem_iff.mpr List.mem_cons_self
          refine ⟨smaller.distinct, smaller.stored, fun id member seen => ?_, fun sig seen => ?_, inv.apart,
            smaller.announced, fun r member anomaly => ?_⟩
          · rcases mem_admitSignature seen with same | old
            · exact apart (hyphenated_injective uuids same ▸ member)
            · exact smaller.unseen id member old
          · rcases mem_admitSignature seen with rfl | old
            · exact .inr (List.mem_map_of_mem (inv.stored _ here))
            · exact inv.known sig old
          · rcases List.mem_cons.mp member with rfl | old
            · exact admitSignature_unseen (inv.unseen _ here) now
            · exact inv.routed r old anomaly
      | none =>
          dsimp only
          cases approval : classifyApproval body with
          | none => exact smaller
          | some alert =>
              have announced := inv.announced body arrived alert decoded approval
              refine ⟨smaller.distinct, smaller.stored, fun id member seen => ?_, fun sig seen => ?_, inv.apart,
                smaller.announced, fun r member anomaly => ?_⟩
              · rcases mem_admitSignature seen with same | old
                · exact inv.apart _ announced (same ▸ List.mem_map_of_mem (smaller.stored id member))
                · exact smaller.unseen id member old
              · rcases mem_admitSignature seen with rfl | old
                · exact .inl announced
                · exact inv.known sig old
              · rcases List.mem_cons.mp member with rfl | old
                · simp [decoded] at anomaly
                · exact inv.routed r old anomaly
    · cases taken
  · cases taken

theorem inv_step {label : Label} (inv : Inv uuids floats w) (taken : step uuids floats w label = some w') :
    Inv uuids floats w' := by
  cases label with
  | cycle polled raises => exact inv_cycle inv taken
  | announce body => exact inv_announce inv taken
  | receive i now => exact inv_receive inv taken
  | lag i =>
      simp only [step] at taken
      split at taken
      · obtain rfl := Option.some.inj taken
        exact inv.shrink (List.eraseIdx_sublist _ _)
      · cases taken

/-! ## Alerts of one metric -/

variable (uuids floats) in
def metricOf (body : Json) : Option (String × String) :=
  (AnomalyDetected.fromValue uuids floats body).map fun a => (a.sourceId, a.metricName)

variable (uuids floats) in
def receivedAt (w : World) (metric : String × String) : List Nat :=
  (w.log.filter fun r => metricOf uuids floats r.body = some metric).map (·.now)

variable (uuids floats) in
def routedAt (w : World) (metric : String × String) : List Nat :=
  (w.log.filter fun r => r.routed && metricOf uuids floats r.body = some metric).map (·.now)

/-- The times are `dedupTtl` apart, the latest first. -/
def Spaced (times : List Nat) : Prop := times.Pairwise fun later earlier => earlier + dedupTtl ≤ later

theorem routedAt_eq_receivedAt (inv : Inv uuids floats w) (metric : String × String) :
    routedAt uuids floats w metric = receivedAt uuids floats w metric := by
  refine congrArg (List.map _) (List.filter_congr fun r member => ?_)
  by_cases reports : metricOf uuids floats r.body = some metric
  · obtain ⟨a, decoded, -⟩ := Option.map_eq_some_iff.mp reports
    simp [reports, inv.routed r member (by simp [decoded])]
  · simp [reports]

/-- In every run, at most one alert of a metric is routed in any span of `dedupTtl` exactly if at most one of its
anomalies reaches the router in such a span. -/
theorem one_alert_iff {labels : List Label} (reached : run (step uuids floats) World.new labels = some w) :
    (∀ metric, Spaced (routedAt uuids floats w metric)) ↔ ∀ metric, Spaced (receivedAt uuids floats w metric) := by
  have inv : Inv uuids floats w := invariant_of_run (fun _ _ _ inv taken => inv_step inv taken) inv_new reached
  simp only [routedAt_eq_receivedAt inv]

instance (times : List Nat) : Decidable (Spaced times) := inferInstanceAs (Decidable (List.Pairwise _ times))

def cpuQuery : NamedQuery :=
  { name := "node_cpu_saturation", promql := "cpu", source := "prometheus", sourceIdLabel := some "instance",
    metricName := "node.cpu.saturation_pct"
    thresholds := [⟨.gt, .finite 90, "warning", "CPU saturation > 90%"⟩] }

def wholeFloats : Floats := ⟨fun n => n, fun q => toString q.num⟩

def hot (id : Uuid) : Label :=
  .cycle [(cpuQuery, some [⟨.object [("instance", .string "node-1")], .finite 95⟩])] [⟨id, true, true⟩]

def seconds (n : Nat) : Nat := n * 1000000000

theorem one_breach_one_alert :
    ∃ w, run (step .hex wholeFloats) World.new [hot 1, .receive 0 (seconds 30)] = some w ∧
      routedAt .hex wholeFloats w ("node-1", "node.cpu.saturation_pct") = [seconds 30] ∧
      ((∀ metric, Spaced (routedAt .hex wholeFloats w metric)) ↔
        ∀ metric, Spaced (receivedAt .hex wholeFloats w metric)) := by
  have ran : ((run (step .hex wholeFloats) World.new [hot 1, .receive 0 (seconds 30)]).any fun w =>
      decide (routedAt .hex wholeFloats w ("node-1", "node.cpu.saturation_pct") = [seconds 30])) = true := by
    decide +kernel
  obtain ⟨w, reached, once⟩ := (Option.any_eq_true _ _).mp ran
  exact ⟨w, reached, of_decide_eq_true once, one_alert_iff reached⟩

/-- The metric is above its bound in two cycles, and two alerts are routed within half a minute. -/
theorem flapping_alerts_twice :
    ∃ w, run (step .hex wholeFloats) World.new
        [hot 1, .receive 0 (seconds 30), hot 2, .receive 0 (seconds 60)] = some w ∧
      routedAt .hex wholeFloats w ("node-1", "node.cpu.saturation_pct") = [seconds 60, seconds 30] ∧
      ¬ Spaced (routedAt .hex wholeFloats w ("node-1", "node.cpu.saturation_pct")) := by
  have ran : ((run (step .hex wholeFloats) World.new
      [hot 1, .receive 0 (seconds 30), hot 2, .receive 0 (seconds 60)]).any fun w =>
      decide (routedAt .hex wholeFloats w ("node-1", "node.cpu.saturation_pct") = [seconds 60, seconds 30])) = true := by
    decide +kernel
  obtain ⟨w, reached, twice⟩ := (Option.any_eq_true _ _).mp ran
  have twice := of_decide_eq_true twice
  exact ⟨w, reached, twice, by rw [twice]; decide +kernel⟩

end Daimon.Proof.AlertRouter
