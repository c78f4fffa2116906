import Daimon.Audit.PostgresSink

/-!
# An event from append to query

Everything of an event comes back but its latency, which the column keeps in 32 bits: the narrowing drops the upper
half, and the widening repeats the sign.
-/

namespace Daimon.Proof.Audit
open Daimon.Core Daimon.Audit Lib Lib.Like

/-! ## The codings of the columns -/

theorem action_round_trip (action : ActionKind) : ActionKind.fromStr action.asStr = action := by
  cases action <;> rfl

theorem result_round_trip (result : AuditResult) : AuditResult.fromStr result.asStr = result := by
  cases result <;> rfl

theorem metadata_round_trip (metadata : List (String × String)) :
    metadataFromValue (metadataValue metadata) = some metadata :=
  Json.mapM_strings metadata

/-- The integers that both casts leave alone: those of 31 bits, and those whose upper 33 bits are all set. -/
def Kept (n : UInt64) : Prop := n < 0x80000000 ∨ 0xffffffff80000000 ≤ n

instance : DecidablePred Kept := fun _ => inferInstanceAs (Decidable (_ ∨ _))

theorem narrowed (n : UInt64) : (asI32 n).toInt = ((n.toNat % 0x100000000 : Nat) : Int).bmod 0x100000000 := by
  have low : n.toUInt32.toBitVec.toNat = n.toNat % 0x100000000 := UInt64.toNat_toUInt32 n
  rw [← low]
  exact BitVec.toInt_eq_toNat_bmod n.toUInt32.toBitVec

theorem widened (n : Int32) : (asU64 n).toInt64.toInt = n.toInt :=
  Int32.toInt_toInt64 n

theorem latency_round_trip (n : UInt64) : asU64 (asI32 n) = n ↔ Kept n := by
  have whole : n.toInt64.toInt = (n.toNat : Int).bmod 0x10000000000000000 := BitVec.toInt_eq_toNat_bmod n.toBitVec
  have signed : asU64 (asI32 n) = n ↔ (asI32 n).toInt = n.toInt64.toInt := by
    rw [← widened, Int64.toInt_inj]
    exact ⟨congrArg UInt64.toInt64, fun same => by simpa using congrArg Int64.toUInt64 same⟩
  have bound : n.toNat < 0x10000000000000000 := n.toNat_lt
  rw [signed, narrowed, whole, Kept, UInt64.lt_iff_toNat_lt, UInt64.le_iff_toNat_le]
  simp only [UInt64.reduceToNat, Int.bmod_def]
  split_ifs <;> omega

/-! ## What a query returns of a row -/

structure Same (event : NewAuditEvent) (stored : AuditEvent) : Prop where
  actor : stored.actorId = event.actorId
  action : stored.action = event.action
  target : stored.targetRef = event.targetRef
  credential : stored.credentialRef = event.credentialRef
  summary : stored.opSummary = event.opSummary
  result : stored.result = event.result
  latency : stored.latencyMs = event.latencyMs
  metadata : stored.metadata = event.metadata

section Return
variable {fold : Folding} {dbError : String} {id : Uuid} {now : Timestamp} {event : NewAuditEvent} {row : EventRow}

theorem row_of_append (written : append dbError id now event = .ok row) : row = insertedRow id now event := by
  unfold append at written
  split at written
  · cases written
    rfl
  · cases written

theorem same_iff_latency (id : Uuid) (now : Timestamp) (event : NewAuditEvent) :
    Same event (rowToEvent (insertedRow id now event)) ↔ ∀ n ∈ event.latencyMs, Kept n := by
  have latency : (event.latencyMs.map asI32).map asU64 = event.latencyMs ↔ ∀ n ∈ event.latencyMs, Kept n := by
    cases event.latencyMs with
    | none => simp
    | some n => simp [latency_round_trip]
  constructor
  · intro same
    exact latency.mp same.latency
  · intro kept
    constructor
    · rfl
    · exact action_round_trip event.action
    · rfl
    · rfl
    · rfl
    · exact result_round_trip event.result
    · exact latency.mpr kept
    · exact congrArg (Option.getD · []) (metadata_round_trip event.metadata)

theorem found_of_select {s : Statement} {params : List Param} {table rows : List EventRow}
    (selected : s.select fold params table = some rows) (member : row ∈ rows) : row ∈ table := by
  have sorted : row ∈ (s.found fold params table).insertionSort EventRow.newer → row ∈ table := by
    intro among
    exact List.mem_of_mem_filter ((List.mem_insertionSort _).mp among)
  unfold Statement.select at selected
  split at selected
  · split at selected
    · simp only [Option.bind_eq_bind, Option.bind_eq_some_iff, Option.pure_def, Option.some.injEq] at selected
      obtain ⟨limit, _, offset, _, rfl⟩ := selected
      exact sorted (List.mem_of_mem_drop (List.mem_of_mem_take member))
    · cases selected
      exact sorted member
    · cases selected
  · cases selected

theorem row_of_query {table : List EventRow} {filter : AuditFilter} {limit offset : UInt32} {events : List AuditEvent}
    (asked : query fold dbError table filter limit offset = .ok events) {stored : AuditEvent} (member : stored ∈ events) :
    ∃ row ∈ table, rowToEvent row = stored := by
  simp only [query] at asked
  cases selected : (buildQuery filter (some (limit, offset))).1.select fold
      (buildQuery filter (some (limit, offset))).2 table with
  | none =>
      rw [selected] at asked
      cases asked
  | some rows =>
      rw [selected] at asked
      cases asked
      obtain ⟨row, among, back⟩ := List.mem_map.mp member
      exact ⟨row, found_of_select selected among, back⟩

/-- Every query on a table that holds the row returns of it what the event was. -/
def ComesBack (fold : Folding) (dbError : String) (event : NewAuditEvent) (row : EventRow) : Prop :=
  ∀ table filter limit offset events, (table.map EventRow.id).Nodup → row ∈ table →
    query fold dbError table filter limit offset = .ok events →
      ∀ stored ∈ events, stored.id = row.id → Same event stored

def everything : AuditFilter := ⟨none, none, none, none, none, none⟩

theorem query_single (row : EventRow) : query fold dbError [row] everything 1 0 = .ok [rowToEvent row] := rfl

theorem comes_back_iff_same : ComesBack fold dbError event row ↔ Same event (rowToEvent row) := by
  constructor
  · intro back
    exact back [row] everything 1 0 _ (List.nodup_singleton _) (List.mem_singleton_self _) (query_single row)
      (rowToEvent row) (List.mem_singleton_self _) rfl
  · intro same table filter limit offset events distinct stands asked stored member named
    obtain ⟨found, among, rfl⟩ := row_of_query asked member
    have equal : found = row := List.inj_on_of_nodup_map distinct among stands named
    rw [equal]
    exact same

/-- An event comes back unchanged exactly if its latency survives the two casts. -/
theorem stored_faithfully_iff (written : append dbError id now event = .ok row) :
    ComesBack fold dbError event row ↔ ∀ n ∈ event.latencyMs, Kept n := by
  rw [comes_back_iff_same, row_of_append written, same_iff_latency]

end Return

def slowEvent : NewAuditEvent where
  actorId := "admin"
  action := .brokerExecute
  targetRef := some "firewall://edge"
  credentialRef := none
  opSummary := none
  result := .success
  latencyMs := some 0x80000000
  metadata := []

def quickEvent : NewAuditEvent := { slowEvent with latencyMs := some 250 }

theorem quickEvent_iff :
    append "db error" 0 0 quickEvent = .ok (insertedRow 0 0 quickEvent) ∧
      (ComesBack asciiFolding "db error" quickEvent (insertedRow 0 0 quickEvent) ↔
        ∀ n ∈ quickEvent.latencyMs, Kept n) := by
  have written : append "db error" 0 0 quickEvent = .ok (insertedRow 0 0 quickEvent) := rfl
  exact ⟨written, stored_faithfully_iff written⟩

theorem slowEvent_changed :
    append "db error" 0 0 slowEvent = .ok (insertedRow 0 0 slowEvent) ∧
      query asciiFolding "db error" [insertedRow 0 0 slowEvent] everything 1 0 =
        .ok [rowToEvent (insertedRow 0 0 slowEvent)] ∧
      (rowToEvent (insertedRow 0 0 slowEvent)).latencyMs = some 0xffffffff80000000 ∧
      ¬ ComesBack asciiFolding "db error" slowEvent (insertedRow 0 0 slowEvent) := by
  have latency : (rowToEvent (insertedRow 0 0 slowEvent)).latencyMs = some 0xffffffff80000000 := by decide
  refine ⟨rfl, query_single _, latency, ?_⟩
  intro back
  have same := ((comes_back_iff_same).mp back).latency
  rw [latency] at same
  exact absurd same (by decide)

end Daimon.Proof.Audit
