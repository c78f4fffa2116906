import Daimon.Lib.Lists
import Daimon.Proof.Audit.Writer

/-!
# Rows from before the migration

V008 chained the rows of each tenant for themselves. V020 changed the trigger, not the rows: `verify` walks them as one
chain, which they are when they all belong to one tenant.
-/

namespace Daimon.Proof.Audit
open Daimon.Core Daimon.Audit Lib

variable {sha256 : Bytes → Digest} {old : List (Uuid × NewRow)}

def insertedUnderV008 (sha256 : Bytes → Digest) (old : List (Uuid × NewRow)) : List V008.TenantEvent :=
  old.foldl (fun table row => V008.insert sha256 table row.1 row.2) []

/-- Inserts under the trigger of V008, the migrations, and inserts under the trigger of V020. -/
def migrated (sha256 : Bytes → Digest) (old : List (Uuid × NewRow)) (new : List NewRow) : List Event :=
  new.foldl (V020.insert sha256) (V019.migrate (insertedUnderV008 sha256 old))

def triggerInputs (table : List Event) : List (Bytes × Bytes) :=
  table.map fun r => (utf8 r.canonicalText, r.prevHash.getD genesisPrevHash.val)

theorem insertedUnderV008_snoc (old : List (Uuid × NewRow)) (row : Uuid × NewRow) :
    insertedUnderV008 sha256 (old ++ [row]) = insertedUnderV008 sha256 old ++
      [V008.computeRowHash sha256 (insertedUnderV008 sha256 old) row.1 row.2] := by
  rw [insertedUnderV008, List.foldl_append]
  rfl

theorem insertedUnderV008_rows (sha256 : Bytes → Digest) (old : List (Uuid × NewRow)) :
    (insertedUnderV008 sha256 old).map (fun r => (r.tenantId, r.event.toNewRow)) = old := by
  induction old using List.reverseRecOn with
  | nil => rfl
  | append_singleton old row ih =>
      rw [insertedUnderV008_snoc, List.map_append, ih]
      rfl

theorem tenants_of_inserted {r : V008.TenantEvent} (member : r ∈ insertedUnderV008 sha256 old) :
    ∃ row ∈ old, row.1 = r.tenantId := by
  have found := List.mem_map_of_mem (f := fun r => (r.tenantId, r.event.toNewRow)) member
  rw [insertedUnderV008_rows] at found
  exact ⟨_, found, rfl⟩

theorem migrate_rows (sha256 : Bytes → Digest) (old : List (Uuid × NewRow)) :
    (V019.migrate (insertedUnderV008 sha256 old)).map Event.toNewRow = old.map Prod.snd := by
  conv_rhs => rw [← insertedUnderV008_rows sha256 old]
  simp [V019.migrate, Function.comp_def]

theorem insertAll_rows (table : List Event) (new : List NewRow) :
    (new.foldl (V020.insert sha256) table).map Event.toNewRow = table.map Event.toNewRow ++ new := by
  induction new generalizing table with
  | nil => simp
  | cons row new ih =>
      rw [List.foldl_cons, ih]
      simp [V020.insert, V020.computeRowHash, NewRow.chain]

theorem insertAll_grows (table : List Event) (new : List NewRow) : table <+: new.foldl (V020.insert sha256) table := by
  induction new generalizing table with
  | nil => exact List.prefix_rfl
  | cons row new ih => exact (List.prefix_append _ _).trans (ih _)

theorem ordered_of_rows {table : List Event} {rows : List NewRow} (same : table.map Event.toNewRow = rows)
    (increasing : rows.Pairwise fun a b => a.ts < b.ts) : Ordered table := by
  rw [← same, List.pairwise_map] at increasing
  exact increasing.imp Or.inl

/-! ## Timestamps -/

def Written (sha256 : Bytes → Digest) (table : List Event) : Prop :=
  ∀ r ∈ table, ∃ (new : NewRow) (prev : Option Bytes), r = new.chain sha256 prev

theorem written_migrated (old : List (Uuid × NewRow)) (new : List NewRow) : Written sha256 (migrated sha256 old new) := by
  have before : Written sha256 (V019.migrate (insertedUnderV008 sha256 old)) := by
    induction old using List.reverseRecOn with
    | nil => simp [Written, insertedUnderV008, V019.migrate]
    | append_singleton old row ih =>
        intro r member
        rw [insertedUnderV008_snoc, V019.migrate, List.map_append] at member
        rcases List.mem_append.mp member with kept | inserted
        · exact ih r kept
        · exact ⟨_, _, List.mem_singleton.mp inserted⟩
  unfold migrated
  generalize V019.migrate (insertedUnderV008 sha256 old) = table at before
  induction new generalizing table with
  | nil => exact before
  | cons row new ih =>
      refine ih _ fun r member => ?_
      rcases List.mem_append.mp member with kept | inserted
      · exact before r kept
      · exact ⟨_, _, List.mem_singleton.mp inserted⟩

/-- Where the two texts of a row differ, its hash is not the one that `verify` computes. -/
theorem inCalendar_of_chained {table : List Event} (written : Written sha256 table)
    (chained : RowsChained sha256 table)
    (sound : RowHashSound sha256 (rowInputs table ++ triggerInputs table)) {r : Event} (member : r ∈ table) :
    InCalendar r.ts := by
  obtain ⟨before, input, digest⟩ := chained.hashed (List.mem_map_of_mem (f := link) member)
  have hashed : (utf8 r.canonicalText, r.prevHash.getD genesisPrevHash.val) ∈ triggerInputs table :=
    List.mem_map_of_mem member
  have stored : (link r).digest =
      rowHashOf sha256 (utf8 r.canonicalText) (r.prevHash.getD genesisPrevHash.val) := by
    obtain ⟨new, prev, rfl⟩ := written r member
    rfl
  have same := sound.collisionFree _ (List.mem_append_left _ input) _ (List.mem_append_right _ hashed)
    (digest.symm.trans stored)
  exact (canonicalize_eq_iff r.toNewRow).mp (Prod.mk.inj same).1

/-! ## One tenant -/

theorem intact_of_one_tenant {tenant : Uuid} (inside : ∀ row ∈ old, InCalendar row.2.ts)
    (increasing : (old.map Prod.snd).Pairwise fun a b => a.ts < b.ts) (one : ∀ row ∈ old, row.1 = tenant) :
    Intact sha256 (V019.migrate (insertedUnderV008 sha256 old)) := by
  induction old using List.reverseRecOn with
  | nil => exact Intact.empty
  | append_singleton old row ih =>
      rw [List.map_append, List.pairwise_append] at increasing
      have before := ih (fun r member => inside r (List.mem_append_left _ member)) increasing.1
        (fun r member => one r (List.mem_append_left _ member))
      have everyRow : (insertedUnderV008 sha256 old).filter (fun r => r.tenantId == row.1) =
          insertedUnderV008 sha256 old := by
        refine List.filter_eq_self.mpr fun r member => ?_
        obtain ⟨other, inOld, same⟩ := tenants_of_inserted member
        rw [← same, one other (List.mem_append_left _ inOld), one row (by simp), beq_self_eq_true]
      have asGlobal : V019.migrate (insertedUnderV008 sha256 (old ++ [row])) =
          V020.insert sha256 (V019.migrate (insertedUnderV008 sha256 old)) row.2 := by
        rw [insertedUnderV008_snoc, V019.migrate, List.map_append, V008.computeRowHash, everyRow]
        rfl
      rw [asGlobal]
      refine before.insert (inside row (by simp)) fun r member => Or.inl ?_
      have stored := List.mem_map_of_mem (f := Event.toNewRow) member
      rw [migrate_rows] at stored
      exact increasing.2.2 _ stored _ (by simp)

/-! ## More than one -/

theorem first_of_chain {front : List Event} {new : NewRow} (inside : InCalendar new.ts)
    (chained : RowsChained sha256 (front ++ [new.chain sha256 none]))
    (sound : RowHashSound sha256 (rowInputs (front ++ [new.chain sha256 none]) ++
      triggerInputs (front ++ [new.chain sha256 none]))) : front = [] := by
  obtain ⟨frontChained, hashes⟩ := (rowsChained_snoc inside none).mp chained
  have own : utf8 new.canonicalText = payload (new.chain sha256 none) := (canonicalize_eq inside).symm
  rw [own, Option.getD_none] at hashes
  have scanned := mem_hashInputs_last genesisPrevHash.val (front.map link) (link (new.chain sha256 none))
  have hashed : (payload (new.chain sha256 none), genesisPrevHash.val) ∈
      triggerInputs (front ++ [new.chain sha256 none]) := by
    rw [← own]
    simp [triggerInputs, NewRow.chain]
  rw [← List.map_singleton, ← List.map_append] at scanned
  have inputs := sound.collisionFree _ (List.mem_append_right _ hashed) _ (List.mem_append_left _ scanned) hashes
  have genesis := (Prod.mk.inj inputs).2
  rcases front.eq_nil_or_concat' with rfl | ⟨front, last, rfl⟩
  · rfl
  · rw [List.map_append, List.map_singleton, headDigest_snoc] at genesis
    have before := List.prefix_append (front ++ [last]) [new.chain sha256 none]
    have soundFront := sound.left.mono (hashInputs_subset (before.map link))
    rw [RowsChained, List.map_append, List.map_singleton] at frontChained
    rw [List.map_append, List.map_singleton] at soundFront
    exact absurd genesis.symm (headDigest_ne_genesis frontChained soundFront)

theorem one_tenant_of_chained (inside : ∀ row ∈ old, InCalendar row.2.ts)
    (chained : RowsChained sha256 (V019.migrate (insertedUnderV008 sha256 old)))
    (sound : RowHashSound sha256 (rowInputs (V019.migrate (insertedUnderV008 sha256 old)) ++
      triggerInputs (V019.migrate (insertedUnderV008 sha256 old)))) :
    ∀ a ∈ old, ∀ b ∈ old, a.1 = b.1 := by
  induction old using List.reverseRecOn with
  | nil => simp
  | append_singleton old row ih =>
      have split : V019.migrate (insertedUnderV008 sha256 (old ++ [row])) =
          V019.migrate (insertedUnderV008 sha256 old) ++
            [(V008.computeRowHash sha256 (insertedUnderV008 sha256 old) row.1 row.2).event] := by
        rw [insertedUnderV008_snoc, V019.migrate, List.map_append]
        rfl
      rw [split] at chained sound
      have same := ih (fun r member => inside r (List.mem_append_left _ member))
        ((rowsChained_snoc (inside row (by simp)) _).mp chained).1
        (sound.shorten ((List.prefix_append _ _).map link) ((List.prefix_append _ _).map _).subset)
      have known : old = [] ∨ ∃ a ∈ old, a.1 = row.1 := by
        by_contra unknown
        obtain ⟨nonempty, others⟩ := not_or.mp unknown
        have none : (insertedUnderV008 sha256 old).filter (fun r => r.tenantId == row.1) = [] := by
          refine List.filter_eq_nil_iff.mpr fun r member => ?_
          obtain ⟨other, inOld, tenant⟩ := tenants_of_inserted member
          rw [beq_iff_eq, ← tenant]
          exact fun own => others ⟨other, inOld, own⟩
        rw [V008.computeRowHash, none] at chained sound
        have empty := first_of_chain (inside row (by simp)) chained sound
        have length := congrArg List.length (migrate_rows sha256 old)
        rw [empty] at length
        exact nonempty (List.length_eq_zero_iff.mp (by simpa using length.symm))
      intro a inA b inB
      rcases known with rfl | ⟨c, inOld, tenant⟩
      · simp at inA inB
        rw [inA, inB]
      · rcases (mem_snoc).mp inA with oldA | rfl <;> rcases (mem_snoc).mp inB with oldB | rfl
        · exact same a oldA b oldB
        · exact (same a oldA c inOld).trans tenant
        · exact tenant.symm.trans (same c inOld b oldB)
        · rfl

/-! ## The migrated table -/

/-- `verify` reports no break on the migrated table exactly when one tenant wrote all the rows before the
migration and all timestamps lie between the years 1 and 9999. -/
theorem migrated_verifies_iff (sha256 : Bytes → Digest) (old : List (Uuid × NewRow)) (new : List NewRow)
    (increasing : (old.map Prod.snd ++ new).Pairwise fun a b => a.ts < b.ts)
    (sound : RowHashSound sha256 (rowInputs (migrated sha256 old new) ++ triggerInputs (migrated sha256 old new))) :
    verify sha256 (migrated sha256 old new) =
        .ok { rowsChecked := (migrated sha256 old new).length, breaks := [] } ↔
      (∀ a ∈ old, ∀ b ∈ old, a.1 = b.1) ∧ ∀ row ∈ old.map Prod.snd ++ new, InCalendar row.ts := by
  have rows : (migrated sha256 old new).map Event.toNewRow = old.map Prod.snd ++ new := by
    rw [migrated, insertAll_rows, migrate_rows]
  have ordered := ordered_of_rows rows increasing
  have insideOld (inside : ∀ row ∈ old.map Prod.snd ++ new, InCalendar row.ts) : ∀ row ∈ old, InCalendar row.2.ts :=
    fun row member => inside row.2 (List.mem_append_left _ (List.mem_map_of_mem member))
  have parts := List.pairwise_append.mp increasing
  constructor
  · intro verified
    rw [verify, ordered.scan_eq] at verified
    have chained := ((clean_iff).mp verified).2
    have inside : ∀ row ∈ old.map Prod.snd ++ new, InCalendar row.ts := by
      intro row member
      rw [← rows] at member
      obtain ⟨r, stored, rfl⟩ := List.mem_map.mp member
      exact inCalendar_of_chained (written_migrated old new) chained sound stored
    have front : V019.migrate (insertedUnderV008 sha256 old) <+: migrated sha256 old new := insertAll_grows _ _
    exact ⟨one_tenant_of_chained (insideOld inside) (chained.front (front.map link))
      (sound.shorten (front.map link) (front.map _).subset), inside⟩
  · rintro ⟨one, inside⟩
    have intact : Intact sha256 (V019.migrate (insertedUnderV008 sha256 old)) := by
      cases old with
      | nil => exact Intact.empty
      | cons first rest =>
          exact intact_of_one_tenant (insideOld inside) parts.1 fun row member => one row member first List.mem_cons_self
    refine (intact.insertAll (fun row member => inside row (List.mem_append_right _ member))
      (parts.2.1.imp Or.inl) fun row member r stored => Or.inl ?_).verify_eq
    have kept := List.mem_map_of_mem (f := Event.toNewRow) stored
    rw [migrate_rows] at kept
    exact parts.2.2 _ kept _ member

theorem migrated_firstRow (new : List NewRow) : migrated sampleSha256 [(1, firstRow)] new =
    new.foldl (V020.insert sampleSha256) [⟨firstRow, some genesisPrevHash.val, some firstDigest.val⟩] := by
  rw [← chain_firstRow]
  rfl

theorem migrated_sample : migrated sampleSha256 [(1, firstRow)] [secondRow] = sampleRows := by
  rw [migrated_firstRow, sampleRows, ← chain_secondRow]
  rfl

theorem triggerInputs_sampleRows : triggerInputs sampleRows = rowInputs sampleRows := by
  rw [rowInputs_sampleRows, canonicalize_eq firstRow_inside, canonicalize_eq secondRow_inside]
  rfl

theorem one_tenant_migrated : verify sampleSha256 (migrated sampleSha256 [(1, firstRow)] [secondRow]) =
    .ok { rowsChecked := 2, breaks := [] } := by
  have sound : RowHashSound sampleSha256 (rowInputs (migrated sampleSha256 [(1, firstRow)] [secondRow]) ++
      triggerInputs (migrated sampleSha256 [(1, firstRow)] [secondRow])) := by
    rw [migrated_sample, triggerInputs_sampleRows]
    exact sampleRows_sound.mono (List.append_subset.mpr ⟨List.Subset.refl _, List.Subset.refl _⟩)
  have inside : ∀ row ∈ [(1, firstRow)].map Prod.snd ++ [secondRow], InCalendar row.ts := by
    simp [firstRow_inside, secondRow_inside]
  have counted : (migrated sampleSha256 [(1, firstRow)] [secondRow]).length = 2 := by
    rw [migrated_sample]
    rfl
  rw [← counted]
  exact (migrated_verifies_iff sampleSha256 [(1, firstRow)] [secondRow] (by decide) sound).mpr
    ⟨by simp, inside⟩

/-- Two tenants wrote one row each: the second row is chained to genesis. -/
theorem two_tenants_false_alarm : ∃ report,
    verify sampleSha256 (migrated sampleSha256 [(1, firstRow), (2, secondRow)] []) = .ok report ∧
      report.breaks.length = 1 := by
  have table : migrated sampleSha256 [(1, firstRow), (2, secondRow)] [] =
      [firstRow.chain sampleSha256 none, secondRow.chain sampleSha256 none] := rfl
  have rows : [firstRow.chain sampleSha256 none, secondRow.chain sampleSha256 none].map Event.toNewRow =
      [firstRow, secondRow] := rfl
  have sorted := (ordered_of_rows rows (by decide)).scan_eq
  have readable : ∀ r ∈ scan [firstRow.chain sampleSha256 none, secondRow.chain sampleSha256 none], Readable r := by
    rw [sorted]
    simp [chain_readable firstRow_inside, chain_readable secondRow_inside]
  obtain ⟨report, verified, counted⟩ := @verify_misfits sampleSha256 _ readable
  have apart : secondDigest.val ≠ restartDigest.val := by decide
  have missing : misfits sampleSha256 genesisPrevHash.val (scan [firstRow.chain sampleSha256 none,
      secondRow.chain sampleSha256 none]) = [secondRow.chain sampleSha256 none] := by
    rw [sorted, chain_firstRow, chain_restart]
    simp only [misfits, payload, link, Option.getD_some, hash_firstRow, hash_secondRow, if_true, if_neg apart]
  rw [missing] at counted
  exact ⟨report, table ▸ verified, counted⟩

end Daimon.Proof.Audit
