import Daimon.Lib.Lists
import Daimon.Proof.Audit.Writer

/-!
# What a change of the table shows

`verify` walks the rows alone: it reads no anchor, and of a row only the payload and the row hash. A row rewritten
in place shows unless both stay, or it is the last one and its hash was computed again; rows taken out show
unless they are the last ones.
-/

namespace Daimon.Proof.Audit
open Daimon.Audit Lib

variable {sha256 : Bytes → Digest} {table table' rest : List Event} {r r' : Event}

def PrimaryKey (table : List Event) : Prop := (table.map fun r => r.id).Nodup

def Noticed (sha256 : Bytes → Digest) (table : List Event) : Prop :=
  ∃ report, verify sha256 table = .ok report ∧ report.breaks ≠ []

/-! ## The scan -/

theorem scan_perm (table : List Event) : (scan table).Perm table := List.perm_insertionSort _ _

theorem scan_sorted (table : List Event) : (scan table).Pairwise fun a b => a.toNewRow.le b.toNewRow :=
  List.pairwise_insertionSort _ _

theorem PrimaryKey.perm (key : PrimaryKey table) (perm : table.Perm table') : PrimaryKey table' :=
  (perm.map _).nodup_iff.mp key

theorem PrimaryKey.eq_of_le (key : PrimaryKey table) {a b : Event} (inA : a ∈ table) (inB : b ∈ table)
    (ab : a.toNewRow.le b.toNewRow) (ba : b.toNewRow.le a.toNewRow) : a = b := by
  refine List.inj_on_of_nodup_map key inA inB ?_
  rcases ab with less | ⟨same, le⟩
  · rcases ba with more | ⟨same, -⟩
    · exact absurd more (lt_asymm less)
    · exact absurd less (same ▸ lt_irrefl _)
  · rcases ba with more | ⟨-, ge⟩
    · exact absurd more (same ▸ lt_irrefl _)
    · exact BitVec.le_antisymm le ge

theorem eq_scan {rows : List Event} (key : PrimaryKey table) (perm : rows.Perm table)
    (sorted : rows.Pairwise fun a b => a.toNewRow.le b.toNewRow) : rows = scan table := by
  refine List.Perm.eq_of_pairwise ?_ sorted (scan_sorted table) (perm.trans (scan_perm table).symm)
  intro a b inA inB
  exact key.eq_of_le (perm.subset inA) ((scan_perm table).subset inB)

theorem scan_congr (key : PrimaryKey table) (perm : table.Perm table') : scan table = scan table' :=
  eq_scan (key.perm perm) ((scan_perm table).trans perm) (scan_sorted table)

/-- The rows of `rest` that are scanned before `r`, and those after it. -/
def scannedBefore (rest : List Event) (r : Event) : List Event :=
  (scan rest).takeWhile fun s => ¬r.toNewRow.le s.toNewRow

def scannedAfter (rest : List Event) (r : Event) : List Event :=
  (scan rest).dropWhile fun s => ¬r.toNewRow.le s.toNewRow

theorem scan_cons (r : Event) (rest : List Event) :
    scan (r :: rest) = scannedBefore rest r ++ r :: scannedAfter rest r :=
  List.insertionSort_cons_eq_take_drop _ r rest

theorem before_append_after (rest : List Event) (r : Event) :
    scannedBefore rest r ++ scannedAfter rest r = scan rest :=
  List.takeWhile_append_dropWhile

/-! ## One row rewritten -/

/-- The row keeps its place, and its payload and hash, or it is the last one and its hash fits on the row before. -/
def Unnoticed (sha256 : Bytes → Digest) (rest : List Event) (r r' : Event) : Prop :=
  scannedBefore rest r' = scannedBefore rest r ∧
    (link r' = link r ∨ (scannedAfter rest r = [] ∧
      (link r').digest = rowHashOf sha256 (payload r') (headDigest genesisPrevHash.val ((scan rest).map link))))

theorem noticed_iff (readable : ∀ s ∈ table, Readable s) :
    Noticed sha256 table ↔ ¬RowsChained sha256 (scan table) := by
  obtain ⟨breaks, ended, none⟩ := verifyRows_of_readable sha256
    fun s member => readable s ((scan_perm table).subset member)
  rw [← none]
  constructor
  · rintro ⟨report, verified, some⟩
    cases ended.symm.trans verified
    exact some
  · intro some
    exact ⟨_, ended, some⟩

theorem links_eq_iff (rest : List Event) (r r' : Event) :
    (scannedBefore rest r').map link = (scannedBefore rest r).map link ↔
      scannedBefore rest r' = scannedBefore rest r := by
  constructor
  · intro same
    have lengths : (scannedBefore rest r').length = (scannedBefore rest r).length := by
      simpa using congrArg List.length same
    exact (List.append_inj ((before_append_after rest r').trans (before_append_after rest r).symm) lengths).1
  · exact congrArg (List.map link)

theorem rewritten_chained_iff (chained : RowsChained sha256 (scan (r :: rest)))
    (sound : RowHashSound sha256 (rowInputs (scan (r :: rest)) ++ rowInputs (scan (r' :: rest)))) :
    RowsChained sha256 (scan (r' :: rest)) ↔ Unnoticed sha256 rest r r' := by
  have others : (scannedBefore rest r).map link ++ (scannedAfter rest r).map link =
      (scannedBefore rest r').map link ++ (scannedAfter rest r').map link := by
    rw [← List.map_append, ← List.map_append, before_append_after, before_append_after]
  rw [RowsChained, scan_cons, List.map_append, List.map_cons] at chained ⊢
  rw [rowInputs, rowInputs, scan_cons, scan_cons, List.map_append, List.map_append, List.map_cons, List.map_cons] at sound
  rw [chained_replace_iff chained others sound, links_eq_iff, ← and_or_left, Unnoticed]
  refine and_congr_right fun _ => or_congr_right ?_
  rw [List.map_eq_nil_iff]
  refine and_congr_right fun last => ?_
  have whole : scannedBefore rest r = scan rest := by simpa [last] using before_append_after rest r
  rw [whole]
  rfl

theorem verify_congr (key : PrimaryKey table) (perm : table.Perm table') :
    verify sha256 table' = verify sha256 table := by
  rw [verify, verify, scan_congr key perm]

theorem noticed_congr (key : PrimaryKey table) (perm : table.Perm table') :
    Noticed sha256 table' ↔ Noticed sha256 table := by
  rw [Noticed, Noticed, verify_congr key perm]

theorem reported (readable : ∀ s ∈ table, Readable s) : ∃ report, verify sha256 table = .ok report := by
  obtain ⟨breaks, ended, -⟩ := verifyRows_of_readable sha256
    fun s member => readable s ((scan_perm table).subset member)
  exact ⟨_, ended⟩

theorem Clean.readable (clean : Clean sha256 (scan table)) : ∀ s ∈ table, Readable s :=
  fun s member => ((clean_iff).mp clean).1 s ((scan_perm table).symm.subset member)

theorem rewritten_readable (readable : ∀ s ∈ table, Readable s) (perm : table.Perm (r :: rest))
    (new : Readable r') : ∀ s ∈ r' :: rest, Readable s := by
  intro s member
  rcases List.mem_cons.mp member with rfl | other
  · exact new
  · exact readable s (perm.symm.subset (List.mem_cons_of_mem _ other))

theorem hash_replaced_noticed {stored : Bytes} (chained : RowsChained sha256 (scan (r :: rest)))
    (readable : ∀ s ∈ { r with rowHash := some stored } :: rest, Readable s) (other : (link r).digest ≠ stored) :
    Noticed sha256 ({ r with rowHash := some stored } :: rest) := by
  rw [noticed_iff readable, RowsChained, scan_cons, List.map_append, List.map_cons, chained_append, chained_cons]
  rw [RowsChained, scan_cons, List.map_append, List.map_cons, chained_append, chained_cons] at chained
  rintro ⟨-, fits, -⟩
  -- the hash that the row before and the payload ask for is the one that was stored
  exact other (chained.2.1.trans fits.symm)

/-! ## Rows taken out -/

theorem scan_kept (key : PrimaryKey table) {removed kept : List Event} (perm : table.Perm (removed ++ kept)) :
    (scan kept).Sublist (scan table) := by
  have keyed : PrimaryKey (removed ++ kept) := key.perm perm
  have apart : (removed ++ kept).Nodup := List.Nodup.of_map _ keyed
  have keptKey : PrimaryKey kept := by
    rw [PrimaryKey, List.map_append] at keyed
    exact (List.nodup_append.mp keyed).2.1
  have filtered : (removed ++ kept).filter (· ∈ kept) = kept := by
    rw [List.filter_append, List.filter_eq_nil_iff.mpr, List.nil_append, List.filter_eq_self.mpr]
    · simp
    · intro s member
      simpa using fun kept => (List.nodup_append.mp apart).2.2 s member s kept rfl
  have perm' : ((scan table).filter (· ∈ kept)).Perm kept := by
    have := ((scan_perm table).trans perm).filter (· ∈ kept)
    rwa [filtered] at this
  rw [← eq_scan keptKey perm' ((scan_sorted table).filter _)]
  exact List.filter_sublist

theorem kept_chained_iff {removed kept : List Event} (key : PrimaryKey table) (chained : RowsChained sha256 (scan table))
    (perm : table.Perm (removed ++ kept))
    (sound : RowHashSound sha256 (rowInputs (scan table) ++ rowInputs (scan kept))) :
    RowsChained sha256 (scan kept) ↔ scan kept <+: scan table := by
  have sub := scan_kept key perm
  rw [RowsChained, chained_sublist_iff chained (sub.map link) sound]
  exact ⟨isPrefix_of_map sub (chained.nodup sound.left), fun front => front.map link⟩

/-- On a table that verifies, a report comes back after every change that leaves the columns readable. A row
that is rewritten shows unless it stays in place with its payload and hash, or is the last one with a hash that
fits; another row hash alone always shows; rows that are taken out show unless they are the last ones. -/
theorem tamper_evidence (sha256 : Bytes → Digest) (table table' : List Event) (key : PrimaryKey table)
    (clean : Clean sha256 (scan table))
    (sound : RowHashSound sha256 (rowInputs (scan table) ++ rowInputs (scan table'))) :
    (∀ r r' rest, table.Perm (r :: rest) → table'.Perm (r' :: rest) → PrimaryKey table' → Readable r' →
      (∃ report, verify sha256 table' = .ok report) ∧
      (Noticed sha256 table' ↔ ¬Unnoticed sha256 rest r r')) ∧
    (∀ r rest stored, table.Perm (r :: rest) → table'.Perm ({ r with rowHash := some stored } :: rest) →
      stored.length = 32 → r.rowHash ≠ some stored → Noticed sha256 table') ∧
    ∀ removed, table.Perm (removed ++ table') →
      (∃ report, verify sha256 table' = .ok report) ∧
      (Noticed sha256 table' ↔ ¬scan table' <+: scan table) := by
  have readable := Clean.readable clean
  have chained := ((clean_iff).mp clean).2
  refine ⟨?_, ?_, ?_⟩
  · intro r r' rest perm perm' key' new
    have readable' := rewritten_readable readable perm new
    have order := scan_congr key perm
    have order' := scan_congr key' perm'
    rw [order] at chained sound
    rw [order'] at sound
    rw [← verify_congr key' perm', ← noticed_congr key' perm', noticed_iff readable',
      rewritten_chained_iff chained sound]
    exact ⟨reported readable', Iff.rfl⟩
  · intro r rest stored perm perm' length other
    obtain ⟨inRange, prev, old, found, -⟩ := readable r (perm.symm.subset List.mem_cons_self)
    have readable' : ∀ s ∈ { r with rowHash := some stored } :: rest, Readable s :=
      rewritten_readable readable perm ⟨inRange, prev, stored, rfl, length⟩
    have keyed : PrimaryKey (r :: rest) := key.perm perm
    have key' : PrimaryKey ({ r with rowHash := some stored } :: rest) := keyed
    rw [noticed_congr key' perm'.symm]
    rw [scan_congr key perm] at chained
    refine hash_replaced_noticed chained readable' ?_
    rintro rfl
    exact other (by simp [link, found])
  · intro removed perm
    have readable' : ∀ s ∈ table', Readable s :=
      fun s member => readable s (perm.symm.subset (List.mem_append_right _ member))
    rw [noticed_iff readable', kept_chained_iff key chained perm sound]
    exact ⟨reported readable', Iff.rfl⟩

/-! ## The sample, changed -/

def firstEvent : Event := ⟨firstRow, some genesisPrevHash.val, some firstDigest.val⟩

def secondEvent : Event := ⟨secondRow, some firstDigest.val, some secondDigest.val⟩

def rehashedEvent : Event := { secondEvent with rowHash := some firstDigest.val }

def relabelledEvent : Event := { firstEvent with prevHash := some [] }

theorem rowInputs_rehashed : rowInputs (scan [firstEvent, rehashedEvent]) = rowInputs sampleRows := rfl

theorem rowInputs_secondEvent :
    rowInputs (scan [secondEvent]) = [(canonicalize secondRow.auditRow, genesisPrevHash.val)] := rfl

theorem sampleRows_key : PrimaryKey sampleRows := by
  unfold PrimaryKey
  decide

theorem secondEvent_not_first : ¬scan [secondEvent] <+: scan sampleRows := by
  show ¬[secondEvent] <+: [firstEvent, secondEvent]
  rw [List.cons_prefix_cons]
  rintro ⟨same, -⟩
  exact absurd (congrArg (fun r => r.id) same) (by decide)

theorem sample_tampered : Noticed sampleSha256 [secondEvent] ∧ Noticed sampleSha256 [firstEvent, rehashedEvent] ∧
    ¬Noticed sampleSha256 [relabelledEvent, secondEvent] := by
  have clean : Clean sampleSha256 (scan sampleRows) := sampleRows_clean
  have inputs : rowInputs (scan sampleRows) = rowInputs sampleRows := rfl
  have evidence (table' : List Event) :=
    tamper_evidence sampleSha256 sampleRows table' sampleRows_key clean
  refine ⟨?_, ?_, ?_⟩
  · obtain ⟨-, -, removal⟩ := evidence [secondEvent] (samples_sound.mono
      (by rw [inputs, rowInputs_sampleRows, rowInputs_secondEvent]; simp))
    exact (removal [firstEvent] (List.Perm.refl _)).2.mpr secondEvent_not_first
  · obtain ⟨-, replaced, -⟩ := evidence [firstEvent, rehashedEvent] (sampleRows_sound.mono
      (by rw [inputs, rowInputs_rehashed]; simp))
    exact replaced secondEvent [firstEvent] firstDigest.val (List.Perm.swap _ _ _) (List.Perm.swap _ _ _) rfl
      (by decide +kernel)
  · obtain ⟨rewritten, -, -⟩ := evidence [relabelledEvent, secondEvent]
      (sampleRows_sound.mono (List.append_subset.mpr ⟨List.Subset.refl _, List.Subset.refl _⟩))
    have readable : Readable relabelledEvent := ⟨by decide, rfl, firstDigest.val, rfl, rfl⟩
    rw [(rewritten firstEvent _ [secondEvent] (List.Perm.refl _) (List.Perm.refl _) sampleRows_key readable).2, not_not]
    exact ⟨rfl, Or.inl rfl⟩

/-- The last row is gone from a table that an anchor covers, and `verify` reports no break. -/
theorem anchored_row_removed :
    verify sampleSha256 sampleRows = .ok { rowsChecked := 2, breaks := [] } ∧
    snapshot sampleRows secondRow.ts 0 = .ok ⟨secondRow.ts, secondDigest.val, 2, 0⟩ ∧
    verify sampleSha256 [firstEvent] = .ok { rowsChecked := 1, breaks := [] } := by
  refine ⟨sampleRows_clean, ?_, ?_⟩
  · decide +kernel
  · have readable : ∀ r ∈ [firstEvent], Readable r := fun r member =>
      sampleRows_readable r (List.mem_singleton.mp member ▸ List.mem_cons_self)
    exact (clean_iff).mpr ⟨readable, (hash_firstRow).symm, trivial⟩

end Daimon.Proof.Audit
