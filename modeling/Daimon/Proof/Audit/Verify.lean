import Daimon.Audit.Chain

/-!
# What `verify` checks

`verify` returns a report exactly on rows it can read, and the report has no break exactly when the rows are
a chain. Two chains that hold the same row hash agree up to that row.
-/

namespace Daimon.Proof.Audit
open Daimon.Audit Lib

variable {sha256 : Bytes → Digest} {rows : List Event} {inputs : List (Bytes × Bytes)}

def Readable (r : Event) : Prop :=
  r.ts.inDateTime = true ∧ r.prevHash.isSome = true ∧ ∃ stored, r.rowHash = some stored ∧ stored.length = 32

def payload (r : Event) : Bytes := canonicalize r.auditRow

def link (r : Event) : Link Bytes Bytes := ⟨payload r, r.rowHash.getD []⟩

@[simp] theorem link_payload (r : Event) : (link r).payload = payload r := rfl

def rowHashOf (sha256 : Bytes → Digest) (canonical prev : Bytes) : Bytes := (sha256 (canonical ++ prev)).val

def RowsChained (sha256 : Bytes → Digest) (rows : List Event) : Prop :=
  Chained (rowHashOf sha256) genesisPrevHash.val (rows.map link)

/-- What `verify` hashes on these rows, each payload with the hash in front of it. -/
def rowInputs (rows : List Event) : List (Bytes × Bytes) := hashInputs genesisPrevHash.val (rows.map link)

/-- The row hash has no collision on what `verify` hashes of the rows, and does not give the genesis hash. -/
def RowHashSound (sha256 : Bytes → Digest) (inputs : List (Bytes × Bytes)) : Prop :=
  Sound (rowHashOf sha256) genesisPrevHash.val inputs

def Clean (sha256 : Bytes → Digest) (rows : List Event) : Prop :=
  verifyRows sha256 rows = .ok { rowsChecked := rows.length, breaks := [] }

instance : Decidable (RowHashSound sha256 inputs) := inferInstanceAs (Decidable (Sound _ _ _))

instance : Decidable (Clean sha256 rows) := inferInstanceAs (Decidable (_ = _))

/-! ## The loop -/

theorem read_ok {r : Event} {row : AuditRow} {stored : Bytes} (read : r.read = .ok (row, stored)) :
    r.ts.inDateTime = true ∧ r.prevHash.isSome = true ∧ row = r.auditRow ∧ r.rowHash = some stored := by
  unfold Event.read at read
  split at read
  · rename_i inRange
    split at read
    · cases read
    · cases read
    · rename_i prev found found'
      cases read
      exact ⟨inRange, by simp [found], rfl, found'⟩
  · cases read

theorem Readable.read {r : Event} (readable : Readable r) :
    r.read = .ok (r.auditRow, (link r).digest) ∧ (link r).digest.length = 32 := by
  obtain ⟨inRange, prev, stored, found, length⟩ := readable
  obtain ⟨p, foundPrev⟩ := Option.isSome_iff_exists.mp prev
  simp [Event.read, inRange, foundPrev, found, link, length]

def breakAt (sha256 : Bytes → Digest) (prev : Digest) (r : Event) : ChainBreak :=
  ⟨r.id, r.ts, hexEncode (rowHashOf sha256 (payload r) prev.val), hexEncode (link r).digest⟩

theorem verifyLoop_cons {r : Event} (readable : Readable r) (prev : Digest) (breaks : List ChainBreak)
    (rest : List Event) : ∃ next : Digest, next.val = (link r).digest ∧
      verifyLoop sha256 prev breaks (r :: rest) = verifyLoop sha256 next
        (if rowHashOf sha256 (payload r) prev.val = (link r).digest then breaks
        else breaks ++ [breakAt sha256 prev r]) rest := by
  obtain ⟨read, length⟩ := readable.read
  have copied : copyFromSlice (link r).digest = .ok ⟨(link r).digest, length⟩ := dif_pos length
  refine ⟨⟨(link r).digest, length⟩, rfl, ?_⟩
  simp only [verifyLoop, read, bind, Except.bind, copied, ne_eq, ite_not]
  rfl

theorem verifyLoop_of_readable (sha256 : Bytes → Digest) {rows : List Event} (readable : ∀ r ∈ rows, Readable r)
    (prev : Digest) (breaks : List ChainBreak) :
    ∃ found, verifyLoop sha256 prev breaks rows = .ok (breaks ++ found) ∧
      (found = [] ↔ Chained (rowHashOf sha256) prev.val (rows.map link)) := by
  induction rows generalizing prev breaks with
  | nil => exact ⟨[], by simp [verifyLoop], by simp [Chained]⟩
  | cons r rest ih =>
      obtain ⟨next, digest, step⟩ := @verifyLoop_cons sha256 r (readable r List.mem_cons_self) prev breaks rest
      have later := ih (fun s member => readable s (List.mem_cons_of_mem _ member)) next
      rw [digest] at later
      rw [List.map_cons, chained_cons, link_payload]
      by_cases fits : rowHashOf sha256 (payload r) prev.val = (link r).digest
      · obtain ⟨found, ended, none⟩ := later breaks
        refine ⟨found, ?_, ?_⟩
        · rw [step, if_pos fits, ended]
        · rw [none]
          exact ⟨fun rest => ⟨fits.symm, rest⟩, fun both => both.2⟩
      · obtain ⟨found, ended, -⟩ := later (breaks ++ [breakAt sha256 prev r])
        refine ⟨breakAt sha256 prev r :: found, ?_, ?_⟩
        · rw [step, if_neg fits, ended, List.append_assoc]
          rfl
        · exact ⟨fun none => absurd none (List.cons_ne_nil _ _), fun chained => absurd chained.1.symm fits⟩

/-- The rows without the hash that they should have after the row in front of them. -/
def misfits (sha256 : Bytes → Digest) : Bytes → List Event → List Event
  | _, [] => []
  | prev, r :: rest =>
      if rowHashOf sha256 (payload r) prev = (link r).digest then misfits sha256 (link r).digest rest
      else r :: misfits sha256 (link r).digest rest

theorem verifyLoop_misfits {rows : List Event} (readable : ∀ r ∈ rows, Readable r) (prev : Digest)
    (breaks : List ChainBreak) : ∃ found, verifyLoop sha256 prev breaks rows = .ok (breaks ++ found) ∧
      found.length = (misfits sha256 prev.val rows).length := by
  induction rows generalizing prev breaks with
  | nil => exact ⟨[], by simp [verifyLoop], rfl⟩
  | cons r rest ih =>
      obtain ⟨next, digest, step⟩ := @verifyLoop_cons sha256 r (readable r List.mem_cons_self) prev breaks rest
      have later := ih (fun s member => readable s (List.mem_cons_of_mem _ member)) next
      rw [misfits, ← digest, step, digest]
      split_ifs with fits
      · exact digest ▸ later breaks
      · obtain ⟨found, ended, counted⟩ := later (breaks ++ [breakAt sha256 prev r])
        refine ⟨breakAt sha256 prev r :: found, ?_, ?_⟩
        · rw [ended, List.append_assoc]
          rfl
        · rw [List.length_cons, List.length_cons, counted, digest]

theorem readable_of_verifyLoop {rows : List Event} {prev : Digest} {breaks result : List ChainBreak}
    (ended : verifyLoop sha256 prev breaks rows = .ok result) : ∀ r ∈ rows, Readable r := by
  induction rows generalizing prev breaks with
  | nil => simp
  | cons r rest ih =>
      simp only [verifyLoop] at ended
      cases read : r.read with
      | error panic =>
          rw [read] at ended
          cases ended
      | ok columns =>
          obtain ⟨row, stored⟩ := columns
          rw [read] at ended
          cases copied : copyFromSlice stored with
          | error panic =>
              simp only [bind, Except.bind, copied] at ended
              cases ended
          | ok next =>
              simp only [bind, Except.bind, copied] at ended
              obtain ⟨inRange, prevHash, -, rowHash⟩ := read_ok read
              have length : stored.length = 32 := by
                unfold copyFromSlice at copied
                split at copied
                · assumption
                · cases copied
              intro s member
              rcases List.mem_cons.mp member with rfl | later
              · exact ⟨inRange, prevHash, stored, rowHash, length⟩
              · exact ih ended s later

theorem verifyRows_of_readable (sha256 : Bytes → Digest) {rows : List Event} (readable : ∀ r ∈ rows, Readable r) :
    ∃ breaks, verifyRows sha256 rows = .ok ⟨rows.length, breaks⟩ ∧ (breaks = [] ↔ RowsChained sha256 rows) := by
  obtain ⟨breaks, ended, none⟩ := verifyLoop_of_readable sha256 readable genesisPrevHash []
  refine ⟨breaks, ?_, none⟩
  simp only [verifyRows, ended]
  rfl

theorem clean_iff {rows : List Event} :
    Clean sha256 rows ↔ (∀ r ∈ rows, Readable r) ∧ RowsChained sha256 rows := by
  constructor
  · intro clean
    have readable : ∀ r ∈ rows, Readable r := by
      unfold Clean verifyRows at clean
      cases ended : verifyLoop sha256 genesisPrevHash [] rows with
      | error panic =>
          rw [ended] at clean
          cases clean
      | ok breaks => exact readable_of_verifyLoop ended
    obtain ⟨breaks, ended, none⟩ := verifyRows_of_readable sha256 readable
    rw [Clean, ended] at clean
    cases clean
    exact ⟨readable, none.mp rfl⟩
  · rintro ⟨readable, chained⟩
    obtain ⟨breaks, ended, none⟩ := verifyRows_of_readable sha256 readable
    rw [Clean, ended, none.mpr chained]

theorem verify_misfits {table : List Event} (readable : ∀ r ∈ scan table, Readable r) :
    ∃ report, verify sha256 table = .ok report ∧
      report.breaks.length = (misfits sha256 genesisPrevHash.val (scan table)).length := by
  obtain ⟨breaks, ended, counted⟩ := @verifyLoop_misfits sha256 _ readable genesisPrevHash []
  refine ⟨⟨(scan table).length, breaks⟩, ?_, counted⟩
  rw [verify, verifyRows, ended]
  rfl

end Daimon.Proof.Audit
