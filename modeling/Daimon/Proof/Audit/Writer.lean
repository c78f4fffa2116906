import Daimon.Lib.Utf8
import Daimon.Proof.Audit.History

/-!
# The writer and the verifier

The trigger and `canonicalize` write the same bytes for every row between the years 1 and 9999. A table whose rows
were inserted in the order of its scan is a chain.
-/

namespace Daimon.Proof.Audit
open Daimon.Audit Lib

variable {sha256 : Bytes → Digest} {table : List Event} {new : NewRow}

/-! ## Timestamps -/

def InCalendar (ts : Timestamp) : Prop := 1 ≤ ts.civil.date.year ∧ ts.civil.date.year ≤ 9999

instance : DecidablePred InCalendar := fun _ => inferInstanceAs (Decidable (_ ∧ _))

theorem InCalendar.isFinite {ts : Timestamp} (inside : InCalendar ts) : ts.isFinite = true := by
  by_contra infinite
  have ends : ts = -0x8000000000000000 ∨ ts = 0x7fffffffffffffff := by
    simpa [Timestamp.isFinite, Classical.or_iff_not_imp_left] using infinite
  rcases ends with rfl | rfl
  · exact absurd inside (by decide)
  · exact absurd inside (by decide)

theorem InCalendar.inDateTime {ts : Timestamp} (inside : InCalendar ts) : ts.inDateTime = true := by
  obtain ⟨above, below⟩ := inside
  simp only [Timestamp.inDateTime, Bool.and_eq_true, decide_eq_true_eq]
  omega

theorem zeroPad_two {n : Nat} (small : n < 100) : zeroPad 2 n = Timestamp.writeHundreds n :=
  zeroPad_eq_lastDigits 1 small

theorem decimalDigit_congr {n m : Nat} (same : n % 10 = m % 10) : decimalDigit n = decimalDigit m := by
  rw [decimalDigit, decimalDigit, same]

theorem zeroPad_four {n : Nat} (small : n < 10000) :
    zeroPad 4 n = Timestamp.writeHundreds (n / 100) ++ Timestamp.writeHundreds (n % 100) := by
  have thousands : decimalDigit (n / 10 / 10 / 10) = decimalDigit (n / 100 / 10) := decimalDigit_congr (by omega)
  have hundreds : decimalDigit (n / 10 / 10) = decimalDigit (n / 100) := decimalDigit_congr (by omega)
  have tens : decimalDigit (n / 10) = decimalDigit (n % 100 / 10) := decimalDigit_congr (by omega)
  have ones : decimalDigit n = decimalDigit (n % 100) := decimalDigit_congr (by omega)
  rw [zeroPad_eq_lastDigits 3 small, lastDigits, lastDigits, lastDigits, lastDigits, lastDigits,
    thousands, hundreds, tens, ones]
  rfl

theorem zeroPad_isDigit {width n : Nat} {c : Char} (member : c ∈ zeroPad width n) : c.isDigit = true := by
  rcases List.mem_append.mp member with pad | digit
  · rw [List.eq_of_mem_replicate pad]
    rfl
  · exact Nat.isDigit_of_mem_toDigits (by decide) (by decide) digit

theorem zeroPad_ne_sign {width n : Nat} {sign : Char} {rest : List Char} (notDigit : sign.isDigit = false) :
    zeroPad width n ≠ sign :: rest := by
  intro same
  have first : sign ∈ zeroPad width n := by
    rw [same]
    exact List.mem_cons_self
  rw [zeroPad_isDigit first] at notDigit
  cases notDigit

def charYear (year : Int) : List Char := zeroPad 4 (if year ≤ 0 then 1 - year else year).toNat

def rfcYear (year : Int) : List Char :=
  if 0 ≤ year ∧ year ≤ 9999 then
    Timestamp.writeHundreds (year.toNat / 100) ++ Timestamp.writeHundreds (year.toNat % 100)
  else (if year < 0 then '-' else '+') :: zeroPad 4 year.natAbs

theorem charYear_eq_iff (year : Int) : charYear year = rfcYear year ↔ 1 ≤ year ∧ year ≤ 9999 := by
  unfold charYear rfcYear
  constructor
  · intro same
    by_cases inside : 0 ≤ year ∧ year ≤ 9999
    · rcases eq_or_ne year 0 with rfl | nonzero
      · exact absurd same (by decide)
      · omega
    · rw [if_neg inside] at same
      exact absurd same (zeroPad_ne_sign (by split <;> rfl))
  · rintro ⟨above, below⟩
    rw [if_neg (by omega), if_pos (by omega), zeroPad_four (by omega)]

def afterYear (t : CivilTime) : List Char :=
  '-' :: Timestamp.writeHundreds t.date.month ++ '-' :: Timestamp.writeHundreds t.date.day ++
    'T' :: Timestamp.writeHundreds t.hour ++ ':' :: Timestamp.writeHundreds t.minute ++
    ':' :: Timestamp.writeHundreds t.second ++ '.' :: zeroPad 6 t.micro ++ ['Z']

theorem toRfc3339_eq (ts : Timestamp) :
    ts.toRfc3339 = String.ofList (rfcYear ts.civil.date.year ++ afterYear ts.civil) := by
  simp [Timestamp.toRfc3339, rfcYear, afterYear]

theorem toChar_eq {ts : Timestamp} (finite : ts.isFinite = true) :
    ts.toChar = some (String.ofList (charYear ts.civil.date.year ++ afterYear ts.civil)) := by
  have month : ts.civil.date.month ≤ 12 := (civilFromDays_month _).2
  have day : ts.civil.date.day ≤ 31 := (civilFromDays_day _).2
  have hour : ts.civil.hour < 24 := civilFromMicros_hour _
  have minute : ts.civil.minute < 60 := civilFromMicros_minute _
  have second : ts.civil.second < 60 := civilFromMicros_second _
  rw [Timestamp.toChar, if_pos finite]
  simp only [zeroPad_two (show ts.civil.date.month < 100 by omega), zeroPad_two (show ts.civil.date.day < 100 by omega),
    zeroPad_two (show ts.civil.hour < 100 by omega), zeroPad_two (show ts.civil.minute < 100 by omega),
    zeroPad_two (show ts.civil.second < 100 by omega)]
  simp [charYear, afterYear]

theorem toChar_eq_toRfc3339_iff (ts : Timestamp) : ts.toChar.getD "" = ts.toRfc3339 ↔ InCalendar ts := by
  rw [toRfc3339_eq]
  cases finite : ts.isFinite with
  | false =>
      constructor
      · intro same
        rw [Timestamp.toChar, finite] at same
        have empty := congrArg String.toList same
        simp [afterYear] at empty
      · intro inside
        rw [inside.isFinite] at finite
        cases finite
  | true =>
      rw [toChar_eq finite, Option.getD_some, String.ofList_inj, List.append_cancel_right_eq]
      exact charYear_eq_iff _

/-! ## The canonical bytes -/

theorem utf8_injective {a b : String} (same : utf8 a = utf8 b) : a = b := bytesOf_injective same

theorem join_nine (a b c d e f g h i : String) : String.intercalate "|" [a, b, c, d, e, f, g, h, i] =
    a ++ "|" ++ b ++ "|" ++ c ++ "|" ++ d ++ "|" ++ e ++ "|" ++ f ++ "|" ++ g ++ "|" ++ h ++ "|" ++ i := rfl

theorem latency_eq (latencyMs : Option Int32) : ((latencyMs.map Int32.toInt64).map fun n => toString n.toInt) =
    latencyMs.map fun n => toString n.toInt := by
  cases latencyMs with
  | none => rfl
  | some n => simp

theorem canonicalize_eq_iff (new : NewRow) :
    canonicalize new.auditRow = utf8 new.canonicalText ↔ InCalendar new.ts := by
  rw [← toChar_eq_toRfc3339_iff]
  unfold canonicalize NewRow.canonicalText NewRow.auditRow
  simp only [latency_eq, if_neg new.metadata.nonempty, join_nine]
  constructor
  · intro same
    have texts := congrArg String.toList (utf8_injective same)
    simp only [String.toList_append, List.append_cancel_right_eq] at texts
    exact (String.toList_inj.mp texts).symm
  · intro same
    rw [same]

theorem canonicalize_eq {new : NewRow} (inside : InCalendar new.ts) :
    canonicalize new.auditRow = utf8 new.canonicalText :=
  (canonicalize_eq_iff new).mpr inside

/-! ## The row that the trigger makes -/

theorem chain_readable (inside : InCalendar new.ts) (prev : Option Bytes) : Readable (new.chain sha256 prev) :=
  ⟨inside.inDateTime, rfl, _, rfl, (sha256 _).property⟩

theorem chain_eq (inside : InCalendar new.ts) {prev : Option Bytes} {digest : Digest}
    (hash : rowHashOf sha256 (canonicalize new.auditRow) (prev.getD genesisPrevHash.val) = digest.val) :
    new.chain sha256 prev = ⟨new, some (prev.getD genesisPrevHash.val), some digest.val⟩ := by
  rw [canonicalize_eq inside, rowHashOf] at hash
  rw [NewRow.chain, hash]

theorem link_chain (inside : InCalendar new.ts) (prev : Option Bytes) :
    link (new.chain sha256 prev) =
      ⟨utf8 new.canonicalText, rowHashOf sha256 (utf8 new.canonicalText) (prev.getD genesisPrevHash.val)⟩ := by
  rw [← canonicalize_eq inside]
  simp only [link, NewRow.chain, Option.getD_some, ← canonicalize_eq inside]
  rfl

theorem rowsChained_snoc (inside : InCalendar new.ts) (prev : Option Bytes) :
    RowsChained sha256 (table ++ [new.chain sha256 prev]) ↔
      RowsChained sha256 table ∧
        rowHashOf sha256 (utf8 new.canonicalText) (prev.getD genesisPrevHash.val) =
          rowHashOf sha256 (utf8 new.canonicalText) (headDigest genesisPrevHash.val (table.map link)) := by
  rw [RowsChained, List.map_append, List.map_singleton, chained_snoc, link_chain inside]
  rfl

theorem headDigest_of_last (readable : ∀ r ∈ table, Readable r) :
    (table.getLast?.bind Event.rowHash).getD genesisPrevHash.val =
      headDigest genesisPrevHash.val (table.map link) := by
  rcases table.eq_nil_or_concat' with rfl | ⟨front, last, rfl⟩
  · rfl
  · obtain ⟨-, -, stored, found, -⟩ := readable last (by simp)
    rw [List.map_append, List.map_singleton, headDigest_snoc]
    simp [found, link]

/-! ## Tables in the order of their scan -/

def Before (a b : NewRow) : Prop := a.ts < b.ts ∨ (a.ts = b.ts ∧ a.id < b.id)

instance : DecidableRel Before := fun _ _ => inferInstanceAs (Decidable (_ ∨ (_ ∧ _)))

def Ordered (table : List Event) : Prop := table.Pairwise fun a b => Before a.toNewRow b.toNewRow

theorem Before.le {a b : NewRow} (before : Before a b) : a.le b := by
  rcases before with earlier | ⟨same, less⟩
  · exact Or.inl earlier
  · exact Or.inr ⟨same, BitVec.le_of_lt less⟩

theorem Before.not_le {a b : NewRow} (before : Before a b) : ¬b.le a := by
  rcases before with earlier | ⟨same, less⟩
  · rintro (later | ⟨same, -⟩)
    · exact lt_asymm earlier later
    · exact absurd earlier (same ▸ lt_irrefl _)
  · rintro (later | ⟨-, le⟩)
    · exact absurd later (same ▸ lt_irrefl _)
    · exact absurd le (BitVec.not_le.mpr less)

theorem le_total (a b : NewRow) : a.le b ∨ b.le a := by
  rcases lt_trichotomy a.ts b.ts with earlier | same | later
  · exact Or.inl (Or.inl earlier)
  · rcases BitVec.le_total a.id b.id with le | le
    · exact Or.inl (Or.inr ⟨same, le⟩)
    · exact Or.inr (Or.inr ⟨same.symm, le⟩)
  · exact Or.inr (Or.inl later)

theorem le_trans {a b c : NewRow} (ab : a.le b) (bc : b.le c) : a.le c := by
  rcases ab with ab | ⟨ab, ab'⟩ <;> rcases bc with bc | ⟨bc, bc'⟩
  · exact Or.inl (ab.trans bc)
  · exact Or.inl (bc ▸ ab)
  · exact Or.inl (ab ▸ bc)
  · exact Or.inr ⟨ab.trans bc, BitVec.le_trans ab' bc'⟩

instance : Std.Total fun a b : Event => a.toNewRow.le b.toNewRow := ⟨fun a b => le_total a.toNewRow b.toNewRow⟩

instance : IsTrans Event fun a b => a.toNewRow.le b.toNewRow := ⟨fun _ _ _ => le_trans⟩

instance : Std.Total fun a b : Event => b.toNewRow.le a.toNewRow := ⟨fun a b => le_total b.toNewRow a.toNewRow⟩

instance : IsTrans Event fun a b => b.toNewRow.le a.toNewRow := ⟨fun _ _ _ ab bc => le_trans bc ab⟩

theorem Ordered.scan_eq (ordered : Ordered table) : scan table = table :=
  (ordered.imp Before.le).insertionSort_eq

theorem chainHead_eq_some {head : Event} (found : chainHead table = some head) :
    head ∈ table ∧ ∀ r ∈ table, r.toNewRow.le head.toNewRow := by
  obtain ⟨rest, sorted⟩ := List.head?_eq_some_iff.mp found
  have pairwise := List.pairwise_insertionSort (fun a b : Event => b.toNewRow.le a.toNewRow) table
  have perm := List.perm_insertionSort (fun a b : Event => b.toNewRow.le a.toNewRow) table
  rw [sorted] at pairwise perm
  refine ⟨perm.subset List.mem_cons_self, fun r member => ?_⟩
  rcases List.mem_cons.mp (perm.symm.subset member) with rfl | later
  · exact (le_total r.toNewRow r.toNewRow).elim id id
  · exact List.rel_of_pairwise_cons pairwise later

theorem chainHead_eq_none (none : chainHead table = none) : table = [] := by
  have empty := List.head?_eq_none_iff.mp none
  rw [← List.length_eq_zero_iff, ← List.length_insertionSort (fun a b : Event => b.toNewRow.le a.toNewRow), empty]
  rfl

theorem Ordered.chainHead_eq (ordered : Ordered table) : chainHead table = table.getLast? := by
  cases found : chainHead table with
  | none =>
      rw [chainHead_eq_none found]
      rfl
  | some head =>
      obtain ⟨member, top⟩ := chainHead_eq_some found
      rcases table.eq_nil_or_concat' with rfl | ⟨front, last, rfl⟩
      · simp at member
      · rw [List.getLast?_concat]
        rcases List.mem_append.mp member with inFront | isLast
        · have before := (List.pairwise_append.mp ordered).2.2 head inFront last List.mem_cons_self
          exact absurd (top last (by simp)) before.not_le
        · rw [List.mem_singleton.mp isLast]

/-! ## Inserts in the order of the scan -/

/-- The rows were chained in the order in which `verify` scans them. -/
structure Intact (sha256 : Bytes → Digest) (table : List Event) : Prop where
  ordered : Ordered table
  readable : ∀ r ∈ table, Readable r
  chained : RowsChained sha256 table

theorem Intact.empty : Intact sha256 [] := ⟨List.Pairwise.nil, by simp, trivial⟩

theorem Intact.verify_eq (intact : Intact sha256 table) :
    verify sha256 table = .ok { rowsChecked := table.length, breaks := [] } := by
  rw [verify, intact.ordered.scan_eq]
  exact (clean_iff).mpr ⟨intact.readable, intact.chained⟩

theorem Intact.insert (intact : Intact sha256 table) (inside : InCalendar new.ts)
    (after : ∀ r ∈ table, Before r.toNewRow new) : Intact sha256 (V020.insert sha256 table new) := by
  refine ⟨?_, ?_, ?_⟩
  · refine List.pairwise_append.mpr ⟨intact.ordered, List.pairwise_singleton _ _, ?_⟩
    intro r member s inserted
    rw [List.mem_singleton.mp inserted]
    exact after r member
  · intro r member
    rcases List.mem_append.mp member with old | inserted
    · exact intact.readable r old
    · rw [List.mem_singleton.mp inserted]
      exact chain_readable inside _
  · refine (rowsChained_snoc inside _).mpr ⟨intact.chained, ?_⟩
    rw [intact.ordered.chainHead_eq, headDigest_of_last intact.readable]

theorem Intact.insertAll (intact : Intact sha256 table) {news : List NewRow}
    (inside : ∀ new ∈ news, InCalendar new.ts) (increasing : news.Pairwise Before)
    (after : ∀ new ∈ news, ∀ r ∈ table, Before r.toNewRow new) :
    Intact sha256 (news.foldl (V020.insert sha256) table) := by
  induction news generalizing table with
  | nil => exact intact
  | cons new news ih =>
      obtain ⟨first, rest⟩ := List.pairwise_cons.mp increasing
      refine ih (intact.insert (inside new List.mem_cons_self) (after new List.mem_cons_self))
        (fun other member => inside other (List.mem_cons_of_mem _ member)) rest ?_
      intro other member r stored
      rcases List.mem_append.mp stored with old | inserted
      · exact after other (List.mem_cons_of_mem _ member) r old
      · rw [List.mem_singleton.mp inserted]
        exact first other member

theorem length_insertAll (news : List NewRow) (table : List Event) :
    (news.foldl (V020.insert sha256) table).length = table.length + news.length := by
  induction news generalizing table with
  | nil => rfl
  | cons new news ih =>
      rw [List.foldl_cons, ih]
      simp only [V020.insert, List.length_append, List.length_cons, List.length_nil]
      omega

/-- `verify` reads back from every stored row the bytes that the trigger hashed, and reports no break on a
table made by inserts one after the other with increasing timestamps. -/
theorem writer_verifier_agree (sha256 : Bytes → Digest) :
    (∀ (table : List Event) (new : NewRow), InCalendar new.ts →
      ∃ row stored, (V020.computeRowHash sha256 table new).read = .ok (row, stored) ∧
        canonicalize row = utf8 new.canonicalText) ∧
    ∀ news : List NewRow, (∀ new ∈ news, InCalendar new.ts) → news.Pairwise (fun a b => a.ts < b.ts) →
      verify sha256 (news.foldl (V020.insert sha256) []) = .ok { rowsChecked := news.length, breaks := [] } := by
  constructor
  · intro table new inside
    exact ⟨_, _, (chain_readable inside _).read.1, canonicalize_eq inside⟩
  · intro news inside increasing
    have intact : Intact sha256 (news.foldl (V020.insert sha256) []) :=
      Intact.empty.insertAll inside (increasing.imp Or.inl) (by simp)
    rw [intact.verify_eq, length_insertAll, List.length_nil, Nat.zero_add]

theorem firstRow_inside : InCalendar firstRow.ts := by decide

theorem secondRow_inside : InCalendar secondRow.ts := by decide

theorem chain_firstRow : firstRow.chain sampleSha256 none =
    ⟨firstRow, some genesisPrevHash.val, some firstDigest.val⟩ :=
  chain_eq firstRow_inside hash_firstRow

theorem chain_secondRow : secondRow.chain sampleSha256 (some firstDigest.val) =
    ⟨secondRow, some firstDigest.val, some secondDigest.val⟩ :=
  chain_eq secondRow_inside hash_secondRow

theorem chain_restart : secondRow.chain sampleSha256 none =
    ⟨secondRow, some genesisPrevHash.val, some restartDigest.val⟩ :=
  chain_eq secondRow_inside hash_restart

theorem sample_writer_agrees :
    verify sampleSha256 ([firstRow, secondRow].foldl (V020.insert sampleSha256) []) =
      .ok { rowsChecked := 2, breaks := [] } :=
  (writer_verifier_agree sampleSha256).2 [firstRow, secondRow] (by decide) (by decide)

end Daimon.Proof.Audit
