import Daimon.Audit.Writers
import Daimon.Lib.Lists
import Daimon.Proof.Audit.Writer

/-!
# Inserts under the advisory lock

The lock orders the inserts by when they read the head. `verify` scans them by timestamp and id. The two orders
agree as long as no row commits behind one that it precedes.
-/

namespace Daimon.Proof.Audit
open Daimon.Audit Lib

variable {sha256 : Bytes → Digest} {w w' : Writers} {action : Writers.Action}

/-- A row that commits comes after every committed row in the order of timestamp and id. -/
def commitsInOrder (w : Writers) : Writers.Action → Bool
  | .commit i =>
      match w.transactions[i]? with
      | some (.inserted row) => w.table.all fun r => decide (Before r.toNewRow row.toNewRow)
      | _ => true
  | _ => true

/-- What a transaction knows, given the lock and the committed rows. -/
def Sees (sha256 : Bytes → Digest) (lock : Option Nat) (table : List Event) (i : Nat) : Transaction → Prop
  | .started ts => InCalendar ts
  | .locked new => InCalendar new.ts ∧ lock = some i
  | .inserted row => lock = some i ∧ ∃ new, InCalendar new.ts ∧ row = V020.computeRowHash sha256 table new
  | _ => True

structure Serialised (sha256 : Bytes → Digest) (w : Writers) : Prop where
  intact : Intact sha256 w.table
  sees : ∀ i t, w.transactions[i]? = some t → Sees sha256 w.lock w.table i t

theorem serialised_new (clock : Clock) : Serialised sha256 (Writers.new clock) :=
  ⟨Intact.empty, by simp [Writers.new]⟩

theorem Sees.finish {lock : Option Nat} {table : List Event} {i j : Nat} {t : Transaction}
    (sees : Sees sha256 lock table j t) (other : j ≠ i) :
    Sees sha256 (if lock = some i then none else lock) table j t := by
  cases t with
  | started ts => exact sees
  | locked new =>
      obtain ⟨inside, holds⟩ := sees
      exact ⟨inside, by rw [if_neg (by rw [holds]; simpa using other), holds]⟩
  | inserted row =>
      obtain ⟨holds, made⟩ := sees
      exact ⟨by rw [if_neg (by rw [holds]; simpa using other), holds], made⟩
  | committed => trivial
  | aborted => trivial

theorem Sees.of_other {lock lock' : Option Nat} {table table' : List Event} {i j : Nat} {t : Transaction}
    (sees : Sees sha256 lock table j t) (held : lock = none ∨ lock = some i) (other : j ≠ i) :
    Sees sha256 lock' table' j t := by
  have free : lock ≠ some j := by
    rcases held with rfl | rfl
    · simp
    · simpa using Ne.symm other
  cases t with
  | started ts => exact sees
  | locked new => exact absurd sees.2 free
  | inserted row => exact absurd sees.1 free
  | committed => trivial
  | aborted => trivial

theorem Serialised.finish {i : Nat} (serialised : Serialised sha256 w) :
    Serialised sha256 (w.finish i .aborted) := by
  refine ⟨serialised.intact, ?_⟩
  intro j t found
  rcases set_cases found with ⟨-, rfl⟩ | ⟨other, old⟩
  · trivial
  · exact (serialised.sees j t old).finish other

theorem step_serialised (inOrder : commitsInOrder w action = true) (serialised : Serialised sha256 w)
    (stepped : w.step sha256 action = some w') : Serialised sha256 w' := by
  cases action with
  | tick later =>
      simp only [Writers.step] at stepped
      split at stepped
      · cases stepped
        exact ⟨serialised.intact, serialised.sees⟩
      · cases stepped
  | begin =>
      cases stepped
      refine ⟨serialised.intact, ?_⟩
      intro i t found
      rcases snoc_cases found with old | ⟨-, rfl⟩
      · exact serialised.sees i t old
      · exact w.clock.inside
  | lock i columns =>
      simp only [Writers.step] at stepped
      split at stepped
      · rename_i ts started free
        cases stepped
        refine ⟨serialised.intact, ?_⟩
        intro j t found
        rcases set_cases found with ⟨rfl, rfl⟩ | ⟨other, old⟩
        · exact ⟨serialised.sees j _ started, rfl⟩
        · exact (serialised.sees j t old).of_other (Or.inl free) other
      · cases stepped
  | compute i =>
      simp only [Writers.step] at stepped
      split at stepped
      · rename_i new locked
        split at stepped
        · cases stepped
          exact serialised.finish
        · cases stepped
          refine ⟨serialised.intact, ?_⟩
          intro j t found
          rcases set_cases found with ⟨rfl, rfl⟩ | ⟨-, old⟩
          · obtain ⟨inside, holds⟩ := serialised.sees j _ locked
            exact ⟨holds, new, inside, rfl⟩
          · exact serialised.sees j t old
      · cases stepped
  | commit i =>
      simp only [Writers.step] at stepped
      split at stepped
      · rename_i row inserted
        obtain ⟨holds, new, inside, rfl⟩ := serialised.sees i _ inserted
        simp only [commitsInOrder, inserted, List.all_eq_true, decide_eq_true_eq] at inOrder
        cases stepped
        refine ⟨serialised.intact.insert inside inOrder, ?_⟩
        intro j t found
        rcases set_cases found with ⟨-, rfl⟩ | ⟨other, old⟩
        · trivial
        · exact (serialised.sees j t old).of_other (Or.inr holds) other
      · cases stepped
  | abort i =>
      simp only [Writers.step] at stepped
      split at stepped
      · cases stepped
        exact serialised.finish
      · cases stepped
        exact serialised.finish
      · cases stepped
        exact serialised.finish
      · cases stepped

/-- In every run in which rows commit in the order of their timestamps and ids, `verify` reports no break, and the
row in front of each row is the one its trigger read. -/
theorem no_false_alarm (sha256 : Bytes → Digest) (clock : Clock) (actions : List Writers.Action) (w : Writers)
    (inOrder : AllSteps (Writers.step sha256) (fun w action => commitsInOrder w action = true)
      (Writers.new clock) actions)
    (reached : run (Writers.step sha256) (Writers.new clock) actions = some w) :
    scan w.table = w.table ∧ verify sha256 w.table = .ok { rowsChecked := w.table.length, breaks := [] } := by
  have serialised : Serialised sha256 w :=
    invariant_of_allSteps (fun _ _ _ => step_serialised) inOrder (serialised_new clock) reached
  exact ⟨serialised.intact.ordered.scan_eq, serialised.intact.verify_eq⟩

/-! ## Two transactions -/

def firstClock : Clock := ⟨firstRow.ts, by decide⟩

def secondClock : Clock := ⟨secondRow.ts, by decide⟩

def twoWriters (first second : Nat × NewRow) : List Writers.Action :=
  [.begin, .tick secondClock, .begin, .lock first.1 first.2, .compute first.1, .commit first.1,
    .lock second.1 second.2, .compute second.1, .commit second.1]

theorem writers_in_order_verify : ∃ w,
    run (Writers.step sampleSha256) (Writers.new firstClock) (twoWriters (0, firstRow) (1, secondRow)) = some w ∧
      w.table.length = 2 ∧ verify sampleSha256 w.table = .ok { rowsChecked := 2, breaks := [] } := by
  have inOrder : AllSteps (Writers.step sampleSha256) (fun w action => commitsInOrder w action = true)
      (Writers.new firstClock) (twoWriters (0, firstRow) (1, secondRow)) := by decide +kernel
  obtain ⟨w, reached, rows⟩ : ∃ w, run (Writers.step sampleSha256) (Writers.new firstClock)
      (twoWriters (0, firstRow) (1, secondRow)) = some w ∧ w.table.length = 2 := ⟨_, rfl, rfl⟩
  exact ⟨w, reached, rows, rows ▸ (no_false_alarm sampleSha256 firstClock _ w inOrder reached).2⟩

/-- The transaction that started first commits last: its row is scanned first, and chained to the other one. -/
theorem late_commit_false_alarm : ∃ w report,
    run (Writers.step sampleSha256) (Writers.new firstClock) (twoWriters (1, secondRow) (0, firstRow)) = some w ∧
      verify sampleSha256 w.table = .ok report ∧ report.breaks.length = 2 := by
  obtain ⟨w, reached, table⟩ : ∃ w, run (Writers.step sampleSha256) (Writers.new firstClock)
      (twoWriters (1, secondRow) (0, firstRow)) = some w ∧ w.table = [secondRow.chain sampleSha256 none,
        firstRow.chain sampleSha256 (secondRow.chain sampleSha256 none).rowHash] := ⟨_, rfl, rfl⟩
  rw [chain_restart] at table
  have late : firstRow.chain sampleSha256 (some restartDigest.val) =
      ⟨firstRow, some restartDigest.val, some lateDigest.val⟩ := chain_eq firstRow_inside hash_late
  have sorted : scan w.table = [firstRow.chain sampleSha256 (some restartDigest.val),
      ⟨secondRow, some genesisPrevHash.val, some restartDigest.val⟩] := by
    rw [table]
    rfl
  have readable : ∀ r ∈ scan w.table, Readable r := by
    rw [sorted, ← chain_restart]
    simp [chain_readable firstRow_inside, chain_readable secondRow_inside]
  obtain ⟨report, verified, counted⟩ := @verify_misfits sampleSha256 _ readable
  have apart : firstDigest.val ≠ lateDigest.val := by decide
  have missing : misfits sampleSha256 genesisPrevHash.val (scan w.table) = scan w.table := by
    rw [sorted, late]
    simp only [misfits, payload, link, Option.getD_some, hash_firstRow, if_neg apart]
    exact congrArg (List.cons _) (if_neg hash_after_late)
  rw [missing, sorted] at counted
  exact ⟨w, report, reached, verified, counted⟩

end Daimon.Proof.Audit
