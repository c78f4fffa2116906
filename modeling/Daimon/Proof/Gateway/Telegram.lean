import Daimon.Gateway.Telegram
import Daimon.Lib.Run
import Daimon.Proof.Driver.Param

/-!
# Telegram ingress

Every update is passed on before an offset above it is sent or saved, over all crashes and restarts of the poller.
-/

namespace Daimon.Proof.Gateway.Telegram
open Daimon.Lib Daimon.Driver Daimon.Gateway Daimon.Gateway.Telegram

/-! ## The log -/

def thisRun (log : List Entry) : List Entry := log.takeWhile (· ≠ .started)

def since (u : Update) (log : List Entry) : List Entry := log.takeWhile (· ≠ .passed u)

def Settled (log : List Entry) (offset : Int) : Prop :=
  ∀ u, .posted u ∈ log → u.updateId < offset → .passed u ∈ log

/-- What is asked of an entry, given those before it. -/
def Fits : Entry → List Entry → Prop
  | .posted u, log => ∀ o, .sent o ∈ log ∨ .saved o ∈ log → o ≤ u.updateId
  | .sent o, log => Settled log o
  | .saved o, log => Settled log o ∧ ∀ o', .saved o' ∈ thisRun log → o' < o
  | .passed u, log =>
      (∀ msg, updateToInbound u = .ok msg → log.head? = some (.handled msg)) ∧
        (∀ v, .passed v ∈ thisRun log → v.updateId < u.updateId) ∧
        (.passed u ∈ log → .trouble ∈ since u log ∧ ∀ o, .acked o ∈ log → o ≤ u.updateId)
  | _, _ => True

def Chronicle : List Entry → Prop
  | [] => True
  | e :: log => Fits e log ∧ Chronicle log

section Log
variable {e : Entry} {log : List Entry} {u v : Update} {o : Int}

@[simp] theorem thisRun_cons (other : e ≠ .started) : thisRun (e :: log) = e :: thisRun log := by
  simp [thisRun, other]

@[simp] theorem thisRun_started : thisRun (.started :: log) = [] := by simp [thisRun]

@[simp] theorem since_cons (other : e ≠ .passed u) : since u (e :: log) = e :: since u log := by
  simp [since, other]

@[simp] theorem since_passed : since u (.passed u :: log) = [] := by simp [since]

end Log

/-! ## What holds between the server, the store and the poller -/

structure Book (pending : List Update) (lastId : Option Int) (log : List Entry) : Prop where
  chronicle : Chronicle log
  bounded : ∀ last ∈ lastId, 0 < last ∧ last < 0x7fffffffffffffff
  issued : ∀ u, .posted u ∈ log → 0 < u.updateId ∧ ∃ last ∈ lastId, u.updateId ≤ last
  unique : ∀ u v, .posted u ∈ log → .posted v ∈ log → u.updateId = v.updateId → u = v
  kept : ∀ u, .posted u ∈ log → u ∈ pending ∨ .passed u ∈ log
  known : ∀ u ∈ pending, .posted u ∈ log
  sorted : pending.Pairwise (·.updateId < ·.updateId)
  acked : ∀ o, .acked o ∈ log → ∀ u ∈ pending, o ≤ u.updateId
  offsets : ∀ o, .sent o ∈ log ∨ .saved o ∈ log ∨ .acked o ∈ log → Settled log o ∧ ∃ last ∈ lastId, o ≤ last + 1
  again : ∀ u, .passed u ∈ log → .passed u ∈ thisRun log ∨ .trouble ∈ since u log

/-- What is left of a response: in order, with nothing missing in front, and beyond all that was passed, saved and
acknowledged. -/
structure Ahead (log : List Entry) (us : List Update) : Prop where
  sorted : us.Pairwise (·.updateId < ·.updateId)
  known : ∀ u ∈ us, .posted u ∈ log
  complete : ∀ u ∈ us, ∀ v, .posted v ∈ log → v.updateId < u.updateId → .passed v ∈ log ∨ v ∈ us
  unpassed : ∀ u ∈ us, ∀ v, .passed v ∈ thisRun log → v.updateId < u.updateId
  unsaved : ∀ u ∈ us, ∀ o, .saved o ∈ thisRun log → o ≤ u.updateId
  unacked : ∀ u ∈ us, ∀ o, .acked o ∈ log → o ≤ u.updateId

/-- The offset stands behind what was passed and saved in this run, and nothing below it is open. -/
structure Stands (lastId : Option Int) (log : List Entry) (o : Int) : Prop where
  settled : Settled log o
  bounded : ∃ last ∈ lastId, o ≤ last + 1
  passed : ∀ u, .passed u ∈ thisRun log → u.updateId < o
  saved : ∀ o', .saved o' ∈ thisRun log → o' ≤ o

def Untouched (log : List Entry) : Prop :=
  (∀ u, .passed u ∉ thisRun log) ∧ ∀ o, .saved o ∉ thisRun log

def At (lastId : Option Int) (log : List Entry) : Poller → Prop
  | .down => ∀ u, .passed u ∈ log → .trouble ∈ since u log
  | .starting => Untouched log
  | .polling none => Untouched log
  | .polling (some o) => Stands lastId log o
  | .batch u rest => Ahead log (u :: rest)
  | .handling u msg rest => updateToInbound u = .ok msg ∧ Ahead log (u :: rest)
  | .saving o rest => Stands lastId log o ∧ 0 < o ∧ (∀ o', .saved o' ∈ thisRun log → o' < o) ∧ Ahead log rest ∧
      ∀ u ∈ rest, o ≤ u.updateId

structure Inv (w : World) : Prop where
  book : Book w.pending w.lastId w.log
  row : ∀ text ∈ w.row, ∃ o, parseI64 text.toList = some o ∧ Settled w.log o ∧ ∃ last ∈ w.lastId, o ≤ last + 1
  poller : At w.lastId w.log w.poller

theorem book_new : Book [] none [] :=
  ⟨trivial, by simp, by simp, by simp, by simp, by simp, List.Pairwise.nil, by simp, by simp, by simp⟩

theorem inv_new : Inv World.new := ⟨book_new, by simp [World.new], by simp [World.new, At]⟩

section Entries
variable {pending rest : List Update} {lastId : Option Int} {log : List Entry} {e : Entry} {u : Update} {o : Int}

theorem Settled.cons (settled : Settled log o) (unposted : ∀ u, e ≠ .posted u) : Settled (e :: log) o := by
  intro u posted below
  have earlier : .posted u ∈ log := (List.mem_cons.mp posted).resolve_left (unposted u).symm
  exact List.mem_cons_of_mem _ (settled u earlier below)

theorem Book.cons (book : Book pending lastId log) (fits : Fits e log) (started : e ≠ .started)
    (unposted : ∀ u, e ≠ .posted u)
    (offset : ∀ o, e = .sent o ∨ e = .saved o ∨ e = .acked o → Settled log o ∧ ∃ last ∈ lastId, o ≤ last + 1)
    (acked : ∀ o, e = .acked o → ∀ u ∈ pending, o ≤ u.updateId) : Book pending lastId (e :: log) where
  chronicle := ⟨fits, book.chronicle⟩
  bounded := book.bounded
  issued u posted := book.issued u ((List.mem_cons.mp posted).resolve_left (unposted u).symm)
  unique u v posted posted' := book.unique u v ((List.mem_cons.mp posted).resolve_left (unposted u).symm)
    ((List.mem_cons.mp posted').resolve_left (unposted v).symm)
  kept u posted := (book.kept u ((List.mem_cons.mp posted).resolve_left (unposted u).symm)).imp_right
    (List.mem_cons_of_mem _)
  known u member := List.mem_cons_of_mem _ (book.known u member)
  sorted := book.sorted
  acked o member := (List.mem_cons.mp member).elim (fun same => acked o same.symm) (book.acked o)
  offsets o member := by
    have before : Settled log o ∧ ∃ last ∈ lastId, o ≤ last + 1 := by
      simp only [List.mem_cons] at member
      rcases member with (same | member) | (same | member) | (same | member)
      · exact offset o (Or.inl same.symm)
      · exact book.offsets o (Or.inl member)
      · exact offset o (Or.inr (Or.inl same.symm))
      · exact book.offsets o (Or.inr (Or.inl member))
      · exact offset o (Or.inr (Or.inr same.symm))
      · exact book.offsets o (Or.inr (Or.inr member))
    exact ⟨before.1.cons unposted, before.2⟩
  again u member := by
    rw [thisRun_cons started]
    by_cases same : e = .passed u
    · exact Or.inl (same ▸ List.mem_cons_self)
    · rw [since_cons same]
      have earlier : .passed u ∈ log := (List.mem_cons.mp member).resolve_left fun eq => same eq.symm
      exact (book.again u earlier).imp (List.mem_cons_of_mem _) (List.mem_cons_of_mem _)

def Remark (e : Entry) : Prop := e = .trouble ∨ ∃ msg, e = .handled msg

theorem Book.remark (book : Book pending lastId log) (remark : Remark e) : Book pending lastId (e :: log) := by
  rcases remark with rfl | ⟨msg, rfl⟩ <;> exact book.cons trivial nofun nofun (by simp) nofun

/-- Entries that leave what is ahead as it is. -/
def Aside (e : Entry) : Prop := Remark e ∨ ∃ o, e = .sent o

theorem Ahead.aside {us : List Update} (ahead : Ahead log us) (aside : Aside e) : Ahead (e :: log) us := by
  obtain ⟨sorted, known, complete, unpassed, unsaved, unacked⟩ := ahead
  rcases aside with (rfl | ⟨msg, rfl⟩) | ⟨o, rfl⟩ <;>
    exact ⟨sorted, by simpa using known, by simpa using complete, by simpa using unpassed, by simpa using unsaved,
      by simpa using unacked⟩

theorem Stands.aside (stands : Stands lastId log o) (aside : Aside e ∨ ∃ o, e = .acked o) :
    Stands lastId (e :: log) o := by
  obtain ⟨settled, bounded, passed, saved⟩ := stands
  rcases aside with ((rfl | ⟨msg, rfl⟩) | ⟨o, rfl⟩) | ⟨o, rfl⟩ <;>
    exact ⟨settled.cons nofun, bounded, by simpa using passed, by simpa using saved⟩

theorem Untouched.aside (untouched : Untouched log) (aside : Aside e) : Untouched (e :: log) := by
  obtain ⟨passed, saved⟩ := untouched
  rcases aside with (rfl | ⟨msg, rfl⟩) | ⟨o, rfl⟩ <;> exact ⟨by simpa using passed, by simpa using saved⟩

theorem Settled.posted (settled : Settled log o) (below : o ≤ u.updateId) : Settled (.posted u :: log) o := by
  intro v posted small
  rcases List.mem_cons.mp posted with same | earlier
  · obtain rfl := Entry.posted.inj same
    omega
  · exact List.mem_cons_of_mem _ (settled v earlier small)

/-! ## Posting -/

theorem follows_lt (follows : idFollows lastId u.updateId) : 0 < u.updateId ∧ u.updateId < 0x7fffffffffffffff ∧
    ∀ last ∈ lastId, last < u.updateId := by
  simp only [idFollows, Bool.and_eq_true, decide_eq_true_eq, Option.all_eq_true] at follows
  exact ⟨follows.1.1, follows.1.2, fun last is => follows.2 last is⟩

theorem offset_le (follows : idFollows lastId u.updateId) (bounded : ∃ last ∈ lastId, o ≤ last + 1) :
    o ≤ u.updateId := by
  obtain ⟨last, is, below⟩ := bounded
  have := (follows_lt follows).2.2 last is
  omega

theorem Book.post (book : Book pending lastId log) (follows : idFollows lastId u.updateId) :
    Book (pending ++ [u]) (some u.updateId) (.posted u :: log) := by
  obtain ⟨positive, small, above⟩ := follows_lt follows
  have later : ∀ v, .posted v ∈ log → v.updateId < u.updateId := by
    intro v posted
    obtain ⟨-, last, is, below⟩ := book.issued v posted
    have := above last is
    omega
  refine ⟨⟨fun o member => ?_, book.chronicle⟩, ?_, ?_, ?_, ?_, ?_, ?_, ?_, ?_, ?_⟩
  · exact offset_le follows (book.offsets o (member.imp_right Or.inl)).2
  · rintro _ ⟨rfl⟩
    exact ⟨positive, small⟩
  · intro v posted
    rcases List.mem_cons.mp posted with same | earlier
    · obtain rfl := Entry.posted.inj same
      exact ⟨positive, _, rfl, Int.le_refl _⟩
    · exact ⟨(book.issued v earlier).1, _, rfl, Int.le_of_lt (later v earlier)⟩
  · intro v v' posted posted' same
    rcases List.mem_cons.mp posted with eq | earlier <;> rcases List.mem_cons.mp posted' with eq' | earlier'
    · exact (Entry.posted.inj eq).trans (Entry.posted.inj eq').symm
    · obtain rfl := Entry.posted.inj eq
      exact absurd same.symm (Int.ne_of_lt (later v' earlier'))
    · obtain rfl := Entry.posted.inj eq'
      exact absurd same (Int.ne_of_lt (later v earlier))
    · exact book.unique v v' earlier earlier' same
  · intro v posted
    rcases List.mem_cons.mp posted with same | earlier
    · exact Or.inl (by simp [Entry.posted.inj same])
    · exact (book.kept v earlier).imp (List.mem_append_left _) (List.mem_cons_of_mem _)
  · intro v member
    rcases List.mem_append.mp member with old | new
    · exact List.mem_cons_of_mem _ (book.known v old)
    · rw [List.mem_singleton.mp new]
      exact List.mem_cons_self
  · refine List.pairwise_append.mpr ⟨book.sorted, List.pairwise_singleton _ _, ?_⟩
    intro v member u' is
    rw [List.mem_singleton.mp is]
    exact later v (book.known v member)
  · intro o acked v member
    have acked : .acked o ∈ log := by simpa using acked
    rcases List.mem_append.mp member with old | new
    · exact book.acked o acked v old
    · rw [List.mem_singleton.mp new]
      exact offset_le follows (book.offsets o (Or.inr (Or.inr acked))).2
  · intro o member
    have ⟨settled, bounded⟩ := book.offsets o (by simpa using member)
    have below := offset_le follows bounded
    exact ⟨settled.posted below, _, rfl, by omega⟩
  · intro v passed
    have passed : .passed v ∈ log := by simpa using passed
    simpa using book.again v passed

theorem Stands.post (stands : Stands lastId log o) (follows : idFollows lastId u.updateId) :
    Stands (some u.updateId) (.posted u :: log) o := by
  have below := offset_le follows stands.bounded
  exact ⟨stands.settled.posted below, ⟨_, rfl, by omega⟩, by simpa using stands.passed, by simpa using stands.saved⟩

theorem Ahead.post {us : List Update} (ahead : Ahead log us) (book : Book pending lastId log)
    (follows : idFollows lastId u.updateId) : Ahead (.posted u :: log) us := by
  refine ⟨ahead.sorted, fun v member => List.mem_cons_of_mem _ (ahead.known v member), ?_, by simpa using ahead.unpassed,
    by simpa using ahead.unsaved, by simpa using ahead.unacked⟩
  intro v member v' posted below
  rcases List.mem_cons.mp posted with same | earlier
  · obtain rfl := Entry.posted.inj same
    obtain ⟨-, last, is, issued⟩ := book.issued v (ahead.known v member)
    have := (follows_lt follows).2.2 last is
    omega
  · exact (ahead.complete v member v' earlier below).imp_left (List.mem_cons_of_mem _)

theorem At.post {poller : Poller} (at' : At lastId log poller) (book : Book pending lastId log)
    (follows : idFollows lastId u.updateId) : At (some u.updateId) (.posted u :: log) poller := by
  cases poller with
  | down =>
      intro v passed
      simpa using at' v (by simpa using passed)
  | starting => exact ⟨by simpa using at'.1, by simpa using at'.2⟩
  | polling offset =>
      cases offset with
      | none => exact ⟨by simpa using at'.1, by simpa using at'.2⟩
      | some o => exact Stands.post at' follows
  | batch u rest => exact Ahead.post at' book follows
  | handling u msg rest => exact ⟨at'.1, at'.2.post book follows⟩
  | saving o rest =>
      obtain ⟨stands, positive, saved, ahead, beyond⟩ := at'
      exact ⟨stands.post follows, positive, by simpa using saved, ahead.post book follows, beyond⟩

/-! ## Fetching -/

theorem ahead_take (book : Book pending lastId log) (count : Nat)
    (unpassed : ∀ u ∈ pending, ∀ v, .passed v ∈ thisRun log → v.updateId < u.updateId)
    (unsaved : ∀ u ∈ pending, ∀ o, .saved o ∈ thisRun log → o ≤ u.updateId) : Ahead log (pending.take count) := by
  have sub := List.take_sublist count pending
  refine ⟨book.sorted.sublist sub, fun u member => book.known u (sub.subset member), ?_,
    fun u member => unpassed u (sub.subset member), fun u member => unsaved u (sub.subset member),
    fun u member o acked => book.acked o acked u (sub.subset member)⟩
  intro u member v posted below
  rcases book.kept v posted with queued | passed
  · refine Or.inr ?_
    -- an update that is not among the first comes after them
    rw [← List.take_append_drop count pending] at queued
    rcases List.mem_append.mp queued with first | later
    · exact first
    · have sorted := book.sorted
      rw [← List.take_append_drop count pending, List.pairwise_append] at sorted
      have := sorted.2.2 u member v later
      omega
  · exact Or.inl passed

theorem Book.forget (book : Book pending lastId log) (settled : Settled log o) :
    Book (pending.filter fun u => o ≤ u.updateId) lastId log := by
  have sub : (pending.filter fun u => o ≤ u.updateId).Sublist pending := List.filter_sublist
  refine ⟨book.chronicle, book.bounded, book.issued, book.unique, ?_, fun u member => book.known u (sub.subset member),
    book.sorted.sublist sub, fun o acked u member => book.acked o acked u (sub.subset member), book.offsets, book.again⟩
  intro u posted
  rcases book.kept u posted with queued | passed
  · by_cases below : u.updateId < o
    · exact Or.inr (settled u posted below)
    · exact Or.inl (List.mem_filter.mpr ⟨queued, decide_eq_true (by omega)⟩)
  · exact Or.inr passed

theorem Book.sent (book : Book pending lastId log) (stands : Stands lastId log o) :
    Book pending lastId (.sent o :: log) := by
  refine book.cons stands.settled nofun nofun ?_ nofun
  intro o' same
  obtain rfl : o = o' := by simpa using same
  exact ⟨stands.settled, stands.bounded⟩

theorem Book.acknowledge (book : Book pending lastId log) (stands : Stands lastId log o) :
    Book (pending.filter fun u => o ≤ u.updateId) lastId (.acked o :: log) := by
  refine (book.forget stands.settled).cons trivial nofun nofun ?_ ?_
  · intro o' same
    obtain rfl : o = o' := by simpa using same
    exact ⟨stands.settled, stands.bounded⟩
  · intro o' same u member
    obtain rfl : o = o' := by simpa using same
    exact of_decide_eq_true (List.mem_filter.mp member).2

theorem at_next {us : List Update} {offset : Option Int} (polling : At lastId log (.polling offset))
    (ahead : Ahead log us) : At lastId log (next? offset us) := by
  cases us with
  | nil => exact polling
  | cons u rest => exact ahead

/-! ## Passing an update on -/

theorem Book.pass (book : Book pending lastId log) (ahead : Ahead log (u :: rest))
    (handled : ∀ msg, updateToInbound u = .ok msg → log.head? = some (.handled msg)) :
    Book pending lastId (.passed u :: log) := by
  refine book.cons ⟨handled, ahead.unpassed u List.mem_cons_self, fun before => ?_⟩ nofun nofun (by simp) nofun
  refine ⟨(book.again u before).resolve_left fun inRun => ?_, ahead.unacked u List.mem_cons_self⟩
  have := ahead.unpassed u List.mem_cons_self u inRun
  omega

theorem next_eq (book : Book pending lastId log) (posted : .posted u ∈ log) : next u = u.updateId + 1 := by
  obtain ⟨positive, last, is, below⟩ := book.issued u posted
  have := (book.bounded last is).2
  apply Int.bmod_eq_of_le
  · omega
  · omega

theorem at_passed (book : Book pending lastId log) (ahead : Ahead log (u :: rest)) :
    At lastId (.passed u :: log) (.saving (next u) rest) := by
  have known := ahead.known u List.mem_cons_self
  obtain ⟨positive, last, is, below⟩ := book.issued u known
  have beyond : ∀ v ∈ rest, u.updateId < v.updateId := (List.pairwise_cons.mp ahead.sorted).1
  have first : ∀ v, .posted v ∈ log → v.updateId < u.updateId → .passed v ∈ log := by
    intro v posted small
    refine (ahead.complete u List.mem_cons_self v posted small).resolve_right fun member => ?_
    rcases List.mem_cons.mp member with rfl | later
    · omega
    · have := beyond v later
      omega
  have unsaved := ahead.unsaved u List.mem_cons_self
  have unpassed := ahead.unpassed u List.mem_cons_self
  rw [next_eq book known]
  refine ⟨⟨?_, ⟨last, is, by omega⟩, ?_, ?_⟩, by omega, ?_, ⟨?_, ?_, ?_, ?_, ?_, ?_⟩, ?_⟩
  · intro v posted small
    have posted : .posted v ∈ log := by simpa using posted
    by_cases same : v.updateId = u.updateId
    · rw [book.unique v u posted known same]
      exact List.mem_cons_self
    · exact List.mem_cons_of_mem _ (first v posted (by omega))
  · intro v passed
    have passed : v = u ∨ .passed v ∈ thisRun log := by simpa using passed
    rcases passed with rfl | earlier
    · omega
    · have := unpassed v earlier
      omega
  · intro o saved
    have := unsaved o (by simpa using saved)
    omega
  · intro o saved
    have := unsaved o (by simpa using saved)
    omega
  · exact (List.pairwise_cons.mp ahead.sorted).2
  · intro v member
    simpa using ahead.known v (List.mem_cons_of_mem _ member)
  · intro v member v' posted small
    have posted : .posted v' ∈ log := by simpa using posted
    rcases ahead.complete v (List.mem_cons_of_mem _ member) v' posted small with passed | inside
    · exact Or.inl (List.mem_cons_of_mem _ passed)
    · rcases List.mem_cons.mp inside with rfl | later
      · exact Or.inl List.mem_cons_self
      · exact Or.inr later
  · intro v member v' passed
    have passed : v' = u ∨ .passed v' ∈ thisRun log := by simpa using passed
    rcases passed with rfl | earlier
    · exact beyond v member
    · exact ahead.unpassed v (List.mem_cons_of_mem _ member) v' earlier
  · intro v member o saved
    exact ahead.unsaved v (List.mem_cons_of_mem _ member) o (by simpa using saved)
  · intro v member o acked
    exact ahead.unacked v (List.mem_cons_of_mem _ member) o (by simpa using acked)
  · intro v member
    have := beyond v member
    omega

/-! ## Saving -/

theorem parseDigits_toDigits (n : Nat) : parseDigits (Nat.toDigits 10 n) = some n := by
  apply Driver.parseDigits_eq_some.mpr
  refine ⟨Nat.toDigits_ne_nil, ?_, Nat.ofDigitChars_ten_toDigits⟩
  intro c member
  exact Nat.isDigit_of_mem_toDigits (by decide) (by decide) member

theorem parseI64_toString {n : Int} (positive : 0 < n) (fits : n ≤ 0x7fffffffffffffff) :
    parseI64 (toString n).toList = some n := by
  obtain ⟨k, rfl⟩ := Int.eq_ofNat_of_zero_le (Int.le_of_lt positive)
  have text : (toString (k : Int)).toList = Nat.toDigits 10 k := by
    rw [show toString (k : Int) = toString k from rfl, Nat.toString_eq_ofList_toDigits, String.toList_ofList]
  obtain ⟨c, cs, digits⟩ := List.exists_cons_of_ne_nil (Nat.toDigits_ne_nil (n := k) (b := 10))
  have digit : c.isDigit = true :=
    Nat.isDigit_of_mem_toDigits (by decide) (by decide) (digits ▸ List.mem_cons_self)
  have parsed := parseDigits_toDigits k
  rw [text]
  rw [digits] at parsed ⊢
  have minus : c ≠ '-' := by
    rintro rfl
    cases digit
  have plus : c ≠ '+' := by
    rintro rfl
    cases digit
  unfold parseI64
  split
  · rename_i same
    exact absurd (List.cons.inj same).1 minus
  · rename_i same
    exact absurd (List.cons.inj same).1 plus
  · have small : k < 0x8000000000000000 := by omega
    have kept : (some k).filter (fun n => decide (n < 0x8000000000000000)) = some k :=
      Option.filter_eq_some_iff.mpr ⟨rfl, decide_eq_true small⟩
    rw [parsed, kept]
    rfl

/-- A stored offset is one that the poller reads back, with nothing open below it. -/
def Stored (lastId : Option Int) (log : List Entry) (row : Option String) : Prop :=
  ∀ text ∈ row, ∃ o, parseI64 text.toList = some o ∧ Settled log o ∧ ∃ last ∈ lastId, o ≤ last + 1

theorem Stored.cons {row : Option String} (stored : Stored lastId log row) (unposted : ∀ u, e ≠ .posted u) :
    Stored lastId (e :: log) row := by
  intro text is
  obtain ⟨o, parsed, settled, bounded⟩ := stored text is
  exact ⟨o, parsed, settled.cons unposted, bounded⟩

theorem Stored.post {row : Option String} (stored : Stored lastId log row) (follows : idFollows lastId u.updateId) :
    Stored (some u.updateId) (.posted u :: log) row := by
  intro text is
  obtain ⟨o, parsed, settled, bounded⟩ := stored text is
  have below := offset_le follows bounded
  exact ⟨o, parsed, settled.posted below, _, rfl, by omega⟩

theorem Stands.stored (stands : Stands lastId log o) (book : Book pending lastId log) (positive : 0 < o) :
    Stored lastId log (some (toString o)) := by
  rintro _ ⟨rfl⟩
  obtain ⟨last, is, below⟩ := stands.bounded
  have small := (book.bounded last is).2
  exact ⟨o, parseI64_toString positive (by omega), stands.settled, stands.bounded⟩

theorem Book.save (book : Book pending lastId log) (stands : Stands lastId log o)
    (saved : ∀ o', .saved o' ∈ thisRun log → o' < o) : Book pending lastId (.saved o :: log) := by
  refine book.cons ⟨stands.settled, saved⟩ nofun nofun ?_ nofun
  intro o' same
  obtain rfl : o = o' := by simpa using same
  exact ⟨stands.settled, stands.bounded⟩

theorem Stands.save (stands : Stands lastId log o) : Stands lastId (.saved o :: log) o := by
  refine ⟨stands.settled.cons nofun, stands.bounded, by simpa using stands.passed, fun o' saved => ?_⟩
  have saved : o' = o ∨ .saved o' ∈ thisRun log := by simpa using saved
  rcases saved with rfl | earlier
  · omega
  · exact stands.saved o' earlier

theorem Ahead.save {us : List Update} (ahead : Ahead log us) (beyond : ∀ u ∈ us, o ≤ u.updateId) :
    Ahead (.saved o :: log) us := by
  refine ⟨ahead.sorted, by simpa using ahead.known, by simpa using ahead.complete, by simpa using ahead.unpassed, ?_,
    by simpa using ahead.unacked⟩
  intro u member o' saved
  have saved : o' = o ∨ .saved o' ∈ thisRun log := by simpa using saved
  rcases saved with rfl | earlier
  · exact beyond u member
  · exact ahead.unsaved u member o' earlier

end Entries

/-! ## Steps -/

section Steps
variable {w w' : World}

theorem inv_post (inv : Inv w) {update : Update} (taken : step w (.post update) = some w') : Inv w' := by
  simp only [step] at taken
  split at taken
  · rename_i follows
    obtain rfl := Option.some.inj taken
    exact ⟨inv.book.post follows, Stored.post inv.row follows, inv.poller.post inv.book follows⟩
  · cases taken

theorem inv_start (inv : Inv w) (taken : step w .start = some w') : Inv w' := by
  simp only [step] at taken
  split at taken
  · rename_i down
    obtain rfl := Option.some.inj taken
    have troubled : At w.lastId w.log .down := down ▸ inv.poller
    have book := inv.book
    refine ⟨⟨⟨trivial, book.chronicle⟩, book.bounded, by simpa using book.issued, by simpa using book.unique,
      by simpa using book.kept, by simpa using book.known, book.sorted, by simpa using book.acked, ?_, ?_⟩,
      Stored.cons inv.row nofun, ⟨by simp, by simp⟩⟩
    · intro o member
      obtain ⟨settled, bounded⟩ := book.offsets o (by simpa using member)
      exact ⟨settled.cons nofun, bounded⟩
    · intro u passed
      have before := troubled u (by simpa using passed)
      exact Or.inr (by simpa using before)
  · cases taken

theorem inv_load (inv : Inv w) {answered : Bool} (taken : step w (.load answered) = some w') : Inv w' := by
  simp only [step] at taken
  split at taken
  · rename_i starting
    obtain rfl := Option.some.inj taken
    have untouched : At w.lastId w.log .starting := starting ▸ inv.poller
    cases answered with
    | false =>
        exact ⟨inv.book.remark (Or.inl rfl), Stored.cons inv.row nofun, untouched.aside (Or.inl (Or.inl rfl))⟩
    | true =>
        refine ⟨inv.book, inv.row, ?_⟩
        cases stored : w.row with
        | none => exact untouched
        | some text =>
            obtain ⟨o, parsed, settled, bounded⟩ := inv.row text stored
            simp only [loadCursor, if_true, Option.bind_some, parsed]
            exact ⟨settled, bounded, fun u passed => absurd passed (untouched.1 u),
              fun o' saved => absurd saved (untouched.2 o')⟩
  · cases taken

theorem inv_fetch (inv : Inv w) {outcome : Fetched} (taken : step w (.fetch outcome) = some w') : Inv w' := by
  simp only [step] at taken
  split at taken
  · rename_i offset polling
    have at' : At w.lastId w.log (.polling offset) := polling ▸ inv.poller
    have book := inv.book
    cases offset with
    | none =>
        have ahead := fun count => ahead_take book count (fun u _ v passed => absurd passed (at'.1 v))
          fun u _ o saved => absurd saved (at'.2 o)
        cases outcome with
        | unreached | lost =>
            obtain rfl := Option.some.inj taken
            exact inv
        | answered count =>
            obtain rfl := Option.some.inj taken
            exact ⟨book, inv.row, at_next at' (ahead count)⟩
    | some o =>
        have sent := book.sent at'
        have stands : Stands w.lastId (.sent o :: w.log) o := Stands.aside at' (Or.inl (Or.inr ⟨o, rfl⟩))
        have acked := sent.acknowledge stands
        have stands' : Stands w.lastId (.acked o :: .sent o :: w.log) o := stands.aside (Or.inr ⟨o, rfl⟩)
        have row : Stored w.lastId (.sent o :: w.log) w.row := Stored.cons inv.row nofun
        have row' : Stored w.lastId (.acked o :: .sent o :: w.log) w.row := row.cons nofun
        have beyond : ∀ u ∈ w.pending.filter fun u => o ≤ u.updateId, o ≤ u.updateId :=
          fun u member => of_decide_eq_true (List.mem_filter.mp member).2
        have ahead := fun count => ahead_take acked count
          (fun u member v passed => by
            have := stands'.passed v passed
            have := beyond u member
            omega)
          fun u member o' saved => by
            have := stands'.saved o' saved
            have := beyond u member
            omega
        cases outcome with
        | unreached =>
            obtain rfl := Option.some.inj taken
            refine ⟨sent, row, ?_⟩
            rw [polling]
            exact stands
        | lost =>
            obtain rfl := Option.some.inj taken
            refine ⟨acked, row', ?_⟩
            rw [polling]
            exact stands'
        | answered count =>
            obtain rfl := Option.some.inj taken
            exact ⟨acked, row', at_next stands' (ahead count)⟩
  · cases taken

theorem inv_inbound (inv : Inv w) (taken : step w .inbound = some w') : Inv w' := by
  simp only [step] at taken
  split at taken
  · rename_i u rest batch
    have ahead : At w.lastId w.log (.batch u rest) := batch ▸ inv.poller
    split at taken
    · rename_i msg inbound
      obtain rfl := Option.some.inj taken
      exact ⟨inv.book, inv.row, inbound, ahead⟩
    · rename_i error inbound
      obtain rfl := Option.some.inj taken
      refine ⟨inv.book.pass ahead fun msg ok => ?_, Stored.cons inv.row nofun, at_passed inv.book ahead⟩
      rw [inbound] at ok
      cases ok
  · cases taken

theorem inv_handlerReturns (inv : Inv w) (taken : step w .handlerReturns = some w') : Inv w' := by
  simp only [step] at taken
  split at taken
  · rename_i u msg rest handling
    obtain rfl := Option.some.inj taken
    have at' : At w.lastId w.log (.handling u msg rest) := handling ▸ inv.poller
    obtain ⟨inbound, ahead⟩ := at'
    have book : Book w.pending w.lastId (.handled msg :: w.log) := inv.book.remark (Or.inr ⟨msg, rfl⟩)
    have ahead : Ahead (.handled msg :: w.log) (u :: rest) := ahead.aside (Or.inl (Or.inr ⟨msg, rfl⟩))
    have row : Stored w.lastId (.handled msg :: w.log) w.row := Stored.cons inv.row nofun
    refine ⟨book.pass ahead fun msg' ok => ?_, row.cons nofun, at_passed book ahead⟩
    rw [inbound] at ok
    rw [Except.ok.inj ok]
    rfl
  · cases taken

theorem inv_save (inv : Inv w) {outcome : Saved} (taken : step w (.save outcome) = some w') : Inv w' := by
  simp only [step] at taken
  split at taken
  · rename_i o rest saving
    obtain rfl := Option.some.inj taken
    have at' : At w.lastId w.log (.saving o rest) := saving ▸ inv.poller
    obtain ⟨stands, positive, saved, ahead, beyond⟩ := at'
    have book := inv.book.save stands saved
    have row := stands.save.stored book positive
    have ahead' := ahead.save beyond
    have aside : Aside .trouble := Or.inl (Or.inl rfl)
    cases outcome with
    | done => exact ⟨book, row, at_next stands.save ahead'⟩
    | failed =>
        exact ⟨inv.book.remark (Or.inl rfl), Stored.cons inv.row nofun,
          at_next (stands.aside (Or.inl aside)) (ahead.aside aside)⟩
    | unanswered =>
        exact ⟨book.remark (Or.inl rfl), row.cons nofun,
          at_next (stands.save.aside (Or.inl aside)) (ahead'.aside aside)⟩
  · cases taken

theorem inv_step (inv : Inv w) {label : Label} (taken : step w label = some w') : Inv w' := by
  cases label with
  | post update => exact inv_post inv taken
  | start => exact inv_start inv taken
  | load answered => exact inv_load inv taken
  | fetch outcome => exact inv_fetch inv taken
  | inbound => exact inv_inbound inv taken
  | handlerReturns => exact inv_handlerReturns inv taken
  | save outcome => exact inv_save inv taken
  | crash =>
      obtain rfl := Option.some.inj taken
      refine ⟨inv.book.remark (Or.inl rfl), Stored.cons inv.row nofun, fun u passed => ?_⟩
      simp

/-- In every run of Telegram and the poller: no update is skipped, updates are passed on in order and saved offsets
increase within a run, and an update is passed on again only after trouble, before the server has seen an offset above
it. -/
theorem telegram_at_least_once {es : List Label} (reached : run step World.new es = some w) : Chronicle w.log :=
  (invariant_of_run (fun _ _ _ inv taken => inv_step inv taken) inv_new reached).book.chronicle

def greeting : Update := ⟨7, some ⟨some "hi", some 1, 2, none⟩⟩

/-- An update is handled, but its offset is not saved; after a restart it is handled once more. -/
def restarted : List Label :=
  [.post greeting, .start, .load true, .fetch (.answered 100), .inbound, .handlerReturns, .crash, .start, .load true,
    .fetch (.answered 100), .inbound, .handlerReturns, .save .done]

theorem handled_again :
    ∃ w, run step World.new restarted = some w ∧ Chronicle w.log ∧ w.log.count (.passed greeting) = 2 := by
  obtain ⟨w, ran, twice⟩ : ∃ w, run step World.new restarted = some w ∧ w.log.count (.passed greeting) = 2 :=
    ⟨_, rfl, by decide⟩
  exact ⟨w, ran, telegram_at_least_once ran, twice⟩

end Steps

end Daimon.Proof.Gateway.Telegram
