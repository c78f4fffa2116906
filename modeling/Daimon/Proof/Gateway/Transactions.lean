import Daimon.Gateway.Matrix

/-!
# Transaction ids of the Matrix adapter
-/

namespace Daimon.Proof.Gateway
open Daimon.Gateway.Matrix

def Told (p q : Put) : Prop := p.room = q.room → p.txn ≠ q.txn

def Unswallowed (requests : List Put) : Prop := requests.Pairwise Told

/-- The `n`-th message of one process and the `m`-th of another are to different rooms, or counted apart. -/
def ApartAcross (sent later : List Outgoing) : Prop :=
  ∀ (n m : Nat) (out out' : Outgoing), sent[n]? = some out → later[m]? = some out' → out.room = out'.room →
    n % 0x10000000000000000 ≠ m % 0x10000000000000000

/-- Within one process two messages to one room are not a full round of the counter apart. -/
def ApartWithin (sent : List Outgoing) : Prop :=
  ∀ (n m : Nat) (out out' : Outgoing), n < m → sent[n]? = some out → sent[m]? = some out' → out.room = out'.room →
    n % 0x10000000000000000 ≠ m % 0x10000000000000000

theorem putsFrom_getElem? (txn : UInt64) (sent : List Outgoing) (n : Nat) :
    (putsFrom txn sent)[n]? = (sent[n]?).map fun out => ⟨out.room, txn + UInt64.ofNat n, out.text⟩ := by
  induction sent generalizing txn n with
  | nil => simp [putsFrom]
  | cons out rest ih =>
      cases n with
      | zero => simp [putsFrom, put]
      | succ n =>
          have next : txn + 1 + UInt64.ofNat n = txn + UInt64.ofNat (n + 1) := by
            rw [UInt64.ofNat_add, UInt64.add_assoc, UInt64.add_comm 1]
            rfl
          simp only [putsFrom, put, List.getElem?_cons_succ, ih, next]

theorem txn_eq_iff (n m : Nat) : (1 : UInt64) + UInt64.ofNat n = 1 + UInt64.ofNat m ↔
    n % 0x10000000000000000 = m % 0x10000000000000000 := by
  rw [UInt64.add_right_inj, ← UInt64.toNat_inj, UInt64.toNat_ofNat', UInt64.toNat_ofNat']

theorem lifetimePuts_getElem? {sent : List Outgoing} {n : Nat} {p : Put} :
    (lifetimePuts sent)[n]? = some p ↔ ∃ out, sent[n]? = some out ∧ ⟨out.room, 1 + UInt64.ofNat n, out.text⟩ = p := by
  rw [lifetimePuts, putsFrom_getElem?, Option.map_eq_some_iff]

theorem pairwise_lifetimePuts {sent : List Outgoing} : (lifetimePuts sent).Pairwise Told ↔ ApartWithin sent := by
  rw [List.pairwise_iff_getElem]
  constructor
  · intro told n m out out' before found found' same counted
    have first := (lifetimePuts_getElem?).mpr ⟨out, found, rfl⟩
    have second := (lifetimePuts_getElem?).mpr ⟨out', found', rfl⟩
    obtain ⟨inside, eq⟩ := List.getElem?_eq_some_iff.mp first
    obtain ⟨inside', eq'⟩ := List.getElem?_eq_some_iff.mp second
    have distinct := told n m inside inside' before
    rw [eq, eq'] at distinct
    exact distinct same ((txn_eq_iff n m).mpr counted)
  · intro apart n m inside inside' before same counted
    obtain ⟨out, found, eq⟩ := (lifetimePuts_getElem?).mp (List.getElem?_eq_getElem inside)
    obtain ⟨out', found', eq'⟩ := (lifetimePuts_getElem?).mp (List.getElem?_eq_getElem inside')
    rw [← eq, ← eq'] at same counted
    exact apart n m out out' before found found' same ((txn_eq_iff n m).mp counted)

theorem told_lifetimePuts {sent later : List Outgoing} :
    (∀ p ∈ lifetimePuts sent, ∀ q ∈ lifetimePuts later, Told p q) ↔ ApartAcross sent later := by
  constructor
  · intro told n m out out' found found' same counted
    have first := List.mem_of_getElem? ((lifetimePuts_getElem?).mpr ⟨out, found, rfl⟩)
    have second := List.mem_of_getElem? ((lifetimePuts_getElem?).mpr ⟨out', found', rfl⟩)
    exact told _ first _ second same ((txn_eq_iff n m).mpr counted)
  · intro apart p first q second same counted
    obtain ⟨n, at'⟩ := List.mem_iff_getElem?.mp first
    obtain ⟨m, at''⟩ := List.mem_iff_getElem?.mp second
    obtain ⟨out, found, rfl⟩ := (lifetimePuts_getElem?).mp at'
    obtain ⟨out', found', rfl⟩ := (lifetimePuts_getElem?).mp at''
    exact apart n m out out' found found' same ((txn_eq_iff n m).mp counted)

theorem apartWithin_of_length {sent : List Outgoing} (few : sent.length ≤ 0x10000000000000000) : ApartWithin sent := by
  intro n m out out' before found found' same
  have := (List.getElem?_eq_some_iff.mp found').1
  omega

/-! ## What the homeserver keeps -/

theorem length_foldl_keep (kept requests : List Put) :
    (requests.foldl keep kept).length ≤ kept.length + requests.length := by
  induction requests generalizing kept with
  | nil => simp
  | cons p rest ih =>
      have bound := ih (keep kept p)
      have one : (keep kept p).length ≤ kept.length + 1 := by
        unfold keep
        split <;> simp
      simp only [List.foldl_cons, List.length_cons]
      omega

theorem foldl_keep_eq_iff (kept requests : List Put) :
    requests.foldl keep kept = kept ++ requests ↔
      (∀ p ∈ kept, ∀ q ∈ requests, Told p q) ∧ requests.Pairwise Told := by
  induction requests generalizing kept with
  | nil => simp
  | cons p rest ih =>
      rw [List.foldl_cons]
      by_cases known : (kept.any fun q => q.room = p.room && q.txn = p.txn) = true
      · have dropped : keep kept p = kept := if_pos known
        rw [dropped]
        refine iff_of_false (fun same => ?_) ?_
        · have bound := length_foldl_keep kept rest
          rw [same, List.length_append, List.length_cons] at bound
          omega
        · rintro ⟨told, -⟩
          obtain ⟨q, member, key⟩ := List.any_eq_true.mp known
          have key : q.room = p.room ∧ q.txn = p.txn := by simpa using key
          exact told q member p List.mem_cons_self key.1 key.2
      · have kept' : keep kept p = kept ++ [p] := if_neg known
        have fresh : ∀ q ∈ kept, Told q p := by
          intro q member room txn
          exact known (List.any_eq_true.mpr ⟨q, member, by simp [room, txn]⟩)
        have shift : kept ++ p :: rest = kept ++ [p] ++ rest := by simp
        rw [kept', shift, ih, List.pairwise_cons]
        grind

theorem homeserver_eq_iff (requests : List Put) : homeserver requests = requests ↔ Unswallowed requests := by
  have kept := foldl_keep_eq_iff [] requests
  simpa [Unswallowed, homeserver] using kept

/-- Exactly when no message is taken for a retransmission, over all processes and all that each of them sends. -/
theorem transaction_ids_unique_iff (lifetimes : List (List Outgoing)) :
    (Unswallowed (puts lifetimes) ↔
        (∀ sent ∈ lifetimes, ApartWithin sent) ∧ lifetimes.Pairwise ApartAcross) ∧
      (homeserver (puts lifetimes) = puts lifetimes ↔ Unswallowed (puts lifetimes)) ∧
      ∀ sent : List Outgoing, sent.length ≤ 0x10000000000000000 → ApartWithin sent := by
  refine ⟨?_, homeserver_eq_iff _, fun sent => apartWithin_of_length⟩
  rw [Unswallowed, puts, List.pairwise_flatMap]
  simp only [pairwise_lifetimePuts, told_lifetimePuts]

/-- The first alert after a restart, to the room of the first reply before it, is swallowed. -/
theorem alert_swallowed :
    ¬Unswallowed (puts [[.reply "!ops:hs" "done"], [.alert "!ops:hs" "disk full"]]) ∧
      homeserver (puts [[.reply "!ops:hs" "done"], [.alert "!ops:hs" "disk full"]]) = [⟨"!ops:hs", 1, "done"⟩] := by
  refine ⟨?_, rfl⟩
  simp [Unswallowed, puts, lifetimePuts, putsFrom, put, Told, Outgoing.room]

end Daimon.Proof.Gateway
