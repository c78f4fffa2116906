import Daimon.Lib.Lists

/-!
# Broadcast channels

The receiving end of a bounded broadcast channel. Each receiver has its own backlog; when an item
arrives at a full one, the oldest item is overwritten and the next `recv` reports how many were lost.
-/

namespace Daimon.Lib

/-- `lost` counts the items overwritten since the last `recv`, `lagged` records that any ever was. -/
structure Receiver (α : Type*) where
  backlog : List α
  lost : Nat
  lagged : Bool
  deriving DecidableEq

inductive Received (α : Type*) where
  | item (x : α)
  | lagged (lost : Nat)
  deriving DecidableEq

namespace Receiver

variable {α : Type*} {rx rx' : Receiver α} {capacity : Nat} {x y : α}

def new : Receiver α := { backlog := [], lost := 0, lagged := false }

def deliver (capacity : Nat) (rx : Receiver α) (x : α) : Receiver α :=
  if rx.backlog.length < capacity then { rx with backlog := rx.backlog ++ [x] }
  else { backlog := rx.backlog.tail ++ [x], lost := rx.lost + 1, lagged := true }

def recv (rx : Receiver α) : Option (Received α × Receiver α) :=
  if 0 < rx.lost then some (.lagged rx.lost, { rx with lost := 0 })
  else match rx.backlog with
    | [] => none
    | x :: rest => some (.item x, { rx with backlog := rest })

def overwritten (capacity : Nat) (rx : Receiver α) : Option α :=
  if rx.backlog.length < capacity then none else rx.backlog.head?

inductive Reads (rx : Receiver α) : Received α → Receiver α → Prop
  | lagged (positive : 0 < rx.lost) : Reads rx (.lagged rx.lost) { rx with lost := 0 }
  | item {x : α} {rest : List α} (clear : rx.lost = 0) (next : rx.backlog = x :: rest) :
      Reads rx (.item x) { rx with backlog := rest }

theorem recv_reads {r : Received α} (read : rx.recv = some (r, rx')) : Reads rx r rx' := by
  unfold recv at read
  split at read
  · next positive =>
      obtain ⟨rfl, rfl⟩ := Prod.mk.inj (Option.some.inj read)
      exact .lagged positive
  · next clear =>
      cases next : rx.backlog with
      | nil =>
          rw [next] at read
          cases read
      | cons x rest =>
          rw [next] at read
          obtain ⟨rfl, rfl⟩ := Prod.mk.inj (Option.some.inj read)
          exact .item (by omega) next

theorem recv_item {rest : List α} (clear : rx.lost = 0) (next : rx.backlog = x :: rest) :
    rx.recv = some (.item x, { rx with backlog := rest }) := by
  simp [recv, clear, next]

theorem mem_deliver (member : y ∈ (rx.deliver capacity x).backlog) : y ∈ rx.backlog ∨ y = x := by
  unfold deliver at member
  split at member
  · exact (mem_snoc).mp member
  · rcases (mem_snoc).mp member with kept | new
    · exact Or.inl (List.mem_of_mem_tail kept)
    · exact Or.inr new

theorem mem_of_overwritten (member : y ∈ rx.overwritten capacity) : y ∈ rx.backlog := by
  unfold overwritten at member
  split at member
  · cases member
  · exact List.mem_of_mem_head? member

theorem Reads.mem {r : Received α} (reads : Reads rx r rx') (member : y ∈ rx'.backlog) : y ∈ rx.backlog := by
  cases reads with
  | lagged positive => exact member
  | item clear next => exact next ▸ List.mem_cons_of_mem _ member

/-! ## Receivers that never lagged -/

/-- Unless it lagged, the receiver has nothing lost to report and holds the last items of the log, and it
has passed by no item with `p`. -/
def Follows (log : List α) (p : α → Prop) (rx : Receiver α) : Prop :=
  rx.lagged = false → rx.lost = 0 ∧ ∃ seen, log = seen ++ rx.backlog ∧ ∀ y ∈ seen, ¬p y

variable {log : List α} {p : α → Prop}

theorem follows_new (none : ∀ y ∈ log, ¬p y) : Follows log p new :=
  fun _ => ⟨rfl, log, by simp [new], none⟩

theorem Follows.of_none {q : α → Prop} (follows : Follows log p rx) (none : ∀ y ∈ log, ¬q y) : Follows log q rx := by
  intro unlagged
  obtain ⟨clear, seen, split, -⟩ := follows unlagged
  exact ⟨clear, seen, split, fun y member => none y (split ▸ List.mem_append_left _ member)⟩

theorem follows_deliver (follows : Follows log p rx) : Follows (log ++ [x]) p (rx.deliver capacity x) := by
  intro unlagged
  unfold deliver at unlagged ⊢
  split at unlagged
  · obtain ⟨clear, seen, split, passed⟩ := follows unlagged
    rw [if_pos ‹_›]
    exact ⟨clear, seen, by rw [split, List.append_assoc], passed⟩
  · cases unlagged

theorem follows_skip {rest : List α} (follows : Follows log p rx) (next : rx.backlog = x :: rest)
    (skipped : ¬p x) : Follows log p { rx with backlog := rest } := by
  intro unlagged
  obtain ⟨clear, seen, split, passed⟩ := follows unlagged
  refine ⟨clear, seen ++ [x], by rw [split, next, List.append_assoc]; rfl, ?_⟩
  intro y member
  rcases (mem_snoc).mp member with old | rfl
  · exact passed y old
  · exact skipped

theorem follows_lagged (follows : Follows log p rx) : Follows log p { rx with lost := 0 } :=
  fun unlagged => ⟨rfl, (follows unlagged).2⟩

/-! ## Counting what is held -/

variable {counted : α → Bool}

theorem countP_deliver (kept : ∀ y ∈ rx.overwritten capacity, counted y = false) :
    (rx.deliver capacity x).backlog.countP counted =
      rx.backlog.countP counted + if counted x then 1 else 0 := by
  unfold deliver
  split
  · rw [List.countP_append, List.countP_singleton]
  · next full =>
      rw [List.countP_append, List.countP_singleton]
      cases held : rx.backlog with
      | nil => rfl
      | cons y rest =>
          have dropped : counted y = false := kept y (by rw [overwritten, if_neg full, held]; rfl)
          simp [dropped]

end Receiver
end Daimon.Lib
