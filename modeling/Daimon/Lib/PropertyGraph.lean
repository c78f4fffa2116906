import Daimon.Lib.Lists

/-!
# Property graphs

A graph of keyed nodes with properties and of labelled edges, under the two ways to `MERGE` into it: a node is created
under its key if there is none, and an edge between two nodes that a `MATCH` finds is created if it is not there. What a
batch leaves depends on the set of its statements as long as every edge comes after its ends and a key is created in one
way.
-/

namespace Daimon.Lib

structure PropertyGraph (κ ρ π : Type*) where
  nodes : List (κ × π)
  edges : List (κ × ρ × κ)
  deriving DecidableEq

namespace PropertyGraph
variable {κ ρ π : Type*}

/-- `assign` is a `SET` on creation and on a match. -/
inductive Op (κ ρ π : Type*) where
  | node (key : κ) (onCreate : π)
  | assign (key : κ) (value : π)
  | edge (source : κ) (rel : ρ) (target : κ)
  deriving DecidableEq

def empty : PropertyGraph κ ρ π := { nodes := [], edges := [] }

def keys (g : PropertyGraph κ ρ π) : List κ := g.nodes.map Prod.fst

/-- The keys a statement creates. -/
def created : Op κ ρ π → Option κ
  | .node key _ => some key
  | .assign key _ => some key
  | .edge _ _ _ => none

/-- An edge statement whose ends are there in the end finds them, in what was there or in what came before it. -/
def Settled (final known : κ → Prop) : List (Op κ ρ π) → Prop
  | [] => True
  | op :: ops => (∀ source rel target, op = .edge source rel target → final source → final target →
      known source ∧ known target) ∧ Settled final (fun key => known key ∨ created op = some key) ops

def onlyMerges (ops : List (Op κ ρ π)) : Prop := ∀ key value, .assign key value ∉ ops

/-- A key is created with the same properties wherever it is created. -/
def Coherent (ops : List (Op κ ρ π)) : Prop :=
  ∀ key value value', .node key value ∈ ops → .node key value' ∈ ops → value = value'

variable {g : PropertyGraph κ ρ π} {op : Op κ ρ π} {ops : List (Op κ ρ π)} {key : κ}

theorem Settled.mono {final known more : κ → Prop} (settled : Settled final known ops)
    (wider : ∀ key, known key → more key) : Settled final more ops := by
  induction ops generalizing known more with
  | nil => trivial
  | cons op ops ih =>
      constructor
      · intro source rel target is_edge source_final target_final
        exact (settled.1 source rel target is_edge source_final target_final).imp (wider _) (wider _)
      · apply ih settled.2
        rintro key (old | new)
        · exact Or.inl (wider key old)
        · exact Or.inr new

theorem Settled.append {final known : κ → Prop} {later : List (Op κ ρ π)} (settled : Settled final known ops)
    (next : Settled final (fun key => known key ∨ ∃ op ∈ ops, created op = some key) later) :
    Settled final known (ops ++ later) := by
  induction ops generalizing known with
  | nil => exact next.mono (by simp)
  | cons op ops ih =>
      refine ⟨settled.1, ih settled.2 (next.mono ?_)⟩
      rintro key (old | ⟨op', member, made⟩)
      · exact Or.inl (Or.inl old)
      · rcases List.mem_cons.mp member with rfl | later
        · exact Or.inl (Or.inr made)
        · exact Or.inr ⟨op', later, made⟩

theorem settled_of_ends {final known : κ → Prop}
    (ends : ∀ source rel target, .edge source rel target ∈ ops → final source → final target →
      known source ∧ known target) : Settled final known ops := by
  induction ops generalizing known with
  | nil => trivial
  | cons op ops ih =>
      constructor
      · rintro source rel target rfl
        exact ends source rel target List.mem_cons_self
      · apply ih
        intro source rel target member source_final target_final
        exact (ends source rel target (List.mem_cons_of_mem _ member) source_final target_final).imp Or.inl Or.inl

section Nodes
variable [DecidableEq κ]

def props (g : PropertyGraph κ ρ π) (key : κ) : Option π := g.nodes.lookup key

/-- The same nodes with the same properties, and the same edges. -/
structure Same (g h : PropertyGraph κ ρ π) : Prop where
  props : ∀ key, g.props key = h.props key
  edges : ∀ e, e ∈ g.edges ↔ e ∈ h.edges

theorem mem_keys : key ∈ g.keys ↔ (g.props key).isSome := by
  rw [props, List.lookup_isSome_iff, keys, List.mem_map]
  constructor
  · rintro ⟨⟨k, value⟩, member, rfl⟩
    exact ⟨(k, value), member, by simp⟩
  · rintro ⟨entry, member, same⟩
    exact ⟨entry, member, by simpa using Eq.symm (eq_of_beq same)⟩

theorem keys_assign (g : PropertyGraph κ ρ π) (key : κ) (value : π) :
    (g.nodes.map fun (k, old) => (k, if k = key then value else old)).map Prod.fst = g.keys := by
  rw [keys, List.map_map]
  rfl

end Nodes

variable [DecidableEq κ] [DecidableEq ρ]

def apply (g : PropertyGraph κ ρ π) : Op κ ρ π → PropertyGraph κ ρ π
  | .node key onCreate => if key ∈ g.keys then g else { g with nodes := g.nodes ++ [(key, onCreate)] }
  | .assign key value =>
      if key ∈ g.keys then { g with nodes := g.nodes.map fun (k, old) => (k, if k = key then value else old) }
      else { g with nodes := g.nodes ++ [(key, value)] }
  | .edge source rel target =>
      if source ∈ g.keys ∧ target ∈ g.keys ∧ (source, rel, target) ∉ g.edges then
        { g with edges := g.edges ++ [(source, rel, target)] }
      else g

def exec (g : PropertyGraph κ ρ π) (ops : List (Op κ ρ π)) : PropertyGraph κ ρ π := ops.foldl apply g

@[simp] theorem exec_nil (g : PropertyGraph κ ρ π) : g.exec [] = g := rfl

theorem exec_cons (g : PropertyGraph κ ρ π) (op : Op κ ρ π) (ops : List (Op κ ρ π)) :
    g.exec (op :: ops) = (g.apply op).exec ops := rfl

theorem exec_append (g : PropertyGraph κ ρ π) (ops later : List (Op κ ρ π)) :
    g.exec (ops ++ later) = (g.exec ops).exec later := List.foldl_append

/-! ## Nothing is removed -/

theorem keys_apply (h : key ∈ g.keys) : key ∈ (g.apply op).keys := by
  cases op with
  | node k onCreate =>
      simp only [apply]
      split
      · exact h
      · simp only [keys, List.map_append]
        exact List.mem_append_left _ h
  | assign k value =>
      simp only [apply]
      split
      · rw [keys, keys_assign]
        exact h
      · simp only [keys, List.map_append]
        exact List.mem_append_left _ h
  | edge source rel target =>
      simp only [apply]
      split <;> exact h

theorem edges_apply {e : κ × ρ × κ} (member : e ∈ g.edges) : e ∈ (g.apply op).edges := by
  cases op with
  | node k onCreate => simp only [apply]; split <;> exact member
  | assign k value => simp only [apply]; split <;> exact member
  | edge source rel target =>
      simp only [apply]
      split
      · exact List.mem_append_left _ member
      · exact member

theorem keys_exec (h : key ∈ g.keys) (ops : List (Op κ ρ π)) : key ∈ (g.exec ops).keys := by
  induction ops generalizing g with
  | nil => exact h
  | cons op ops ih => exact ih (keys_apply h)

theorem edges_exec {e : κ × ρ × κ} (member : e ∈ g.edges) (ops : List (Op κ ρ π)) : e ∈ (g.exec ops).edges := by
  induction ops generalizing g with
  | nil => exact member
  | cons op ops ih => exact ih (edges_apply member)

theorem nodup_exec (distinct : g.edges.Nodup) (ops : List (Op κ ρ π)) : (g.exec ops).edges.Nodup := by
  induction ops generalizing g with
  | nil => exact distinct
  | cons op ops ih =>
      apply ih
      cases op with
      | node k onCreate => simp only [apply]; split <;> exact distinct
      | assign k value => simp only [apply]; split <;> exact distinct
      | edge source rel target =>
          simp only [apply]
          split
          · rename_i matched
            apply List.nodup_append_comm.mp
            exact List.nodup_cons.mpr ⟨matched.2.2, distinct⟩
          · exact distinct

/-! ## Statements that have been carried out -/

/-- The statement would change nothing, now or at any later time. -/
def Done (g : PropertyGraph κ ρ π) : Op κ ρ π → Prop
  | .node key _ => key ∈ g.keys
  | .assign _ _ => False
  | .edge source rel target => (source, rel, target) ∈ g.edges

theorem Done.noop (done : g.Done op) : g.apply op = g := by
  cases op with
  | node key onCreate => exact if_pos done
  | assign key value => exact done.elim
  | edge source rel target =>
      apply if_neg
      rintro ⟨-, -, absent⟩
      exact absent done

theorem Done.exec (done : g.Done op) (later : List (Op κ ρ π)) : (g.exec later).Done op := by
  cases op with
  | node key onCreate => exact keys_exec done later
  | assign key value => exact done.elim
  | edge source rel target => exact edges_exec done later

/-- An edge statement that does not find both its ends changes nothing. -/
theorem apply_unmatched {source target : κ} {rel : ρ} (unmatched : ¬(source ∈ g.keys ∧ target ∈ g.keys)) :
    g.apply (.edge source rel target) = g := by
  apply if_neg
  rintro ⟨source_known, target_known, -⟩
  exact unmatched ⟨source_known, target_known⟩

theorem exec_noop (noop : ∀ op ∈ ops, g.apply op = g) : g.exec ops = g := by
  induction ops with
  | nil => rfl
  | cons op ops ih =>
      rw [exec_cons, noop op List.mem_cons_self]
      exact ih fun op member => noop op (List.mem_cons_of_mem _ member)

/-! ## Batches whose edges come after their ends -/

theorem keys_apply_iff : key ∈ (g.apply op).keys ↔ key ∈ g.keys ∨ created op = some key := by
  cases op with
  | node k onCreate =>
      simp only [apply, created, Option.some.injEq]
      split
      · rename_i present
        constructor
        · exact Or.inl
        · rintro (old | rfl)
          · exact old
          · exact present
      · simp [keys, eq_comm]
  | assign k value =>
      simp only [apply, created, Option.some.injEq]
      split
      · rename_i present
        rw [keys, keys_assign]
        constructor
        · exact Or.inl
        · rintro (old | rfl)
          · exact old
          · exact present
      · simp [keys, eq_comm]
  | edge source rel target =>
      simp only [apply, created]
      split <;> simp [keys]

theorem keys_exec_iff : key ∈ (g.exec ops).keys ↔ key ∈ g.keys ∨ ∃ op ∈ ops, created op = some key := by
  induction ops generalizing g with
  | nil => simp
  | cons op ops ih => simp [exec_cons, ih, keys_apply_iff, or_assoc]

theorem Settled.ends {final : κ → Prop} {before after : List (Op κ ρ π)} {source target : κ} {rel : ρ}
    (settled : Settled final (· ∈ g.keys) (before ++ .edge source rel target :: after)) (source_final : final source)
    (target_final : final target) : source ∈ (g.exec before).keys ∧ target ∈ (g.exec before).keys := by
  induction before generalizing g with
  | nil => exact settled.1 source rel target rfl source_final target_final
  | cons op before ih =>
      apply ih
      apply settled.2.mono
      intro key known
      exact (keys_apply_iff).mpr known

theorem edge_apply {source target : κ} {rel : ρ} (source_known : source ∈ g.keys) (target_known : target ∈ g.keys) :
    (source, rel, target) ∈ (g.apply (.edge source rel target)).edges := by
  simp only [apply]
  split
  · exact List.mem_append_right _ (List.mem_singleton_self _)
  · rename_i kept
    by_contra absent
    exact kept ⟨source_known, target_known, absent⟩

/-- An edge of the result was there or is one of the statements, and then both its ends are there. -/
theorem edge_of_exec {source target : κ} {rel : ρ} (member : (source, rel, target) ∈ (g.exec ops).edges) :
    (source, rel, target) ∈ g.edges ∨
      .edge source rel target ∈ ops ∧ source ∈ (g.exec ops).keys ∧ target ∈ (g.exec ops).keys := by
  induction ops generalizing g with
  | nil => exact Or.inl member
  | cons op ops ih =>
      rcases ih member with old | ⟨listed, ends⟩
      · have one : (source, rel, target) ∈ g.edges ∨
            op = .edge source rel target ∧ source ∈ g.keys ∧ target ∈ g.keys := by
          cases op with
          | node k onCreate =>
              simp only [apply] at old
              split at old <;> exact Or.inl old
          | assign k value =>
              simp only [apply] at old
              split at old <;> exact Or.inl old
          | edge s r t =>
              simp only [apply] at old
              split at old
              · rename_i matched
                rcases (mem_snoc).mp old with kept | new
                · exact Or.inl kept
                · cases new
                  exact Or.inr ⟨rfl, matched.1, matched.2.1⟩
              · exact Or.inl old
        rcases one with kept | ⟨rfl, source_known, target_known⟩
        · exact Or.inl kept
        · exact Or.inr ⟨List.mem_cons_self, keys_exec source_known (_ :: ops), keys_exec target_known (_ :: ops)⟩
      · exact Or.inr ⟨List.mem_cons_of_mem _ listed, ends⟩

theorem mem_edges_exec {final : κ → Prop} (settled : Settled final (· ∈ g.keys) ops)
    (reaches : ∀ key ∈ (g.exec ops).keys, final key) {source target : κ} {rel : ρ} :
    (source, rel, target) ∈ (g.exec ops).edges ↔ (source, rel, target) ∈ g.edges ∨
      .edge source rel target ∈ ops ∧ source ∈ (g.exec ops).keys ∧ target ∈ (g.exec ops).keys := by
  constructor
  · exact edge_of_exec
  · rintro (old | ⟨member, source_there, target_there⟩)
    · exact edges_exec old ops
    · obtain ⟨before, after, rfl⟩ := List.append_of_mem member
      obtain ⟨source_known, target_known⟩ := settled.ends (reaches _ source_there) (reaches _ target_there)
      rw [exec_append, exec_cons]
      exact edges_exec (edge_apply source_known target_known) after

/-! ## What a batch of `MERGE`s leaves -/

theorem props_node (g : PropertyGraph κ ρ π) (k : κ) (onCreate : π) (key : κ) :
    (g.apply (.node k onCreate)).props key = (g.props key).or (if key = k then some onCreate else none) := by
  simp only [apply]
  split
  · rename_i present
    by_cases same : key = k
    · subst same
      obtain ⟨value, found⟩ := Option.isSome_iff_exists.mp ((mem_keys).mp present)
      simp [found]
    · simp [same]
  · rw [props, List.lookup_append]
    by_cases same : key = k
    · simp [props, same]
    · simp [props, List.lookup_cons, beq_false_of_ne same, same]

theorem props_exec (merges : onlyMerges ops) (coherent : Coherent ops) {value : π} :
    (g.exec ops).props key = some value ↔
      g.props key = some value ∨ g.props key = none ∧ .node key value ∈ ops := by
  induction ops generalizing g with
  | nil => simp
  | cons op ops ih =>
      have merges' : onlyMerges ops := fun k v member => merges k v (List.mem_cons_of_mem _ member)
      have coherent' : Coherent ops := fun k v v' member member' =>
        coherent k v v' (List.mem_cons_of_mem _ member) (List.mem_cons_of_mem _ member')
      rw [exec_cons, ih merges' coherent']
      cases op with
      | node k onCreate =>
          rw [props_node]
          by_cases same : key = k
          · subst same
            cases held : g.props key with
            | some old => simp
            | none =>
                simp only [Option.none_or, if_true, Option.some.injEq, reduceCtorEq, false_and, or_false, false_or,
                  true_and, List.mem_cons, Op.node.injEq]
                constructor
                · exact fun equal => Or.inl equal.symm
                · rintro (equal | member)
                  · exact equal.symm
                  · exact coherent key onCreate value List.mem_cons_self (List.mem_cons_of_mem _ member)
          · simp [same]
      | assign k v => exact absurd List.mem_cons_self (merges k v)
      | edge source rel target =>
          have kept : (g.apply (.edge source rel target)).props key = g.props key := by
            simp only [apply]
            split <;> rfl
          simp [kept]

/-- Which batches ran, in which order and how often, does not matter: the set of their statements does. -/
theorem exec_same {ops' : List (Op κ ρ π)} (g : PropertyGraph κ ρ π) (members : ∀ op, op ∈ ops ↔ op ∈ ops')
    (merges : onlyMerges ops) (coherent : Coherent ops) (settled : Settled (· ∈ (g.exec ops).keys) (· ∈ g.keys) ops)
    (settled' : Settled (· ∈ (g.exec ops).keys) (· ∈ g.keys) ops') : Same (g.exec ops) (g.exec ops') := by
  have sameKeys (key : κ) : key ∈ (g.exec ops).keys ↔ key ∈ (g.exec ops').keys := by
    simp only [keys_exec_iff, members]
  constructor
  · intro key
    have merges' : onlyMerges ops' := fun k v member => merges k v ((members _).mpr member)
    have coherent' : Coherent ops' := fun k v v' member member' =>
      coherent k v v' ((members _).mpr member) ((members _).mpr member')
    apply Option.ext
    intro value
    rw [props_exec merges coherent, props_exec merges' coherent', members]
  · rintro ⟨source, rel, target⟩
    rw [mem_edges_exec settled fun _ there => there, mem_edges_exec settled' fun key => (sameKeys key).mpr, members,
      sameKeys, sameKeys]

/-- A batch that is sent once more, whatever ran in between, changes nothing. -/
theorem exec_again {later : List (Op κ ρ π)} (merges : onlyMerges ops)
    (settled : Settled (· ∈ ((g.exec ops).exec later).keys) (· ∈ g.keys) ops) :
    ((g.exec ops).exec later).exec ops = (g.exec ops).exec later := by
  apply exec_noop
  intro op member
  obtain ⟨before, after, rfl⟩ := List.append_of_mem member
  have done (made : (PropertyGraph.apply (g.exec before) op).Done op) :
      ((g.exec (before ++ op :: after)).exec later).apply op = (g.exec (before ++ op :: after)).exec later := by
    rw [exec_append, exec_cons]
    exact ((made.exec after).exec later).noop
  cases op with
  | node key onCreate => exact done ((keys_apply_iff).mpr (Or.inr rfl))
  | assign key value => exact absurd member (merges key value)
  | edge source rel target =>
      by_cases matched : source ∈ ((g.exec (before ++ .edge source rel target :: after)).exec later).keys ∧
          target ∈ ((g.exec (before ++ .edge source rel target :: after)).exec later).keys
      · obtain ⟨source_known, target_known⟩ := settled.ends matched.1 matched.2
        exact done (edge_apply source_known target_known)
      · exact apply_unmatched matched

end PropertyGraph
end Daimon.Lib
