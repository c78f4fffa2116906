import Daimon.Proof.Orchestrator.GraphStore
import Mathlib.Data.Set.Basic

/-!
# The blast radius of a target

What the query returns on any graph that calls of the client have built: every node within reach once for its group of
properties, at its distance from the target, nearest first, up to the limit.
-/

namespace Daimon.Proof.Orchestrator
open Daimon.Core Lib Daimon.Orchestrator PropertyGraph

/-! ## Grouping -/

def depthsOf (rows : List (BlastGroup × Nat)) (group : BlastGroup) : List Nat :=
  (rows.filter fun row => row.1 = group).map Prod.snd

theorem mem_depthsOf {rows : List (BlastGroup × Nat)} {group : BlastGroup} {depth : Nat} :
    depth ∈ depthsOf rows group ↔ (group, depth) ∈ rows := by
  simp [depthsOf]

theorem isLeast_iff_min? {rows : List (BlastGroup × Nat)} {group : BlastGroup} {l : Nat} :
    IsLeast {depth | (group, depth) ∈ rows} l ↔ (depthsOf rows group).min? = some l := by
  rw [List.min?_eq_some_iff]
  simp only [mem_depthsOf]
  rfl

theorem mem_groupMin {rows : List (BlastGroup × Nat)} {group : BlastGroup} {l : Nat} :
    (group, l) ∈ groupMin rows ↔ IsLeast {depth | (group, depth) ∈ rows} l := by
  have listed : (group, l) ∈ groupMin rows ↔ (∃ depth, (group, depth) ∈ rows) ∧
      ((depthsOf rows group).min?).getD 0 = l := by
    simp only [groupMin, List.mem_map, List.mem_dedup, Prod.exists]
    constructor
    · rintro ⟨group', ⟨group'', depth, member, rfl⟩, same⟩
      cases same
      exact ⟨⟨depth, member⟩, rfl⟩
    · rintro ⟨⟨depth, member⟩, rfl⟩
      exact ⟨group, ⟨group, depth, member, rfl⟩, rfl⟩
  rw [listed, isLeast_iff_min?]
  cases least : (depthsOf rows group).min? with
  | none =>
      have empty := List.min?_eq_none_iff.mp least
      simp only [reduceCtorEq, iff_false, not_and]
      rintro ⟨depth, member⟩
      rw [← mem_depthsOf, empty] at member
      cases member
  | some m =>
      have found := (mem_depthsOf).mp (List.min?_mem least)
      simp only [Option.getD_some, Option.some.injEq, and_iff_right_iff_imp]
      exact fun _ => ⟨m, found⟩

/-! ## Order and limit -/

theorem blastOrder_trans (a b c : BlastGroup × Nat) (first : blastOrder a b = true) (second : blastOrder b c = true) :
    blastOrder a c = true := by
  simp only [blastOrder, Bool.or_eq_true, decide_eq_true_eq, Bool.and_eq_true, beq_iff_eq] at first second ⊢
  rcases first with less | ⟨equal, label⟩ <;> rcases second with less' | ⟨equal', label'⟩
  · exact Or.inl (less.trans less')
  · exact Or.inl (equal' ▸ less)
  · exact Or.inl (equal ▸ less')
  · exact Or.inr ⟨equal.trans equal', String.le_trans label label'⟩

theorem blastOrder_total (a b : BlastGroup × Nat) : (blastOrder a b || blastOrder b a) = true := by
  simp only [blastOrder, Bool.or_eq_true, decide_eq_true_eq, Bool.and_eq_true, beq_iff_eq]
  rcases Nat.lt_trichotomy a.2 b.2 with less | equal | more
  · exact Or.inl (Or.inl less)
  · rcases String.le_total (a.1.nlabel.getD "") (b.1.nlabel.getD "") with label | label
    · exact Or.inl (Or.inr ⟨equal, label⟩)
    · exact Or.inr (Or.inr ⟨equal.symm, label⟩)
  · exact Or.inr (Or.inl more)

theorem blastOrder_depth {a b : BlastGroup × Nat} (ordered : blastOrder a b = true) : a.2 ≤ b.2 := by
  simp only [blastOrder, Bool.or_eq_true, decide_eq_true_eq, Bool.and_eq_true, beq_iff_eq] at ordered
  omega

theorem rows_sorted (g : MirrorGraph) (ref : String) (maxDepth : Nat) :
    (g.blastRows ref maxDepth).Pairwise fun a b => a.2 ≤ b.2 :=
  (List.pairwise_mergeSort blastOrder_trans blastOrder_total _).imp blastOrder_depth

theorem mem_take_or {α : Type*} {le : α → α → Prop} {xs : List α} {x : α} (sorted : xs.Pairwise le) (member : x ∈ xs)
    (limit : Nat) : x ∈ xs.take limit ∨ (xs.take limit).length = limit ∧ ∀ y ∈ xs.take limit, le y x := by
  have split := List.take_append_drop limit xs
  rw [← split] at member sorted
  rcases List.mem_append.mp member with kept | dropped
  · exact Or.inl kept
  · refine Or.inr ⟨?_, fun y taken => (List.pairwise_append.mp sorted).2.2 y taken x dropped⟩
    have longer := List.length_pos_of_mem dropped
    rw [List.length_drop] at longer
    rw [List.length_take]
    omega

/-! ## Distances -/

variable {g : MirrorGraph} {ref : String} {maxDepth l : Nat} {n : GraphKey}

theorem group_target (same : n.group = (GraphKey.target ref).group) : n = .target ref := by
  cases n <;> simp_all [GraphKey.group, GraphKey.label, GraphKey.refProp, GraphKey.idProp, GraphKey.nameProp]

/-- The lengths of the paths from the target to a node of the group. -/
def pathLengths (g : MirrorGraph) (ref : String) (group : BlastGroup) : Set Nat :=
  {l | 1 ≤ l ∧ l ∈ trailLengths g.edges (.target ref) fun m => m.group = group}

/-- The lengths of all ways from the target to a node of the group, relationships used more than once included. -/
def wayLengths (g : MirrorGraph) (ref : String) (group : BlastGroup) : Set Nat :=
  walkLengths g.edges (.target ref) fun m => m.group = group

theorem isLeast_path_iff {group : BlastGroup} (other : group ≠ (GraphKey.target ref).group) :
    IsLeast (pathLengths g ref group) l ↔ IsLeast (wayLengths g ref group) l := by
  have positive : pathLengths g ref group = trailLengths g.edges (.target ref) fun m => m.group = group := by
    ext depth
    constructor
    · exact And.right
    · rintro ⟨m, es, same, walk, once, among, rfl⟩
      refine ⟨List.length_pos_iff.mpr ?_, m, es, same, walk, once, among, rfl⟩
      rintro rfl
      obtain rfl := (walk_nil).mp walk
      exact other same.symm
  rw [positive]
  exact isLeast_trail_iff

theorem isLeast_bounded {S : Set Nat} {bound : Nat} :
    IsLeast {depth | depth ≤ bound ∧ depth ∈ S} l ↔ l ≤ bound ∧ IsLeast S l := by
  constructor
  · rintro ⟨⟨within, member⟩, least⟩
    refine ⟨within, member, ?_⟩
    intro depth other
    rcases Nat.le_total depth bound with inside | outside
    · exact least ⟨inside, other⟩
    · exact within.trans outside
  · rintro ⟨within, member, least⟩
    exact ⟨⟨within, member⟩, fun depth other => least other.2⟩

/-- The rows of the query, before its limit: every group of nodes within reach, at its distance. -/
theorem mem_blastRows (distinct : g.edges.Nodup) (known : .target ref ∈ g.keys) {group : BlastGroup} :
    (group, l) ∈ g.blastRows ref maxDepth ↔ l ≤ clampDepth maxDepth ∧ IsLeast (pathLengths g ref group) l := by
  have rows : {depth | (group, depth) ∈ (trailEnds g.edges (clampDepth maxDepth) (.target ref)).map
      fun way => (way.1.group, way.2)} = {depth | depth ≤ clampDepth maxDepth ∧ depth ∈ pathLengths g ref group} := by
    ext depth
    simp only [Set.mem_ofPred_eq, List.mem_map, Prod.mk.injEq, Prod.exists, mem_trailEnds distinct]
    constructor
    · rintro ⟨n, l, ⟨es, walk, once, among, rfl, positive, within⟩, same, rfl⟩
      exact ⟨within, positive, n, es, same, walk, once, among, rfl⟩
    · rintro ⟨within, positive, n, es, same, walk, once, among, rfl⟩
      exact ⟨n, es.length, ⟨es, walk, once, among, rfl, positive, within⟩, same, rfl⟩
  rw [← isLeast_bounded, ← rows, ← mem_groupMin]
  simp [MirrorGraph.blastRows, known]

/-- The entry is in the answer, or the answer is full of entries that are no farther away. -/
def Listed (entries : List BlastRadiusEntry) (n : GraphKey) (l : Nat) : Prop :=
  blastEntry (n.group, l) ∈ entries ∨ entries.length = 200 ∧ ∀ e ∈ entries, e.depth ≤ l

theorem listed_of_least (distinct : g.edges.Nodup) (known : .target ref ∈ g.keys) (other : n ≠ .target ref)
    (least : IsLeast (wayLengths g ref n.group) l) (within : l ≤ clampDepth maxDepth) :
    Listed (g.blastRadius ref maxDepth) n l := by
  have group : n.group ≠ (GraphKey.target ref).group := fun same => other (group_target same)
  have row : (n.group, l) ∈ g.blastRows ref maxDepth :=
    (mem_blastRows distinct known).mpr ⟨within, (isLeast_path_iff group).mpr least⟩
  rcases mem_take_or (rows_sorted g ref maxDepth) row 200 with taken | ⟨full, nearer⟩
  · exact Or.inl (List.mem_map_of_mem taken)
  · refine Or.inr ⟨(List.length_map _).trans full, ?_⟩
    intro e member
    obtain ⟨row', taken, rfl⟩ := List.mem_map.mp member
    exact nearer row' taken

theorem entry_least (distinct : g.edges.Nodup) (known : .target ref ∈ g.keys) {e : BlastRadiusEntry}
    (member : e ∈ g.blastRadius ref maxDepth) :
    ∃ n l, e = blastEntry (GraphKey.group n, l) ∧ l ≤ clampDepth maxDepth ∧ IsLeast (pathLengths g ref n.group) l := by
  obtain ⟨⟨group, l⟩, taken, rfl⟩ := List.mem_map.mp member
  obtain ⟨within, least⟩ := (mem_blastRows distinct known).mp (List.mem_of_mem_take taken)
  obtain ⟨-, n, es, rfl, -⟩ := least.1
  exact ⟨n, l, rfl, within, least⟩

theorem calls_nodup (calls : List GraphCall) : (calls.foldl MirrorGraph.call .empty).edges.Nodup := by
  rw [calls_eq]
  exact nodup_exec List.nodup_nil _

theorem blast_radius_exact (calls : List GraphCall) (ref : String) (maxDepth : Nat)
    (known : .target ref ∈ (calls.foldl MirrorGraph.call .empty).keys) :
    let g := calls.foldl MirrorGraph.call .empty
    let entries := g.blastRadius ref maxDepth
    (entries.map BlastRadiusEntry.depth).Pairwise (· ≤ ·) ∧ entries.length ≤ 200 ∧
    (∀ e ∈ entries, ∃ n l, e = blastEntry (GraphKey.group n, l) ∧ l ≤ clampDepth maxDepth ∧
      IsLeast (pathLengths g ref n.group) l) ∧
    ∀ (n : GraphKey) l, n ≠ .target ref → IsLeast (wayLengths g ref n.group) l → l ≤ clampDepth maxDepth →
      Listed entries n l := by
  intro g entries
  have depths : entries.map BlastRadiusEntry.depth = ((g.blastRows ref maxDepth).take 200).map Prod.snd :=
    List.map_map
  refine ⟨?_, ?_, ?_, ?_⟩
  · rw [depths]
    exact List.pairwise_map.mpr ((rows_sorted g ref maxDepth).sublist (List.take_sublist _ _))
  · exact (List.length_map _).trans_le (List.length_take_le _ _)
  · intro e member
    exact entry_least (calls_nodup calls) known member
  · intro n l other least within
    exact listed_of_least (calls_nodup calls) known other least within

theorem sample_blast_radius :
    let g := [GraphCall.persistPlan sampleMirror].foldl MirrorGraph.call .empty
    ∀ e ∈ g.blastRadius "target://b" 4, ∃ n l, e = blastEntry (GraphKey.group n, l) ∧ l ≤ 4 ∧
      IsLeast (pathLengths g "target://b" n.group) l :=
  (blast_radius_exact [.persistPlan sampleMirror] "target://b" 4 (by decide)).2.2.1

/-! ## Plans in the blast radius -/

variable {calls : List GraphCall} {a b : GraphKey} {rel : GraphRel}

/-- The relationships that a call asks for. -/
inductive Asks : GraphCall → GraphKey → GraphRel → GraphKey → Prop
  | stepOf {plan : GraphPlan} {s : GraphPlanStep} (listed : s ∈ plan.steps) :
      Asks (.persistPlan plan) (.planStep s.id) .stepOf (.plan plan.id)
  | providesCapability {plan : GraphPlan} {s : GraphPlanStep} (listed : s ∈ plan.steps) :
      Asks (.persistPlan plan) (.planStep s.id) .providesCapability (.capability s.capabilityName s.capabilityVersion)
  | dependsOnTarget {plan : GraphPlan} {s : GraphPlanStep} (listed : s ∈ plan.steps) :
      Asks (.persistPlan plan) (.planStep s.id) .dependsOnTarget (.target s.targetRef)
  | dependsOn {plan : GraphPlan} {s : GraphPlanStep} {dep : Uuid} (listed : s ∈ plan.steps)
      (depends : dep ∈ s.dependsOn) : Asks (.persistPlan plan) (.planStep s.id) .dependsOn (.planStep dep)
  | declared {source target : String} :
      Asks (.declareDependency source target) (.target source) .dependsOnTarget (.target target)

theorem asks_iff {call : GraphCall} : .edge a rel b ∈ call.ops ↔ Asks call a rel b := by
  constructor
  · intro member
    cases call with
    | persistPlan plan =>
        obtain ⟨statement, among, same⟩ := List.mem_map.mp member
        simp only [planBatch, List.mem_append, List.mem_singleton, List.mem_flatMap, List.mem_map] at among
        rcases among with (rfl | ⟨s, listed, step⟩) | ⟨s, listed, dep, depends, rfl⟩
        · cases same
        · simp only [stepStatements, List.mem_cons, List.not_mem_nil, or_false] at step
          rcases step with rfl | rfl | rfl | rfl | rfl | rfl <;> cases same
          · exact .stepOf listed
          · exact .providesCapability listed
          · exact .dependsOnTarget listed
        · cases same
          exact .dependsOn listed depends
    | upsertTarget ref labels => simp [GraphCall.ops] at member
    | declareDependency source target =>
        cases List.mem_singleton.mp member
        exact .declared
  · intro asks
    have ofStep {plan : GraphPlan} {s : GraphPlanStep} (listed : s ∈ plan.steps) (statement : Statement)
        (among : statement ∈ stepStatements plan s) : statement.op ∈ planOps plan := by
      rw [planOps_eq]
      exact List.mem_append_left _ (op_of_step listed statement among)
    cases asks with
    | stepOf listed => exact ofStep listed (.stepOf _ _) (by simp [stepStatements])
    | providesCapability listed => exact ofStep listed (.providesCapability _ _ _) (by simp [stepStatements])
    | dependsOnTarget listed => exact ofStep listed (.dependsOnTarget _ _) (by simp [stepStatements])
    | @dependsOn plan s dep listed depends =>
        have among : Statement.dependsOn s.id dep ∈ planBatch plan :=
          List.mem_append_right _ (List.mem_flatMap.mpr ⟨s, listed, List.mem_map_of_mem depends⟩)
        exact List.mem_map_of_mem (f := Statement.op) among
    | declared => exact List.mem_singleton_self _

theorem edge_asked (member : (a, rel, b) ∈ (calls.foldl MirrorGraph.call .empty).edges) :
    ∃ call ∈ calls, Asks call a rel b := by
  rw [calls_eq] at member
  rcases edge_of_exec member with before | ⟨listed, -⟩
  · cases before
  · obtain ⟨call, among, asks⟩ := List.mem_flatMap.mp listed
    exact ⟨call, among, (asks_iff).mp asks⟩

/-- What a target is related to: the steps on it, and the targets it was declared to depend on or to be needed by. -/
def NextTo (calls : List GraphCall) (ref : String) (n : GraphKey) : Prop :=
  (∃ plan s, .persistPlan plan ∈ calls ∧ s ∈ plan.steps ∧ s.targetRef = ref ∧ n = .planStep s.id) ∨
    ∃ other, (.declareDependency ref other ∈ calls ∨ .declareDependency other ref ∈ calls) ∧ n = .target other

theorem joins_target {e : GraphKey × GraphRel × GraphKey} (member : e ∈ (calls.foldl MirrorGraph.call .empty).edges)
    (joins : Joins e (.target ref) n) : NextTo calls ref n := by
  obtain ⟨a, rel, b⟩ := e
  obtain ⟨call, listed, asks⟩ := edge_asked member
  rcases joins with ⟨rfl, rfl⟩ | ⟨rfl, same⟩
  · generalize same : GraphKey.target ref = k at asks
    cases asks with
    | declared =>
        cases same
        exact Or.inr ⟨_, Or.inl listed, rfl⟩
    | _ => cases same
  · obtain rfl : b = .target ref := same
    generalize same : GraphKey.target ref = k at asks
    cases asks with
    | dependsOnTarget step => exact Or.inl ⟨_, _, listed, step, (GraphKey.target.inj same).symm, rfl⟩
    | declared =>
        cases same
        exact Or.inr ⟨_, Or.inr listed, rfl⟩
    | _ => cases same

/-- What a target is next to is a step or a target. -/
theorem NextTo.not_plan (next : NextTo calls ref n) (id : Uuid) : n.group ≠ (GraphKey.plan id).group := by
  rcases next with ⟨plan, s, -, -, -, rfl⟩ | ⟨other, -, rfl⟩ <;> simp [GraphKey.group, GraphKey.label]

theorem NextTo.not_capability (next : NextTo calls ref n) (name version : String) :
    n.group ≠ (GraphKey.capability name version).group := by
  rcases next with ⟨plan, s, -, -, -, rfl⟩ | ⟨other, -, rfl⟩ <;> simp [GraphKey.group, GraphKey.label]

theorem least_two {built : MirrorGraph} (isBuilt : built = calls.foldl MirrorGraph.call .empty)
    (other : n.group ≠ (GraphKey.target ref).group) (apart : ∀ m, NextTo calls ref m → m.group ≠ n.group)
    (way : 2 ∈ wayLengths built ref n.group) : IsLeast (wayLengths built ref n.group) 2 := by
  refine ⟨way, ?_⟩
  rintro l ⟨m, es, same, walk, among, rfl⟩
  match es with
  | [] =>
      obtain rfl := (walk_nil).mp walk
      exact absurd same.symm other
  | [e] =>
      obtain ⟨k, joins, rest⟩ := (walk_cons).mp walk
      obtain rfl := (walk_nil).mp rest
      exact absurd same (apart k (joins_target (isBuilt ▸ among List.mem_cons_self) joins))
  | _ :: _ :: _ => exact Nat.le_add_left 2 _

/-- What a plan asked for stays. -/
theorem persisted_stays (before after : List GraphCall) {plan : GraphPlan} {e : GraphKey × GraphRel × GraphKey}
    (persisted : e ∈ ((before.foldl MirrorGraph.call .empty).persistPlan plan).edges) :
    e ∈ ((before ++ .persistPlan plan :: after).foldl MirrorGraph.call .empty).edges := by
  rw [List.foldl_append, List.foldl_cons, calls_eq after]
  exact edges_exec persisted _

theorem edge_known (member : (a, rel, b) ∈ (calls.foldl MirrorGraph.call .empty).edges) :
    b ∈ (calls.foldl MirrorGraph.call .empty).keys := by
  rw [calls_eq] at member ⊢
  rcases edge_of_exec member with before | ⟨-, -, there⟩
  · cases before
  · exact there

theorem plan_in_blast_radius (before after : List GraphCall) (plan : GraphPlan) (s : GraphPlanStep)
    (listed : s ∈ plan.steps) (maxDepth : Nat) (deep : 2 ≤ maxDepth) :
    let calls := before ++ .persistPlan plan :: after
    let entries := (calls.foldl MirrorGraph.call .empty).blastRadius s.targetRef maxDepth
    Listed entries (.planStep s.id) 1 ∧ Listed entries (.plan plan.id) 2 ∧
      Listed entries (.capability s.capabilityName s.capabilityVersion) 2 ∧
      ∀ e ∈ entries, e.depth = 1 → ∃ n, NextTo calls s.targetRef n ∧ e = blastEntry (n.group, 1) := by
  intro calls entries
  have distinct := calls_nodup calls
  obtain ⟨of_plan, of_capability, of_target⟩ := persisted_step (before.foldl MirrorGraph.call .empty) listed
  have stepOf := persisted_stays before after of_plan
  have provides := persisted_stays before after of_capability
  have onTarget := persisted_stays before after of_target
  have known := edge_known onTarget
  have within : 2 ≤ clampDepth maxDepth := by
    unfold clampDepth
    omega
  have back : Joins (GraphKey.planStep s.id, GraphRel.dependsOnTarget, GraphKey.target s.targetRef)
      (.target s.targetRef) (.planStep s.id) := Or.inr ⟨rfl, rfl⟩
  refine ⟨?_, ?_, ?_, ?_⟩
  · apply listed_of_least distinct known (by simp) ?_ (Nat.le_of_succ_le within)
    refine ⟨⟨_, [_], rfl, .cons back (.nil _), List.cons_subset.mpr ⟨onTarget, List.nil_subset _⟩, rfl⟩, ?_⟩
    rintro l ⟨m, es, same, walk, -, rfl⟩
    apply List.length_pos_iff.mpr
    rintro rfl
    obtain rfl := (walk_nil).mp walk
    simp [GraphKey.group, GraphKey.label] at same
  · apply listed_of_least distinct known (by simp) ?_ within
    apply least_two rfl (by simp [GraphKey.group, GraphKey.label]) fun m next => next.not_plan plan.id
    exact ⟨_, [_, _], rfl, .cons back (.cons (Or.inl ⟨rfl, rfl⟩) (.nil _)),
      List.cons_subset.mpr ⟨onTarget, List.cons_subset.mpr ⟨stepOf, List.nil_subset _⟩⟩, rfl⟩
  · apply listed_of_least distinct known (by simp) ?_ within
    apply least_two rfl (by simp [GraphKey.group, GraphKey.label]) fun m next => next.not_capability _ _
    exact ⟨_, [_, _], rfl, .cons back (.cons (Or.inl ⟨rfl, rfl⟩) (.nil _)),
      List.cons_subset.mpr ⟨onTarget, List.cons_subset.mpr ⟨provides, List.nil_subset _⟩⟩, rfl⟩
  · intro e member near
    obtain ⟨n, l, rfl, -, ⟨-, m, es, same, walk, -, among, length⟩, -⟩ := entry_least distinct known member
    obtain rfl : l = 1 := near
    obtain ⟨edge, rfl⟩ := List.length_eq_one_iff.mp length
    obtain ⟨k, joins, rest⟩ := (walk_cons).mp walk
    obtain rfl := (walk_nil).mp rest
    exact ⟨k, joins_target (among List.mem_cons_self) joins, by rw [same]⟩

theorem sample_plan_in_blast_radius :
    ∃ step ∈ sampleMirror.steps,
      Listed (([GraphCall.persistPlan sampleMirror].foldl MirrorGraph.call .empty).blastRadius step.targetRef 4)
        (.planStep step.id) 1 :=
  ⟨_, List.mem_singleton_self _,
    (plan_in_blast_radius [] [] sampleMirror _ (List.mem_singleton_self _) 4 (by decide)).1⟩

end Daimon.Proof.Orchestrator
