import Daimon.Proof.Audit.Stored

/-!
# Filtering and paging

The two builders push the same conditions, each with the position of its own parameter, so pages and count speak of the
same rows. What the conditions say differs from the filter in two places: the text of a target is a pattern, and a time
is cut to whole microseconds.
-/

namespace Daimon.Proof.Audit
open Daimon.Core Daimon.Audit Lib Lib.Like

variable {fold : Folding} {dbError : String} {filter : AuditFilter} {table : List EventRow} {row : EventRow}

/-! ## Conditions and the positions of their parameters -/

def position : Condition → Nat
  | .textIs _ n | .targetLike n | .tsFrom n | .tsBelow n => n

def Placed (params : List Param) (c : Condition) : Prop := 0 < position c ∧ position c ≤ params.length

section Frame
variable {params : List Param} {c : Condition} (more : List Param) (placed : Placed params c)
include placed

theorem param_frame : (params ++ more)[position c - 1]? = params[position c - 1]? := by
  obtain ⟨positive, within⟩ := placed
  exact List.getElem?_append_left (by omega)

theorem holds_frame (fold : Folding) (row : EventRow) : c.holds fold (params ++ more) row = c.holds fold params row := by
  have same := param_frame more placed
  cases c <;> simp only [position] at same <;> simp only [Condition.holds, textAt, timestampAt, same]

theorem wellTyped_frame : c.wellTyped (params ++ more) = c.wellTyped params := by
  have same := param_frame more placed
  cases c <;> simp only [position] at same <;> simp only [Condition.wellTyped, textAt, timestampAt, same]

end Frame

section All
variable {params : List Param} {conditions : List Condition} (placed : ∀ c ∈ conditions, Placed params c)
  (more : List Param)
include placed

theorem all_holds_frame (fold : Folding) (row : EventRow) :
    conditions.all (Condition.holds fold (params ++ more) row) = conditions.all (Condition.holds fold params row) := by
  rw [Bool.eq_iff_iff, List.all_eq_true, List.all_eq_true]
  apply forall₂_congr
  intro c member
  rw [holds_frame more (placed c member)]

theorem all_wellTyped_frame :
    conditions.all (Condition.wellTyped (params ++ more)) = conditions.all (Condition.wellTyped params) := by
  rw [Bool.eq_iff_iff, List.all_eq_true, List.all_eq_true]
  apply forall₂_congr
  intro c member
  rw [wellTyped_frame more (placed c member)]

end All

/-- The clauses pick the rows that meet `picks`, and the database takes them under `taken`. -/
structure Means (fold : Folding) (clauses : Clauses) (picks : EventRow → Prop) (taken : Prop) : Prop where
  placed : ∀ c ∈ clauses.conditions, Placed clauses.params c
  typed : clauses.conditions.all (Condition.wellTyped clauses.params) = true
  sent : clauses.params.all Param.sendable = true ↔ taken
  picked : ∀ row, clauses.conditions.all (Condition.holds fold clauses.params row) = true ↔ picks row

/-- One condition with its parameter. -/
structure Puts {α : Type} (fold : Folding) (condition : Nat → Condition) (param : α → Param)
    (picks : α → EventRow → Prop) (taken : α → Prop) : Prop where
  position : ∀ n, position (condition n) = n
  typed : ∀ params value, (condition (params.length + 1)).wellTyped (params ++ [param value]) = true
  sent : ∀ value, (param value).sendable = true ↔ taken value
  picked : ∀ params value row,
    (condition (params.length + 1)).holds fold (params ++ [param value]) row = true ↔ picks value row

theorem means_nothing : Means fold ⟨[], []⟩ (fun _ => True) True where
  placed := nofun
  typed := rfl
  sent := by simp
  picked := by simp

theorem means_push {α : Type} {clauses : Clauses} {before : EventRow → Prop} {earlier : Prop}
    {condition : Nat → Condition} {param : α → Param} {picks : α → EventRow → Prop} {taken : α → Prop}
    (means : Means fold clauses before earlier) (puts : Puts fold condition param picks taken) (field : Option α) :
    Means fold (clauses.push condition param field) (fun row => before row ∧ ∀ value ∈ field, picks value row)
      (earlier ∧ ∀ value ∈ field, taken value) := by
  cases field with
  | none => simpa [Clauses.push] using means
  | some value =>
      have last : (clauses.params ++ [param value]).length = clauses.params.length + 1 := by simp
      constructor
      · intro c member
        rcases List.mem_append.mp member with old | new
        · obtain ⟨positive, within⟩ := means.placed c old
          exact ⟨positive, within.trans (by simp [Clauses.push])⟩
        · rw [List.mem_singleton.mp new, Placed, puts.position]
          exact ⟨Nat.succ_pos _, by simp [Clauses.push]⟩
      · show (clauses.conditions ++ [_]).all _ = true
        rw [List.all_append, Clauses.push, all_wellTyped_frame means.placed, means.typed]
        simpa using puts.typed clauses.params value
      · show (clauses.params ++ [param value]).all _ = true ↔ _
        rw [List.all_append, Bool.and_eq_true, means.sent]
        simp [puts.sent]
      · intro row
        show (clauses.conditions ++ [_]).all _ = true ↔ _
        rw [List.all_append, Bool.and_eq_true, Clauses.push, all_holds_frame means.placed, means.picked]
        simp [puts.picked]

/-! ## What the filter's conditions say -/

theorem puts_textIs {α : Type} (column : TextColumn) (write : α → String) :
    Puts fold (.textIs column) (fun value => .text (write value)) (fun value row => column.of row = write value)
      (fun value => storable (write value) = true) where
  position _ := rfl
  typed := by simp [Condition.wellTyped, textAt]
  sent _ := Iff.rfl
  picked := by
    intro params value row
    simp only [Condition.holds, textAt, Nat.add_sub_cancel, List.getElem?_concat_length, beq_iff_eq, Option.some.injEq]
    exact eq_comm

/-- The text of a pattern that a target is looked for with. -/
def around (text : String) : String := "%" ++ text ++ "%"

theorem toList_around (text : String) : (around text).toList = anywhere text.toList := by
  simp [around, anywhere]

theorem storable_around (text : String) : storable (around text) = storable text := by
  simp [storable, toList_around, anywhere]

theorem tokens_anywhere (t : List Char) : (tokens (anywhere t)).isSome = true := by
  obtain ⟨p, parsed, -⟩ := tokens_shortest ⟨id, fun _ _ _ => Iff.rfl⟩ t
  rw [List.map_id] at parsed
  rw [anywhere, tokens_cons (by decide), parsed]
  rfl

theorem puts_targetLike :
    Puts fold .targetLike (fun text => .text (around text))
      (fun text row => ∃ target ∈ row.targetRef, ilike fold (anywhere text.toList) target.toList = true)
      (fun text => storable text = true) where
  position _ := rfl
  typed := by
    intro params text
    simp [Condition.wellTyped, textAt, toList_around, tokens_anywhere]
  sent text := by
    show storable (around text) = true ↔ _
    rw [storable_around]
  picked := by
    intro params text row
    cases found : row.targetRef <;> simp [Condition.holds, textAt, toList_around, found]

theorem puts_tsFrom :
    Puts fold .tsFrom (fun since => .timestamp (DateTime.toSql since)) (fun since row => DateTime.toSql since ≤ row.ts)
      (fun since => Timestamp.inRange (DateTime.toSql since) = true) where
  position _ := rfl
  typed := by simp [Condition.wellTyped, timestampAt]
  sent _ := Iff.rfl
  picked := by simp [Condition.holds, timestampAt]

theorem puts_tsBelow :
    Puts fold .tsBelow (fun upTo => .timestamp (DateTime.toSql upTo)) (fun upTo row => row.ts < DateTime.toSql upTo)
      (fun upTo => Timestamp.inRange (DateTime.toSql upTo) = true) where
  position _ := rfl
  typed := by simp [Condition.wellTyped, timestampAt]
  sent _ := Iff.rfl
  picked := by simp [Condition.holds, timestampAt]

/-- The texts and times of the filter are ones that the database takes. -/
structure Sendable (filter : AuditFilter) : Prop where
  actor : ∀ actor ∈ filter.actorId, storable actor = true
  target : ∀ text ∈ filter.targetRef, storable text = true
  since : ∀ since ∈ filter.since, Timestamp.inRange (DateTime.toSql since) = true
  upTo : ∀ upTo ∈ filter.upTo, Timestamp.inRange (DateTime.toSql upTo) = true

/-- The time lies between the limits of the filter. -/
def InWindow (filter : AuditFilter) (ts : Timestamp) : Prop :=
  (∀ since ∈ filter.since, since ≤ 1000 * ts) ∧ ∀ upTo ∈ filter.upTo, 1000 * ts < upTo

/-- The time lies between the limits that are sent. -/
def InSentWindow (filter : AuditFilter) (ts : Timestamp) : Prop :=
  (∀ since ∈ filter.since, DateTime.toSql since ≤ ts) ∧ ∀ upTo ∈ filter.upTo, ts < DateTime.toSql upTo

/-- What stands in the columns, the target and the time apart. -/
structure Names (filter : AuditFilter) (row : EventRow) : Prop where
  actor : ∀ actor ∈ filter.actorId, row.actorId = actor
  action : ∀ action ∈ filter.action, row.action = ActionKind.asStr action
  result : ∀ result ∈ filter.result, row.result = AuditResult.asStr result

/-- `s` contains `t`, whatever the case of their letters. -/
def Contains (fold : Folding) (s t : String) : Prop := t.toList.map fold.lower <:+: s.toList.map fold.lower

structure Satisfies (fold : Folding) (filter : AuditFilter) (row : EventRow) : Prop where
  names : Names filter row
  target : ∀ text ∈ filter.targetRef, ∃ target ∈ row.targetRef, Contains fold target text
  window : InWindow filter row.ts

structure Selected (fold : Folding) (filter : AuditFilter) (row : EventRow) : Prop where
  names : Names filter row
  target : ∀ text ∈ filter.targetRef, ∃ target ∈ row.targetRef, ilike fold (anywhere text.toList) target.toList = true
  window : InSentWindow filter row.ts

theorem storable_ofList {chars : List Char} (plain : chars.contains '\x00' = false) :
    storable (String.ofList chars) = true := by
  rw [storable, String.toList_ofList, plain, Bool.not_false]

theorem storable_action (action : ActionKind) : storable action.asStr = true := by
  cases action <;> exact storable_ofList (by decide)

theorem storable_result (result : AuditResult) : storable result.asStr = true := by
  cases result <;> exact storable_ofList (by decide)

/-- The conditions and parameters of both builders. -/
def clauses (filter : AuditFilter) : Clauses := Clauses.pushFilter ⟨[], []⟩ filter

theorem filter_means (fold : Folding) (filter : AuditFilter) :
    Means fold (clauses filter) (Selected fold filter) (Sendable filter) := by
  have actor := means_push (@means_nothing fold) (puts_textIs .actorId id) filter.actorId
  have action := means_push actor (puts_textIs .action ActionKind.asStr) filter.action
  have target := means_push action puts_targetLike filter.targetRef
  have result := means_push target (puts_textIs .result AuditResult.asStr) filter.result
  have since := means_push result puts_tsFrom filter.since
  have whole := means_push since puts_tsBelow filter.upTo
  constructor
  · exact whole.placed
  · exact whole.typed
  · refine whole.sent.trans ⟨?_, ?_⟩
    · rintro ⟨⟨⟨⟨⟨⟨-, actor⟩, -⟩, target⟩, -⟩, since⟩, upTo⟩
      exact ⟨actor, target, since, upTo⟩
    · intro ⟨actor, target, since, upTo⟩
      exact ⟨⟨⟨⟨⟨⟨trivial, actor⟩, fun action _ => storable_action action⟩, target⟩,
        fun result _ => storable_result result⟩, since⟩, upTo⟩
  · intro row
    refine (whole.picked row).trans ⟨?_, ?_⟩
    · rintro ⟨⟨⟨⟨⟨⟨-, actor⟩, action⟩, target⟩, result⟩, since⟩, upTo⟩
      exact ⟨⟨actor, action, result⟩, target, since, upTo⟩
    · intro ⟨⟨actor, action, result⟩, target, since, upTo⟩
      exact ⟨⟨⟨⟨⟨⟨trivial, actor⟩, action⟩, target⟩, result⟩, since⟩, upTo⟩

/-! ## What a query and a count return -/

/-- The rows that both statements pick. -/
def picked (fold : Folding) (filter : AuditFilter) (table : List EventRow) : List EventRow :=
  Statement.found fold ⟨.count, (clauses filter).conditions⟩ (clauses filter).params table

theorem mem_picked : row ∈ picked fold filter table ↔ row ∈ table ∧ Selected fold filter row := by
  rw [picked, Statement.found, List.mem_filter]
  exact and_congr_right fun _ => (filter_means fold filter).picked row

theorem accepted_iff (target : Target) (numbers : List Int) :
    Statement.accepted ⟨target, (clauses filter).conditions⟩ ((clauses filter).params ++ numbers.map .bigint) = true ↔
      Sendable filter := by
  have means := filter_means asciiFolding filter
  have sent : (numbers.map Param.bigint).all Param.sendable = true := by simp [Param.sendable]
  rw [Statement.accepted, all_wellTyped_frame means.placed, means.typed, List.all_append, sent, Bool.true_and,
    Bool.and_true]
  exact means.sent

theorem count_accepted_iff (target : Target) :
    Statement.accepted ⟨target, (clauses filter).conditions⟩ (clauses filter).params = true ↔ Sendable filter := by
  have whole : _ ↔ Sendable filter := accepted_iff target []
  rwa [List.map_nil, List.append_nil] at whole

theorem count_ok (sendable : Sendable filter) :
    count fold dbError table filter = .ok (picked fold filter table).length := by
  have counted : (buildCount filter).1.selectCount fold (buildCount filter).2 table =
      some (picked fold filter table).length := if_pos ((count_accepted_iff .count).mpr sendable)
  simp only [count, counted]

theorem count_refused (unsendable : ¬ Sendable filter) :
    count fold dbError table filter = .error (.storage ("count: " ++ dbError)) := by
  have refused : (buildCount filter).1.selectCount fold (buildCount filter).2 table = none :=
    if_neg (mt (count_accepted_iff .count).mp unsendable)
  simp only [count, refused]

/-- The rows of the filter in the order in which they are returned. -/
def listing (fold : Folding) (filter : AuditFilter) (table : List EventRow) : List EventRow :=
  (picked fold filter table).insertionSort EventRow.newer

theorem select_page {params : List Param} {conditions : List Condition} {paging : Paging} {limit offset : Nat}
    (accepted : Statement.accepted ⟨.rows (some paging), conditions⟩ params = true)
    (limited : bigintAt params paging.limit = some limit) (behind : bigintAt params paging.offset = some offset) :
    Statement.select fold ⟨.rows (some paging), conditions⟩ params table =
      some ((((Statement.found fold ⟨.count, conditions⟩ params table).insertionSort EventRow.newer).drop offset).take
        limit) := by
  rw [Statement.select, if_pos accepted]
  show (bigintAt params paging.limit).bind _ = _
  rw [limited, Option.bind_some, behind]
  rfl

theorem query_ok (sendable : Sendable filter) (limit offset : UInt32) :
    query fold dbError table filter limit offset =
      .ok ((((listing fold filter table).drop offset.toNat).take limit.toNat).map rowToEvent) := by
  let numbers : List Int := [limit.toNat, offset.toNat]
  let params : List Param := (clauses filter).params ++ numbers.map .bigint
  let paging : Paging := ⟨(clauses filter).params.length + 1, (clauses filter).params.length + 2⟩
  have found : Statement.found fold ⟨.count, (clauses filter).conditions⟩ params table = picked fold filter table := by
    apply List.filter_congr
    intro row _
    exact all_holds_frame (filter_means fold filter).placed _ fold row
  have limited : bigintAt params paging.limit = some limit.toNat := by simp [bigintAt, params, paging, numbers]
  have behind : bigintAt params paging.offset = some offset.toNat := by simp [bigintAt, params, paging, numbers]
  have accepted : Statement.accepted ⟨.rows (some paging), (clauses filter).conditions⟩ params = true :=
    (accepted_iff (.rows (some paging)) numbers).mpr sendable
  have selected : (buildQuery filter (some (limit, offset))).1.select fold
      (buildQuery filter (some (limit, offset))).2 table =
        some (((listing fold filter table).drop offset.toNat).take limit.toNat) := by
    rw [listing, ← found]
    exact select_page accepted limited behind
  simp only [query, selected]

/-! ## Pages -/

section Pages
variable (fold dbError) (table : List EventRow) (filter : AuditFilter) (size : UInt32)

/-- The first pages of a size, one behind the other. -/
def pages : Nat → Except AuditError (List AuditEvent)
  | 0 => .ok []
  | n + 1 => do
      let before ← pages n
      let page ← query fold dbError table filter size (UInt32.ofNat (n * size.toNat))
      return before ++ page

/-- The offset of each of the first `n` pages is one that can be asked for. -/
def WithinReach (n : Nat) : Prop := (n - 1) * size.toNat < 0x100000000

end Pages

theorem pages_ok (sendable : Sendable filter) {size : UInt32} {n : Nat} (reach : WithinReach size n) :
    pages fold dbError table filter size n =
      .ok (((listing fold filter table).take (n * size.toNat)).map rowToEvent) := by
  induction n with
  | zero => simp [pages]
  | succ n ih =>
      have offset : (UInt32.ofNat (n * size.toNat)).toNat = n * size.toNat := UInt32.toNat_ofNat_of_lt' reach
      have before : WithinReach size n := Nat.lt_of_le_of_lt (Nat.mul_le_mul_right _ (Nat.sub_le n 1)) reach
      rw [pages, ih before, query_ok sendable, offset, Nat.succ_mul, List.take_add, List.map_append]
      rfl

/-- The rows of a filter, newest first, each once. -/
structure Listing (fold : Folding) (filter : AuditFilter) (table rows : List EventRow) : Prop where
  members : ∀ row, row ∈ rows ↔ row ∈ table ∧ Satisfies fold filter row
  once : rows.Nodup
  newestFirst : rows.Pairwise fun a b => b.ts ≤ a.ts

structure ValidTable (table : List EventRow) : Prop where
  rows : ∀ row ∈ table, row.Valid
  keys : (table.map EventRow.id).Nodup

theorem result_taken (result : AuditResult) : result.asStr ∈ ["success", "error", "denied"] := by
  cases result <;> simp [AuditResult.asStr]

/-- The rows that are appended make a valid table. -/
theorem valid_of_append {id : Uuid} {now : Timestamp} {event : NewAuditEvent}
    (written : append dbError id now event = .ok row) (range : Timestamp.inRange now = true)
    (readable : Timestamp.inDateTime now = true) : row.Valid := by
  have taken : event.texts.all storable = true := by
    by_contra refused
    rw [append, if_neg refused] at written
    cases written
  rw [row_of_append written]
  refine ⟨?_, result_taken _, range, readable⟩
  intro text member
  simp only [EventRow.texts, insertedRow, List.mem_cons, List.mem_append] at member
  rw [List.all_eq_true] at taken
  rcases member with rfl | rfl | rfl | (target | credential) | summary
  · exact taken _ List.mem_cons_self
  · exact storable_action _
  · exact storable_result _
  · exact taken text (by simp [NewAuditEvent.texts, target])
  · exact taken text (by simp [NewAuditEvent.texts, credential])
  · exact taken text (by simp [NewAuditEvent.texts, summary])

/-- On every table the pages of every size are the rows of the filter, and their count is how many these are. -/
def Exact (fold : Folding) (dbError : String) (filter : AuditFilter) : Prop :=
  ∀ table, ValidTable table → ∃ rows, Listing fold filter table rows ∧
    (∀ size n, 0 < size → WithinReach size n →
      pages fold dbError table filter size n = .ok ((rows.take (n * size.toNat)).map rowToEvent)) ∧
    count fold dbError table filter = .ok rows.length

instance : Std.Total EventRow.newer where
  total a b := by
    rcases lt_trichotomy a.ts b.ts with older | same | newer
    · exact Or.inr (Or.inl older)
    · rcases BitVec.le_total a.id b.id with below | above
      · exact Or.inr (Or.inr ⟨same, below⟩)
      · exact Or.inl (Or.inr ⟨same.symm, above⟩)
    · exact Or.inl (Or.inl newer)

instance : IsTrans EventRow EventRow.newer where
  trans a b c := by
    rintro (first | ⟨first, front⟩) (second | ⟨second, back⟩)
    · exact Or.inl (second.trans first)
    · exact Or.inl (second ▸ first)
    · exact Or.inl (first ▸ second)
    · exact Or.inr ⟨second.trans first, BitVec.le_trans back front⟩

/-- What is sent means what the filter says: the database takes it, no time of a row lies between a limit and what is
sent of it, and a text that is looked for in some window holds nothing that a pattern reads otherwise. -/
structure Unambiguous (filter : AuditFilter) : Prop where
  sendable : Sendable filter
  window : ∀ ts, Timestamp.inRange ts = true → Timestamp.inDateTime ts = true →
    (InSentWindow filter ts ↔ InWindow filter ts)
  plain : ∀ ts, Timestamp.inRange ts = true → Timestamp.inDateTime ts = true → InWindow filter ts →
    ∀ text ∈ filter.targetRef, Plain text.toList

theorem ilike_plain {text target : String} (plain : Plain text.toList) :
    ilike fold (anywhere text.toList) target.toList = true ↔ Contains fold target text := by
  have percent : fold.lower '%' = '%' := fold.keeps rfl
  have lowered : Plain (text.toList.map fold.lower) := by
    intro c member
    obtain ⟨d, among, rfl⟩ := List.mem_map.mp member
    by_contra special
    have special := Bool.of_not_eq_false special
    have same := (fold.special _ special d).mp rfl
    rw [← same] at special
    exact absurd (plain d among) (by simp [special])
  have pattern : (anywhere text.toList).map fold.lower = anywhere (text.toList.map fold.lower) := by
    simp [anywhere, percent]
  rw [ilike, pattern]
  exact like_anywhere_plain lowered

theorem selected_iff_satisfies (unambiguous : Unambiguous filter) (valid : row.Valid) :
    Selected fold filter row ↔ Satisfies fold filter row := by
  have window := unambiguous.window row.ts valid.range valid.readable
  constructor
  · intro ⟨names, target, sent⟩
    have inside := window.mp sent
    refine ⟨names, fun text member => ?_, inside⟩
    obtain ⟨found, stands, fits⟩ := target text member
    have plain := unambiguous.plain row.ts valid.range valid.readable inside text member
    exact ⟨found, stands, (ilike_plain plain).mp fits⟩
  · intro ⟨names, target, inside⟩
    refine ⟨names, fun text member => ?_, window.mpr inside⟩
    obtain ⟨found, stands, contains⟩ := target text member
    have plain := unambiguous.plain row.ts valid.range valid.readable inside text member
    exact ⟨found, stands, (ilike_plain plain).mpr contains⟩

theorem exact_of_unambiguous (unambiguous : Unambiguous filter) : Exact fold dbError filter := by
  intro table valid
  refine ⟨listing fold filter table, ⟨?_, ?_, ?_⟩, ?_, ?_⟩
  · intro row
    rw [listing, List.mem_insertionSort, mem_picked]
    exact and_congr_right fun member => selected_iff_satisfies unambiguous (valid.rows row member)
  · have distinct : table.Nodup := List.Nodup.of_map _ valid.keys
    exact (List.perm_insertionSort _ _).nodup_iff.mpr (distinct.filter _)
  · refine (List.pairwise_insertionSort EventRow.newer _).imp ?_
    rintro a b (newer | ⟨same, -⟩)
    · exact newer.le
    · exact same.le
  · intro size n _ reach
    exact pages_ok unambiguous.sendable reach
  · rw [count_ok unambiguous.sendable, listing, List.length_insertionSort]

/-! ## Tables of one row -/

section Necessary
variable (exact : Exact fold dbError filter)
include exact

theorem sendable_of_exact : Sendable filter := by
  by_contra unsendable
  obtain ⟨rows, -, -, counted⟩ := exact [] ⟨nofun, List.nodup_nil⟩
  rw [count_refused unsendable] at counted
  cases counted

theorem single_iff (valid : row.Valid) : Selected fold filter row ↔ Satisfies fold filter row := by
  have table : ValidTable [row] := ⟨fun other member => List.mem_singleton.mp member ▸ valid, List.nodup_singleton _⟩
  obtain ⟨rows, listed, -, counted⟩ := exact [row] table
  rw [count_ok (sendable_of_exact exact)] at counted
  have lengths : (picked fold filter [row]).length = rows.length := Except.ok.inj counted
  constructor
  · intro selected
    have among : row ∈ picked fold filter [row] := (mem_picked).mpr ⟨List.mem_singleton_self _, selected⟩
    have positive : 0 < rows.length := lengths ▸ List.length_pos_of_mem among
    obtain ⟨other, member⟩ := List.exists_mem_of_length_pos positive
    obtain ⟨stands, satisfies⟩ := (listed.members other).mp member
    exact List.mem_singleton.mp stands ▸ satisfies
  · intro satisfies
    have among : row ∈ rows := (listed.members row).mpr ⟨List.mem_singleton_self _, satisfies⟩
    have positive : 0 < (picked fold filter [row]).length := lengths ▸ List.length_pos_of_mem among
    obtain ⟨other, member⟩ := List.exists_mem_of_length_pos positive
    obtain ⟨stands, selected⟩ := (mem_picked).mp member
    exact List.mem_singleton.mp stands ▸ selected

end Necessary

/-- A row that has all that the filter names, with a target made from the text that is looked for. -/
def rowFor (filter : AuditFilter) (target : String → String) (ts : Timestamp) : EventRow where
  id := 0
  ts := ts
  actorId := filter.actorId.getD ""
  action := (filter.action.getD .other).asStr
  targetRef := filter.targetRef.map target
  credentialRef := none
  opSummary := none
  result := (filter.result.getD .success).asStr
  latencyMs := none
  metadata := .object []

theorem names_rowFor (target : String → String) (ts : Timestamp) : Names filter (rowFor filter target ts) where
  actor _ member := by simp [rowFor, Option.mem_def.mp member]
  action _ member := by simp [rowFor, Option.mem_def.mp member]
  result _ member := by simp [rowFor, Option.mem_def.mp member]

theorem valid_rowFor (sendable : Sendable filter) {target : String → String}
    (keeps : ∀ text, storable text = true → storable (target text) = true) {ts : Timestamp}
    (range : Timestamp.inRange ts = true) (readable : Timestamp.inDateTime ts = true) :
    (rowFor filter target ts).Valid where
  texts := by
    have actor : storable (filter.actorId.getD "") = true := by
      cases named : filter.actorId with
      | none => decide
      | some actor => exact sendable.actor actor named
    have target : ∀ text ∈ (filter.targetRef.map target).toList, storable text = true := by
      intro text member
      obtain ⟨given, looked, rfl⟩ := Option.map_eq_some_iff.mp (Option.mem_toList.mp member)
      exact keeps given (sendable.target given looked)
    intro text member
    simp only [EventRow.texts, rowFor, Option.toList_none, List.append_nil, List.mem_cons] at member
    rcases member with rfl | rfl | rfl | among
    · exact actor
    · exact storable_action _
    · exact storable_result _
    · exact target text among
  result := result_taken _
  range := range
  readable := readable

/-- The text itself with, behind it, a text that its pattern fits. -/
def behindIt (text : String) : String := String.ofList (text.toList ++ shortest text.toList)

def instead (text : String) : String := String.ofList (shortest text.toList)

theorem storable_iff {text : String} : storable text = true ↔ '\x00' ∉ text.toList := by
  simp [storable]

theorem storable_shortest {text : String} (taken : storable text = true) : '\x00' ∉ shortest text.toList := by
  intro member
  rcases mem_shortest text.toList member with old | made | made
  · exact (storable_iff).mp taken old
  · cases made
  · cases made

theorem storable_instead (text : String) (taken : storable text = true) : storable (instead text) = true := by
  rw [storable_iff, instead, String.toList_ofList]
  exact storable_shortest taken

theorem storable_behindIt (text : String) (taken : storable text = true) : storable (behindIt text) = true := by
  rw [storable_iff, behindIt, String.toList_ofList, List.mem_append, not_or]
  exact ⟨(storable_iff).mp taken, storable_shortest taken⟩

theorem selected_rowFor {target : String → String} {front : String → List Char}
    (made : ∀ text, (target text).toList = front text ++ shortest text.toList) {ts : Timestamp} :
    Selected fold filter (rowFor filter target ts) ↔ InSentWindow filter ts := by
  constructor
  · exact Selected.window
  · intro sent
    refine ⟨names_rowFor target ts, fun text member => ?_, sent⟩
    refine ⟨target text, Option.mem_map_of_mem target member, ?_⟩
    rw [made]
    exact ilike_shortest fold text.toList (front text)

theorem contains_behindIt (text : String) : Contains fold (behindIt text) text := by
  rw [Contains, behindIt, String.toList_ofList, List.map_append]
  exact (List.prefix_append _ _).isInfix

theorem satisfies_behindIt {ts : Timestamp} :
    Satisfies fold filter (rowFor filter behindIt ts) ↔ InWindow filter ts := by
  constructor
  · exact Satisfies.window
  · intro inside
    exact ⟨names_rowFor behindIt ts,
      fun text member => ⟨behindIt text, Option.mem_map_of_mem behindIt member, contains_behindIt text⟩, inside⟩

theorem unambiguous_of_exact (exact : Exact fold dbError filter) : Unambiguous filter := by
  have sendable := sendable_of_exact exact
  have window : ∀ ts, Timestamp.inRange ts = true → Timestamp.inDateTime ts = true →
      (InSentWindow filter ts ↔ InWindow filter ts) := by
    intro ts range readable
    have made : ∀ text, (behindIt text).toList = text.toList ++ shortest text.toList :=
      fun text => String.toList_ofList
    have sent : Selected fold filter (rowFor filter behindIt ts) ↔ InSentWindow filter ts := selected_rowFor made
    have meant : Satisfies fold filter (rowFor filter behindIt ts) ↔ InWindow filter ts := satisfies_behindIt
    rw [← sent, ← meant]
    exact single_iff exact (valid_rowFor sendable storable_behindIt range readable)
  refine ⟨sendable, window, ?_⟩
  intro ts range readable inside text looked
  have made : ∀ text, (instead text).toList = [] ++ shortest text.toList := fun text => String.toList_ofList
  have selected : Selected fold filter (rowFor filter instead ts) :=
    (selected_rowFor made).mpr ((window ts range readable).mpr inside)
  have satisfies := (single_iff exact (valid_rowFor sendable storable_instead range readable)).mp selected
  obtain ⟨target, stands, contains⟩ := satisfies.target text looked
  have named : target = instead text := by
    have mapped : (filter.targetRef.map instead) = some (instead text) := Option.map_eq_some_iff.mpr ⟨text, looked, rfl⟩
    exact Option.some.inj ((Option.mem_def.mp stands).symm.trans mapped)
  rw [named, Contains, instead, String.toList_ofList] at contains
  exact plain_of_infix_shortest fold text.toList contains

/-- Filtering and paging are exact for the filters that are sent unambiguously. -/
theorem paging_exact_iff (fold : Folding) (dbError : String) (filter : AuditFilter) :
    Exact fold dbError filter ↔ Unambiguous filter :=
  ⟨unambiguous_of_exact, exact_of_unambiguous⟩

def underscoreFilter : AuditFilter := ⟨none, none, some "srv_1", none, none, none⟩

def dashRow : EventRow where
  id := 0
  ts := 0
  actorId := "admin"
  action := "broker.execute"
  targetRef := some "host://srv-1"
  credentialRef := none
  opSummary := none
  result := "success"
  latencyMs := none
  metadata := .object []

theorem valid_dashRow : dashRow.Valid where
  texts := by decide
  result := by decide
  range := by decide
  readable := by decide

theorem underscore_stands_for_dash :
    query asciiFolding "db error" [dashRow] underscoreFilter 1 0 = .ok [rowToEvent dashRow] ∧
      ¬ Satisfies asciiFolding underscoreFilter dashRow ∧ ¬ Exact asciiFolding "db error" underscoreFilter := by
  have fits : ilike asciiFolding (anywhere "srv_1".toList) "host://srv-1".toList = true := by decide
  have selected : Selected asciiFolding underscoreFilter dashRow := by
    constructor
    · exact ⟨nofun, nofun, nofun⟩
    · rintro text ⟨⟩
      exact ⟨"host://srv-1", rfl, fits⟩
    · exact ⟨nofun, nofun⟩
  have outside : ¬ Satisfies asciiFolding underscoreFilter dashRow := by
    intro satisfies
    obtain ⟨target, ⟨⟩, contains⟩ := satisfies.target "srv_1" rfl
    exact absurd contains (by unfold Contains; decide)
  refine ⟨rfl, outside, fun exact => outside ?_⟩
  exact (single_iff exact valid_dashRow).mp selected

end Daimon.Proof.Audit
