import Daimon.Lib.Lists
import Daimon.Vault.Client

/-!
# The cache against the table

A cached secret of a name is one that the table gave the name at or after every write to the name that has
cleared the cache, as long as no `resolve` fills the cache with what it read before such a write.
-/

namespace Daimon.Proof.Vault
open Daimon.Core Daimon.Vault Lib
open Daimon.Broker (Credential CredentialRef VaultError)

def MappedAt (c : Client) (k : Nat) (name : String) (cred : Credential) : Prop :=
  ∃ table row, c.contents[k]? = some table ∧ table.byName name = some row ∧ row.payload = cred

/-- One of the contents of the table from `since` on gives the name this credential. -/
def Mapped (c : Client) (since : Nat) (name : String) (cred : Credential) : Prop :=
  ∃ k, since ≤ k ∧ MappedAt c k name cred

/-- A `resolve` puts what it read into the cache only while no write to the name after the read has cleared it. -/
def fillsInTime (c : Client) : Client.Action → Bool
  | .step i .lock =>
      match c.calls[i]? with
      | some (.resolve _ name (.fill _ version)) =>
          c.calls.all fun call =>
            match call with
            | .mutate _ (.returned write) => name ∉ write.names || write.version ≤ version
            | _ => true
      | _ => true
  | _ => true

/-! ## What one step of a call does -/

inductive Quiet : Call → Prop
  | error {ref : CredentialRef} {name : String} {e : VaultError} : Quiet (.resolve ref name (.returned (.error e)))
  | dropped {ref : CredentialRef} {name : String} : Quiet (.resolve ref name .dropped)
  | create {name : String} {cred : Credential} {phase : Create} : Quiet (.create name cred phase)
  | failed {m : Mutation} {e : VaultError} : Quiet (.mutate m (.failed e))
  | given {m : Mutation} : Quiet (.mutate m .dropped)

inductive Move (c : Client) : Client.Answer → Call → Client.Effect → Prop
  | hit {answer : Client.Answer} {ref : CredentialRef} {name : String} {cache : Cache} {entry : CacheEntry}
      (found : (name, entry) ∈ c.cache.entries)
      (kept : ∀ e ∈ cache.entries, e ∈ c.cache.entries) :
      Move c answer (.resolve ref name .lookup) ⟨none, cache, .resolve ref name (.returned (.ok entry.cred))⟩
  | miss {answer : Client.Answer} {ref : CredentialRef} {name : String} {cache : Cache}
      (kept : ∀ e ∈ cache.entries, e ∈ c.cache.entries) :
      Move c answer (.resolve ref name .lookup) ⟨none, cache, .resolve ref name .query⟩
  | read {answer : Client.Answer} {ref : CredentialRef} {name : String} {row : CredentialRow}
      (found : c.table.byName name = some row) :
      Move c answer (.resolve ref name .query) ⟨none, c.cache, .resolve ref name (.fill row.payload c.version)⟩
  | fill {ref : CredentialRef} {name : String} {cred : Credential} {version : Nat} :
      Move c .lock (.resolve ref name (.fill cred version))
        ⟨none, c.cache.put name ⟨cred, c.now⟩, .resolve ref name (.returned (.ok cred))⟩
  | write {answer : Client.Answer} {m : Mutation} {table : Credentials} (done : m.execute c.table = .ok table) :
      Move c answer (.mutate m .write)
        ⟨some table, c.cache, .mutate m (.invalidate ⟨m.names c.table, c.version + 1⟩)⟩
  | invalidate {answer : Client.Answer} {m : Mutation} {write : Write} :
      Move c answer (.mutate m (.invalidate write)) ⟨none, .empty, .mutate m (.returned write)⟩
  | quiet {answer : Client.Answer} {call call' : Call} {stored : Option Credentials} (quiet : Quiet call') :
      Move c answer call ⟨stored, c.cache, call'⟩

variable {c c' : Client} {i : Nat} {ref : CredentialRef} {name : String} {cred : Credential} {write : Write}

theorem lookup_move (c : Client) (answer : Client.Answer) (ref : CredentialRef) (name : String) :
    Move c answer (.resolve ref name .lookup) (c.lookup ref name) := by
  have found (entry : CacheEntry) : (c.cache.get name).1 = some entry → (name, entry) ∈ c.cache.entries := Lru.mem_of_get
  have kept : ∀ e ∈ (c.cache.get name).2.entries, e ∈ c.cache.entries := fun _ => Lru.mem_get
  unfold Client.lookup
  split
  · rename_i entry cache got
    rw [got] at found kept
    split
    · exact .hit (found entry rfl) kept
    · exact .miss fun e member => kept e (Lru.mem_pop member)
  · rename_i cache got
    rw [got] at kept
    exact .miss kept

theorem stepResolve_move {phase : Resolve} {answer : Client.Answer} {effect : Client.Effect}
    (stepped : c.stepResolve ref name phase answer = some effect) : Move c answer (.resolve ref name phase) effect := by
  unfold Client.stepResolve at stepped
  split at stepped
  · cases stepped
    exact lookup_move c _ ref name
  · cases stepped
    unfold Client.query
    split
    · exact .read ‹_›
    · exact .quiet .error
  · cases stepped
    exact .quiet .error
  · cases stepped
    exact .fill
  all_goals cases stepped
  all_goals exact .quiet .dropped

theorem stepCreate_move {phase : Create} {answer : Client.Answer} {effect : Client.Effect}
    (stepped : c.stepCreate name cred phase answer = some effect) : Move c answer (.create name cred phase) effect := by
  unfold Client.stepCreate at stepped
  split at stepped
  · split at stepped
    all_goals cases stepped
    all_goals exact .quiet .create
  · cases stepped
    exact .quiet .create
  · split at stepped
    all_goals cases stepped
    exact .quiet .create
  · cases stepped
    exact .quiet .create
  · cases stepped

theorem stepMutate_move {m : Mutation} {phase : Mutate} {answer : Client.Answer} {effect : Client.Effect}
    (stepped : c.stepMutate m phase answer = some effect) : Move c answer (.mutate m phase) effect := by
  unfold Client.stepMutate at stepped
  split at stepped
  · split at stepped
    all_goals cases stepped
    · exact .write ‹_›
    · exact .quiet .failed
  · cases stepped
    exact .quiet .failed
  · split at stepped
    all_goals cases stepped
    exact .quiet .failed
  · cases stepped
    exact .invalidate
  all_goals cases stepped
  all_goals exact .quiet .given

theorem stepCall_move {call : Call} {answer : Client.Answer} {effect : Client.Effect}
    (stepped : c.stepCall answer call = some effect) : Move c answer call effect := by
  cases call with
  | unnamed ref => cases stepped
  | resolve ref name phase => exact stepResolve_move stepped
  | create name cred phase => exact stepCreate_move stepped
  | mutate m phase => exact stepMutate_move stepped

section Inversion
variable {answer : Client.Answer} {call : Call} {effect : Client.Effect}

theorem Move.of_fill {version : Nat} (move : Move c answer call effect)
    (is : effect.call = .resolve ref name (.fill cred version)) :
    version = c.version ∧ ∃ row, c.table.byName name = some row ∧ row.payload = cred := by
  cases move with
  | read found =>
      cases is
      exact ⟨rfl, _, found, rfl⟩
  | quiet quiet =>
      subst is
      cases quiet
  | hit | miss | fill | write | invalidate => cases is

theorem Move.of_invalidate {m : Mutation} (move : Move c answer call effect)
    (is : effect.call = .mutate m (.invalidate write)) :
    write = ⟨m.names c.table, c.version + 1⟩ ∧ ∃ table, effect.stored = some table ∧ m.execute c.table = .ok table := by
  cases move with
  | write done =>
      cases is
      exact ⟨rfl, _, rfl, done⟩
  | quiet quiet =>
      subst is
      cases quiet
  | hit | miss | read | fill | invalidate => cases is

theorem Move.of_returned {m : Mutation} (move : Move c answer call effect)
    (is : effect.call = .mutate m (.returned write)) :
    call = .mutate m (.invalidate write) ∧ effect.cache = .empty := by
  cases move with
  | invalidate =>
      cases is
      exact ⟨rfl, rfl⟩
  | quiet quiet =>
      subst is
      cases quiet
  | hit | miss | read | fill | write => cases is

theorem Move.of_ok (move : Move c answer call effect)
    (is : effect.call = .resolve ref name (.returned (.ok cred))) :
    (∃ entry, (name, entry) ∈ c.cache.entries ∧ entry.cred = cred) ∨
      ∃ version, call = .resolve ref name (.fill cred version) := by
  cases move with
  | hit found =>
      cases is
      exact Or.inl ⟨_, found, rfl⟩
  | fill =>
      cases is
      exact Or.inr ⟨_, rfl⟩
  | quiet quiet =>
      subst is
      cases quiet
  | miss | read | write | invalidate => cases is

theorem Move.of_cached {e : String × CacheEntry} (move : Move c answer call effect)
    (member : e ∈ effect.cache.entries) :
    e ∈ c.cache.entries ∨ ∃ ref name cred version,
      answer = .lock ∧ call = .resolve ref name (.fill cred version) ∧ e = (name, ⟨cred, c.now⟩) := by
  cases move with
  | hit found kept => exact Or.inl (kept _ member)
  | miss kept => exact Or.inl (kept _ member)
  | fill =>
      rcases Lru.mem_put member with rfl | old
      · exact Or.inr ⟨_, _, _, _, rfl, rfl, rfl⟩
      · exact Or.inl old
  | invalidate => cases member
  | read | write | quiet => exact Or.inl member

end Inversion

/-! ## The contents of the table -/

@[simp] theorem calls_apply (c : Client) (i : Nat) (effect : Client.Effect) :
    (c.apply i effect).calls = c.calls.set i effect.call := by
  unfold Client.apply
  split <;> rfl

@[simp] theorem cache_apply (c : Client) (i : Nat) (effect : Client.Effect) :
    (c.apply i effect).cache = effect.cache := by
  unfold Client.apply
  split <;> rfl

theorem contents_apply (c : Client) (i : Nat) (effect : Client.Effect) :
    (c.apply i effect).contents = c.contents ++ effect.stored.toList := by
  unfold Client.apply Client.contents
  split
  · rename_i table stored
    simp [stored]
  · rename_i stored
    simp [stored]

theorem contents_length (c : Client) : c.contents.length = c.version + 1 := by
  simp [Client.contents, Client.version]

theorem contents_mono {k : Nat} {table : Credentials} (there : c.contents[k]? = some table)
    (kept : c.contents <+: c'.contents) : c'.contents[k]? = some table := by
  obtain ⟨new, extended⟩ := kept
  rw [← extended, List.getElem?_append_left (List.getElem?_eq_some_iff.mp there).1, there]

theorem MappedAt.mono {k : Nat} (mapped : MappedAt c k name cred) (kept : c.contents <+: c'.contents) :
    MappedAt c' k name cred := by
  obtain ⟨table, row, there, found⟩ := mapped
  exact ⟨table, row, contents_mono there kept, found⟩

theorem Mapped.mono {since : Nat} (mapped : Mapped c since name cred) (kept : c.contents <+: c'.contents) :
    Mapped c' since name cred := by
  obtain ⟨k, late, there⟩ := mapped
  exact ⟨k, late, there.mono kept⟩

def Executed (c : Client) (m : Mutation) (write : Write) : Prop :=
  ∃ k old new, write = ⟨m.names old, k + 1⟩ ∧ c.contents[k]? = some old ∧ c.contents[k + 1]? = some new ∧
    m.execute old = .ok new

theorem Executed.mono {m : Mutation} (executed : Executed c m write) (kept : c.contents <+: c'.contents) :
    Executed c' m write := by
  obtain ⟨k, old, new, is, before, after, done⟩ := executed
  exact ⟨k, old, new, is, contents_mono before kept, contents_mono after kept, done⟩

theorem Executed.le_version {m : Mutation} (executed : Executed c m write) : write.version ≤ c.version := by
  obtain ⟨k, old, new, rfl, -, after, -⟩ := executed
  have bound := (List.getElem?_eq_some_iff.mp after).1
  rw [contents_length] at bound
  exact Nat.le_of_lt_succ bound

theorem mappedAt_now {row : CredentialRow} (found : c.table.byName name = some row) :
    MappedAt c c.version name row.payload :=
  ⟨c.table, row, by simp [Client.contents, Client.version], found, rfl⟩

/-! ## Coherence -/

structure Coherent (c : Client) : Prop where
  read {i : Nat} {ref : CredentialRef} {name : String} {cred : Credential} {version : Nat} :
    c.calls[i]? = some (.resolve ref name (.fill cred version)) → MappedAt c version name cred
  writing {i : Nat} {m : Mutation} {write : Write} :
    c.calls[i]? = some (.mutate m (.invalidate write)) → Executed c m write
  written {i : Nat} {m : Mutation} {write : Write} :
    c.calls[i]? = some (.mutate m (.returned write)) → Executed c m write
  cached {i : Nat} {m : Mutation} {write : Write} {name : String} {entry : CacheEntry} :
    c.calls[i]? = some (.mutate m (.returned write)) → name ∈ write.names →
      (name, entry) ∈ c.cache.entries → Mapped c write.version name entry.cred

theorem coherent_new (now : Nat) (table : Credentials) : Coherent (Client.new now table) where
  read found := by simp [Client.new] at found
  writing found := by simp [Client.new] at found
  written found := by simp [Client.new] at found
  cached found := by simp [Client.new] at found

inductive First : Call → Prop
  | unnamed {ref : CredentialRef} : First (.unnamed ref)
  | lookup {ref : CredentialRef} {name : String} : First (.resolve ref name .lookup)
  | insert {name : String} {cred : Credential} : First (.create name cred .insert)
  | write {m : Mutation} : First (.mutate m .write)

theorem step_cases {action : Client.Action} (stepped : c.step action = some c') :
    (∃ call, First call ∧ c' = c.start call) ∨ (∃ nanos, c' = { c with now := c.now + nanos }) ∨
      ∃ i answer call effect, action = .step i answer ∧ c.calls[i]? = some call ∧
        c.stepCall answer call = some effect ∧ c' = c.apply i effect := by
  cases action with
  | resolve ref =>
      simp only [Client.step] at stepped
      split at stepped
      · cases stepped
        exact Or.inl ⟨_, .lookup, rfl⟩
      · cases stepped
        exact Or.inl ⟨_, .unnamed, rfl⟩
  | create name cred =>
      cases stepped
      exact Or.inl ⟨_, .insert, rfl⟩
  | mutate m =>
      cases stepped
      exact Or.inl ⟨_, .write, rfl⟩
  | elapse nanos =>
      cases stepped
      exact Or.inr (Or.inl ⟨nanos, rfl⟩)
  | step i answer =>
      obtain ⟨effect, moved, rfl⟩ := Option.map_eq_some_iff.mp stepped
      obtain ⟨call, found, effected⟩ := Option.bind_eq_some_iff.mp moved
      exact Or.inr (Or.inr ⟨i, answer, call, effect, rfl, found, effected, rfl⟩)

theorem step_contents {action : Client.Action} (stepped : c.step action = some c') : c.contents <+: c'.contents := by
  obtain ⟨call, -, rfl⟩ | ⟨nanos, rfl⟩ | ⟨i, answer, call, effect, -, -, -, rfl⟩ := step_cases stepped
  · exact List.prefix_refl _
  · exact List.prefix_refl _
  · rw [contents_apply]
    exact List.prefix_append _ _

theorem Coherent.start {call : Call} (coherent : Coherent c) (first : First call) : Coherent (c.start call) := by
  have old {j : Nat} {other : Call} (found : (c.start call).calls[j]? = some other) (later : ¬First other) :
      c.calls[j]? = some other := by
    rcases snoc_cases found with before | ⟨-, rfl⟩
    · exact before
    · exact absurd first later
  constructor
  · intro i ref name cred version found
    exact coherent.read (old found (by rintro ⟨⟩))
  · intro i m write found
    exact coherent.writing (old found (by rintro ⟨⟩))
  · intro i m write found
    exact coherent.written (old found (by rintro ⟨⟩))
  · intro i m write name entry found
    exact coherent.cached (old found (by rintro ⟨⟩))

theorem fillsInTime_iff {version : Nat} {j : Nat} {m : Mutation}
    (inTime : fillsInTime c (.step i .lock) = true)
    (filling : c.calls[i]? = some (.resolve ref name (.fill cred version)))
    (cleared : c.calls[j]? = some (.mutate m (.returned write))) (touched : name ∈ write.names) :
    write.version ≤ version := by
  simp only [fillsInTime, filling, List.all_eq_true] at inTime
  simpa [touched] using inTime _ (List.mem_of_getElem? cleared)

theorem Coherent.apply {answer : Client.Answer} {call : Call} {effect : Client.Effect} (coherent : Coherent c)
    (there : c.calls[i]? = some call) (move : Move c answer call effect)
    (inTime : fillsInTime c (.step i answer) = true) : Coherent (c.apply i effect) := by
  have kept : c.contents <+: (c.apply i effect).contents := by
    rw [contents_apply]
    exact List.prefix_append _ _
  constructor
  · intro j ref name cred version found
    rw [calls_apply] at found
    rcases set_cases found with ⟨-, is⟩ | ⟨-, old⟩
    · obtain ⟨rfl, row, current, rfl⟩ := move.of_fill is.symm
      exact (mappedAt_now current).mono kept
    · exact (coherent.read old).mono kept
  · intro j m write found
    rw [calls_apply] at found
    rcases set_cases found with ⟨-, is⟩ | ⟨-, old⟩
    · obtain ⟨rfl, table, stored, done⟩ := move.of_invalidate is.symm
      refine ⟨c.version, c.table, table, rfl, contents_mono (by simp [Client.contents, Client.version]) kept, ?_, done⟩
      rw [contents_apply, stored, ← contents_length]
      simp
    · exact (coherent.writing old).mono kept
  · intro j m write found
    rw [calls_apply] at found
    rcases set_cases found with ⟨-, is⟩ | ⟨-, old⟩
    · rw [(move.of_returned is.symm).1] at there
      exact (coherent.writing there).mono kept
    · exact (coherent.written old).mono kept
  · intro j m write name entry found touched member
    rw [calls_apply] at found
    rw [cache_apply] at member
    rcases set_cases found with ⟨-, is⟩ | ⟨-, old⟩
    · rw [(move.of_returned is.symm).2] at member
      cases member
    · rcases move.of_cached member with before | ⟨ref, filled, cred, version, rfl, rfl, is⟩
      · exact (coherent.cached old touched before).mono kept
      · obtain ⟨rfl, rfl⟩ := Prod.mk.inj is
        exact ⟨version, fillsInTime_iff inTime there old touched, (coherent.read there).mono kept⟩

theorem step_coherent {action : Client.Action} (inTime : fillsInTime c action = true) (coherent : Coherent c)
    (stepped : c.step action = some c') : Coherent c' := by
  obtain ⟨call, first, rfl⟩ | ⟨nanos, rfl⟩ | ⟨i, answer, call, effect, rfl, there, effected, rfl⟩ := step_cases stepped
  · exact coherent.start first
  · exact ⟨coherent.read, coherent.writing, coherent.written, coherent.cached⟩
  · exact coherent.apply there (stepCall_move effected) inTime

/-! ## Calls that start after a mutation returned -/

theorem returned_stays {k : Nat} {m : Mutation} {action : Client.Action} (stepped : c.step action = some c')
    (cleared : c.calls[k]? = some (.mutate m (.returned write))) :
    c'.calls[k]? = some (.mutate m (.returned write)) := by
  obtain ⟨call, first, rfl⟩ | ⟨nanos, rfl⟩ | ⟨i, answer, call, effect, rfl, there, effected, rfl⟩ := step_cases stepped
  · exact (List.getElem?_append_left (List.getElem?_eq_some_iff.mp cleared).1).trans cleared
  · exact cleared
  · rw [calls_apply]
    by_cases same : i = k
    · subst same
      cases there.symm.trans cleared
      cases effected
    · rw [List.getElem?_set_ne same, cleared]

structure Fresh (c : Client) (write : Write) (name : String) (started : Nat) : Prop where
  filling {i : Nat} {ref : CredentialRef} {cred : Credential} {version : Nat} : started ≤ i →
    c.calls[i]? = some (.resolve ref name (.fill cred version)) → write.version ≤ version
  resolved {i : Nat} {ref : CredentialRef} {cred : Credential} : started ≤ i →
    c.calls[i]? = some (.resolve ref name (.returned (.ok cred))) → Mapped c write.version name cred

theorem fresh_now (write : Write) (name : String) : Fresh c write name c.calls.length where
  filling late found := absurd (List.getElem?_eq_some_iff.mp found).1 (Nat.not_lt.mpr late)
  resolved late found := absurd (List.getElem?_eq_some_iff.mp found).1 (Nat.not_lt.mpr late)

theorem step_fresh {k started : Nat} {m : Mutation} {action : Client.Action} (coherent : Coherent c)
    (cleared : c.calls[k]? = some (.mutate m (.returned write))) (touched : name ∈ write.names)
    (fresh : Fresh c write name started) (stepped : c.step action = some c') : Fresh c' write name started := by
  have kept := step_contents stepped
  obtain ⟨call, first, rfl⟩ | ⟨nanos, rfl⟩ | ⟨i, answer, call, effect, rfl, there, effected, rfl⟩ := step_cases stepped
  · constructor
    · intro j ref cred version late found
      rcases snoc_cases found with old | ⟨-, rfl⟩
      · exact fresh.filling late old
      · cases first
    · intro j ref cred late found
      rcases snoc_cases found with old | ⟨-, rfl⟩
      · exact fresh.resolved late old
      · cases first
  · exact ⟨fresh.filling, fresh.resolved⟩
  · have move := stepCall_move effected
    constructor
    · intro j ref cred version late found
      rw [calls_apply] at found
      rcases set_cases found with ⟨-, is⟩ | ⟨-, old⟩
      · rw [(move.of_fill is.symm).1]
        exact (coherent.written cleared).le_version
      · exact fresh.filling late old
    · intro j ref cred late found
      rw [calls_apply] at found
      rcases set_cases found with ⟨rfl, is⟩ | ⟨-, old⟩
      · rcases move.of_ok is.symm with ⟨entry, cached, rfl⟩ | ⟨version, rfl⟩
        · exact (coherent.cached cleared touched cached).mono kept
        · exact ⟨version, fresh.filling late there, (coherent.read there).mono kept⟩
      · exact (fresh.resolved late old).mono kept

/-- In every run whose fills come in time, a `resolve` that starts after an `update`, `rename` or `delete` of a
credential returned gives, under a name that the credential had before or after, only what the table gave that name
at or after the mutation's write. -/
theorem cache_coherent (now : Nat) (table : Credentials) (before after : List Client.Action) (c c' : Client)
    (inTime : AllSteps Client.step (fun c action => fillsInTime c action = true) (Client.new now table)
      (before ++ after))
    (reached : run Client.step (Client.new now table) before = some c) (ended : run Client.step c after = some c') :
    ∀ (k : Nat) (m : Mutation) (write : Write), c.calls[k]? = some (.mutate m (.returned write)) →
      Executed c m write ∧
      ∀ (i : Nat) (ref : CredentialRef) (name : String) (cred : Credential), name ∈ write.names → c.calls.length ≤ i →
        c'.calls[i]? = some (.resolve ref name (.returned (.ok cred))) → Mapped c' write.version name cred := by
  intro k m write cleared
  obtain ⟨inTime, inTime'⟩ := (allSteps_append reached).mp inTime
  have coherent : Coherent c :=
    invariant_of_allSteps (fun _ _ _ => step_coherent) inTime (coherent_new now table) reached
  refine ⟨coherent.written cleared, ?_⟩
  intro i ref name cred touched late resolved
  have all : Coherent c' ∧ c'.calls[k]? = some (.mutate m (.returned write)) ∧
      Fresh c' write name c.calls.length := by
    have kept (d : Client) (action : Client.Action) (d' : Client) (inTime : fillsInTime d action = true)
        (held : Coherent d ∧ d.calls[k]? = some (.mutate m (.returned write)) ∧ Fresh d write name c.calls.length)
        (stepped : d.step action = some d') :
        Coherent d' ∧ d'.calls[k]? = some (.mutate m (.returned write)) ∧ Fresh d' write name c.calls.length := by
      obtain ⟨coherent, cleared, fresh⟩ := held
      exact ⟨step_coherent inTime coherent stepped, returned_stays stepped cleared,
        step_fresh coherent cleared touched fresh stepped⟩
    have reached := invariant_of_allSteps kept inTime' ⟨coherent, cleared, fresh_now write name⟩ ended
    exact reached
  exact all.2.2.resolved late resolved

/-! ## A rotated token -/

def edgeTable : Credentials := ⟨[⟨1, "edge", .apiToken, .apiToken "old"⟩], by decide, by decide⟩

def edgeRef : CredentialRef := .named "edge"

def rotate : Mutation := .update 1 (.apiToken "new")

def resolveAroundRotation (rotation fill : List Client.Action) : List Client.Action × List Client.Action :=
  ([.resolve edgeRef, .step 0 .lock, .step 0 .row] ++ rotation, fill ++ [.resolve edgeRef, .step 2 .lock])

def lateFill : List Client.Action × List Client.Action :=
  resolveAroundRotation [.mutate rotate, .step 1 .written, .step 1 .lock] [.step 0 .lock]

def earlyFill : List Client.Action × List Client.Action :=
  resolveAroundRotation [.mutate rotate, .step 1 .written, .step 0 .lock, .step 1 .lock] []

theorem rotated_token_resolves : ∃ c c',
    run Client.step (Client.new 0 edgeTable) earlyFill.1 = some c ∧
    run Client.step c (earlyFill.2 ++ [.step 2 .row, .step 2 .lock]) = some c' ∧
    c'.calls[2]? = some (.resolve edgeRef "edge" (.returned (.ok (.apiToken "new")))) ∧
    Mapped c' 1 "edge" (.apiToken "new") := by
  refine ⟨_, _, rfl, rfl, rfl, ?_⟩
  have coherent := cache_coherent 0 edgeTable earlyFill.1 (earlyFill.2 ++ [.step 2 .row, .step 2 .lock]) _ _
    (by decide +kernel) rfl rfl 1 rotate ⟨["edge"], 1⟩ rfl
  exact coherent.2 2 edgeRef "edge" (.apiToken "new") (by decide) (by decide) rfl

/-- The update has returned, and a `resolve` that starts afterwards gives the token that it replaced. -/
theorem stale_token_resolves : ∃ c c',
    run Client.step (Client.new 0 edgeTable) lateFill.1 = some c ∧
    c.calls[1]? = some (.mutate rotate (.returned ⟨["edge"], 1⟩)) ∧ c.calls.length = 2 ∧
    run Client.step c lateFill.2 = some c' ∧
    c'.calls[2]? = some (.resolve edgeRef "edge" (.returned (.ok (.apiToken "old")))) ∧
    ¬Mapped c' 1 "edge" (.apiToken "old") := by
  refine ⟨_, _, rfl, rfl, rfl, rfl, rfl, ?_⟩
  rintro ⟨k, late, content, row, there, found, payload⟩
  have bound := (List.getElem?_eq_some_iff.mp there).1
  obtain rfl : k = 1 := by
    have : k < 2 := bound
    omega
  cases there
  cases found
  exact absurd payload (by decide)

end Daimon.Proof.Vault
