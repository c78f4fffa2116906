import Mathlib.Data.List.Chain
import Daimon.Redis.Working

/-!
# One working memory for the other

When the two backends give the same answers, told from the operations alone: what was pushed to a session and last set
under a key, and when.
-/

namespace Daimon.Proof.Redis
open Daimon.Lib Daimon.Redis
open RedisWorkingMemory (convKey)
open InProc (kvKey)

def day : Nat := 86400 * 1000000000

def pushes (sessionId : String) (past : List (Nat × Op)) : List (Nat × ConvMessage) :=
  past.filterMap fun
    | (t, .convPush s msg) => if s = sessionId then some (t, msg) else none
    | _ => none

/-- The time, the ttl and the value of the last `kv_set` under a flattened key, unless it was deleted since. -/
def lastSet (k : String) (past : List (Nat × Op)) : Option (Nat × Duration × Json) :=
  past.foldl (fun last e => match e with
    | (t, .kvSet agentId key value ttl) =>
        if kvKey agentId key = k ∧ Server.setexAccepts t (max ttl.secs.toNat 1) then some (t, ttl, value) else last
    | (_, .kvDelete agentId key) => if kvKey agentId key = k then none else last
    | _ => last) none

def redisDeadline (t : Nat) (ttl : Duration) : Nat := t + max ttl.secs.toNat 1 * 1000000000

def HeldByBoth (now t : Nat) (ttl : Duration) : Prop :=
  now < redisDeadline t ttl ∧ (ttl.isZero ∨ now ≤ t + ttl.asNanos)

def HeldByNeither (now t : Nat) (ttl : Duration) : Prop :=
  redisDeadline t ttl + 1000000 ≤ now ∧ ttl.isZero = false ∧ t + ttl.asNanos < now

/-- The condition on one operation, given the operations before it. -/
def Alike {Text : Type} (texts : JsonText Text) (past : List (Nat × Op)) (now : Nat) : Op → Prop
  | .convRecent sessionId n =>
      let sent := pushes sessionId past
      sent.length < 0x100000000 ∧ (n.toNat < 0x8000000000000000 ∨ sent = []) ∧
        ((sent.drop (sent.length - n.toNat)).map Prod.fst ++ [now]).IsChain fun a b => b < a + day
  | .kvSet _ _ _ ttl =>
      Server.setexAccepts now (max ttl.secs.toNat 1) ∨
        (ttl.isZero = false ∧ InProc.instantFits (now + ttl.asNanos) = false)
  | .kvGet agentId key =>
      match lastSet (kvKey agentId key) past with
      | none => True
      | some (t, ttl, value) =>
          (HeldByBoth now t ttl ∧ texts.decode (texts.encode value) = .ok value) ∨ HeldByNeither now t ttl
  | _ => True

def AllAlike {Text : Type} (texts : JsonText Text) (past : List (Nat × Op)) : List (Nat × Op) → Prop
  | [] => True
  | (now, op) :: rest => Alike texts past now op ∧ AllAlike texts (past ++ [(now, op)]) rest

section Keys

theorem redis_kvKey (agentId key : String) :
    RedisWorkingMemory.kvKey agentId key = "daimon:kv:" ++ kvKey agentId key := by
  simp [RedisWorkingMemory.kvKey, kvKey, String.append_assoc]

theorem conv_ne_kv (sessionId k : String) : convKey sessionId ≠ "daimon:kv:" ++ k := by
  intro same
  have chars := congrArg String.toList same
  simp [convKey] at chars

theorem conv_inj {s t : String} : convKey s = convKey t ↔ s = t := by simp [convKey]

end Keys

section Texts
variable {Text : Type} (texts : JsonText Text) (times : TimeText)

theorem plain_toValue (m : ConvMessage) : (m.toValue times).plain 128 := by
  refine Json.plain_ofFields (by decide) fun p member => ?_
  obtain ⟨⟨key, value⟩, -, present⟩ := List.mem_filterMap.mp member
  obtain ⟨role, content, toolUseId, ts⟩ := m
  cases toolUseId <;> simp_all <;> grind [Json.plain]

theorem fromValue_toValue (m : ConvMessage) : ConvMessage.fromValue times (m.toValue times) = some m := by
  obtain ⟨role, content, toolUseId, ts⟩ := m
  cases toolUseId <;>
    simp [ConvMessage.toValue, ConvMessage.fromValue, Driver.presentFields, Json.ofFields,
      Driver.NetworkResponse.structFields, Driver.NetworkResponse.decodeOptional, Json.asStr?,
      Json.lookup_insertField_self, Json.lookup_insertField_of_ne, times.round_trip]

theorem decodeConv_encode (m : ConvMessage) :
    RedisWorkingMemory.decodeConv texts times (texts.encode (m.toValue times)) = .ok m := by
  simp only [RedisWorkingMemory.decodeConv, texts.round_trip _ (plain_toValue times m), fromValue_toValue]

theorem decodeConv_encode_all (ms : List ConvMessage) :
    (ms.map fun m => texts.encode (m.toValue times)).mapM (RedisWorkingMemory.decodeConv texts times) = .ok ms := by
  induction ms with
  | nil => rfl
  | cons m rest ih => simp [decodeConv_encode, ih, bind, Except.bind, pure, Except.pure]

end Texts

/-! ## What each backend holds -/

section Tracks
variable {Text : Type} {server : Server} {texts : JsonText Text} {times : TimeText}
  {clock now : Nat} {past : List (Nat × Op)} {inner : Inner} {ks : Keyspace Text}

def Near (a b : Nat) : Prop := b < a + day

/-- `kept` is what Redis still has of the messages `sent`: at least those at the end with no gap of a day. -/
structure Kept (sent kept : List (Nat × ConvMessage)) : Prop where
  suffix : kept <:+ sent
  complete : ∀ recent, recent <:+ sent → (recent.map Prod.fst).IsChain Near → recent <:+ kept

def convEntry (texts : JsonText Text) (times : TimeText) (kept sent : List (Nat × ConvMessage)) :
    Option (Entry Text) :=
  sent.getLast?.map fun last =>
    ⟨.list (kept.map fun m => texts.encode (m.2.toValue times)), some (last.1 + day)⟩

def innerEntry (set : Nat × Duration × Json) : Json × Option Nat :=
  (set.2.2, if set.2.1.isZero then none else some (set.1 + set.2.1.asNanos))

def redisEntry (texts : JsonText Text) (set : Nat × Duration × Json) : Entry Text :=
  ⟨.string (texts.encode set.2.2), some (redisDeadline set.1 set.2.1)⟩

structure Tracks (texts : JsonText Text) (times : TimeText) (clock : Nat) (past : List (Nat × Op)) (inner : Inner)
    (ks : Keyspace Text) : Prop where
  conv : ∀ s, inner.conv s = (pushes s past).map Prod.snd
  list : ∀ s, ∃ kept, Kept (pushes s past) kept ∧ ks (convKey s) = convEntry texts times kept (pushes s past)
  /-- An entry that a read found expired is gone. -/
  value : ∀ k, inner.kv k = (lastSet k past).map innerEntry ∨
    (inner.kv k = none ∧ ∃ set ∈ lastSet k past, set.2.1.isZero = false ∧ set.1 + set.2.1.asNanos < clock)
  text : ∀ k, ks ("daimon:kv:" ++ k) = (lastSet k past).map (redisEntry texts)

theorem tracks_new : Tracks texts times 0 [] InProc.new RedisWorkingMemory.new where
  conv _ := rfl
  list _ := ⟨[], ⟨List.suffix_rfl, fun _ suffix _ => suffix⟩, rfl⟩
  value _ := Or.inl rfl
  text _ := rfl

theorem kept_snoc {sent kept kept' : List (Nat × ConvMessage)} {x : Nat × ConvMessage} (has : Kept sent kept)
    (still : kept' = kept ∨ (kept' = [] ∧ ∀ last ∈ sent.getLast?, ¬Near last.1 x.1)) :
    Kept (sent ++ [x]) (kept' ++ [x]) := by
  have shorter : kept' <:+ sent := by
    rcases still with rfl | ⟨rfl, -⟩
    · exact has.suffix
    · exact List.nil_suffix
  refine ⟨List.suffix_append_self_iff.mpr shorter, fun recent suffix chain => ?_⟩
  rcases List.suffix_concat_iff.mp suffix with rfl | ⟨earlier, rfl, before⟩
  · exact List.nil_suffix
  rw [List.map_append, List.isChain_append] at chain
  refine List.suffix_append_self_iff.mpr ?_
  rcases still with rfl | ⟨rfl, far⟩
  · exact has.complete earlier before chain.1
  -- the messages before `x` are gone, so none of them is near it
  · rcases List.eq_nil_or_concat earlier with rfl | ⟨front, last, rfl⟩
    · exact List.nil_suffix
    · have final : last ∈ sent.getLast? := by
        obtain ⟨front', rfl⟩ := before
        simp
      exact absurd (chain.2.2 last.1 (by simp) x.1 (by simp)) (far last final)

theorem lookup_convEntry (server : Server) (now : Nat) {key : String} {kept sent : List (Nat × ConvMessage)}
    (entry : ks key = convEntry texts times kept sent) :
    (server.lookup ks now key = none ∧ ∀ last ∈ sent.getLast?, ¬Near last.1 now) ∨
      (∃ last ∈ sent.getLast?, server.lookup ks now key =
        some ⟨.list (kept.map fun m => texts.encode (m.2.toValue times)), some (last.1 + day)⟩) := by
  cases final : sent.getLast? with
  | none => exact Or.inl ⟨by simp [Server.lookup, entry, convEntry, final], by simp⟩
  | some last =>
      cases gone : server.gone (last.1 + day) now with
      | true =>
          refine Or.inl ⟨by simp [Server.lookup, entry, convEntry, final, gone], ?_⟩
          rintro _ ⟨rfl⟩ near
          rw [server.kept near] at gone
          contradiction
      | false => exact Or.inr ⟨last, rfl, by simp [Server.lookup, entry, convEntry, final, gone]⟩

theorem expire_update {key : String} {entry : Entry Text} (secs : Nat)
    (alive : entry.expireAt.all fun deadline => !server.gone deadline now) :
    server.expire (Function.update ks key (some entry)) now key secs =
      Function.update ks key (some { entry with expireAt := some (now + secs * 1000000000) }) := by
  have found : server.lookup (Function.update ks key (some entry)) now key = some entry := by
    simp [Server.lookup, alive]
  simp [Server.expire, found]

theorem convPush_keyspace (server : Server) (now : Nat) {sessionId : String} (msg : ConvMessage)
    {kept sent : List (Nat × ConvMessage)} (entry : ks (convKey sessionId) = convEntry texts times kept sent) :
    ∃ kept', (kept' = kept ∨ (kept' = [] ∧ ∀ last ∈ sent.getLast?, ¬Near last.1 now)) ∧
      (RedisWorkingMemory.step server texts times ks now (.convPush sessionId msg)).1 =
        Function.update ks (convKey sessionId)
          (convEntry texts times (kept' ++ [(now, msg)]) (sent ++ [(now, msg)])) := by
  rcases lookup_convEntry server now entry with ⟨absent, far⟩ | ⟨last, final, found⟩
  · refine ⟨[], Or.inr ⟨rfl, far⟩, ?_⟩
    simp only [RedisWorkingMemory.step, Server.rpush, absent]
    rw [expire_update _ rfl]
    simp [convEntry, day]
  · refine ⟨kept, Or.inl rfl, ?_⟩
    have alive : server.gone (last.1 + day) now = false := by
      simpa using (Option.filter_eq_some_iff.mp found).2
    simp only [RedisWorkingMemory.step, Server.rpush, found]
    rw [expire_update _ (by simp [alive])]
    simp [convEntry, day]

/-! How each operation changes what was pushed and set. -/

@[simp] theorem pushes_push (s sessionId : String) (msg : ConvMessage) :
    pushes s (past ++ [(now, .convPush sessionId msg)]) =
      if sessionId = s then pushes s past ++ [(now, msg)] else pushes s past := by
  by_cases same : sessionId = s <;> simp [pushes, same]

@[simp] theorem lastSet_set (k agentId key : String) (value : Json) (ttl : Duration) :
    lastSet k (past ++ [(now, .kvSet agentId key value ttl)]) =
      if kvKey agentId key = k ∧ Server.setexAccepts now (max ttl.secs.toNat 1) then some (now, ttl, value)
      else lastSet k past := by
  simp [lastSet]

@[simp] theorem lastSet_delete (k agentId key : String) :
    lastSet k (past ++ [(now, .kvDelete agentId key)]) =
      if kvKey agentId key = k then none else lastSet k past := by
  simp [lastSet]

theorem pushes_other {op : Op} (s : String) (other : ∀ sessionId msg, op ≠ .convPush sessionId msg) :
    pushes s (past ++ [(now, op)]) = pushes s past := by
  cases op <;> simp_all [pushes]

theorem lastSet_other {op : Op} (k : String) (noSet : ∀ agentId key value ttl, op ≠ .kvSet agentId key value ttl)
    (noDelete : ∀ agentId key, op ≠ .kvDelete agentId key) :
    lastSet k (past ++ [(now, op)]) = lastSet k past := by
  cases op with
  | kvSet agentId key value ttl => exact absurd rfl (noSet agentId key value ttl)
  | kvDelete agentId key => exact absurd rfl (noDelete agentId key)
  | _ => simp [lastSet]

theorem instantFits_of_accepts {ttl : Duration} (accepts : Server.setexAccepts now (max ttl.secs.toNat 1)) :
    InProc.instantFits (now + ttl.asNanos) := by
  have small := ttl.nanos.isLt
  have below : max ttl.secs.toNat 1 * 1000 + now / 1000000 < 0x8000000000000000 := of_decide_eq_true accepts
  refine decide_eq_true (?_ : now + (ttl.secs.toNat * 1000000000 + ttl.nanos) < 0x8000000000000000 * 1000000000)
  omega

/-! ## One operation -/

theorem Tracks.value_later (tracks : Tracks texts times clock past inner ks) (later : clock ≤ now) (k : String) :
    inner.kv k = (lastSet k past).map innerEntry ∨
      (inner.kv k = none ∧ ∃ set ∈ lastSet k past, set.2.1.isZero = false ∧ set.1 + set.2.1.asNanos < now) := by
  refine (tracks.value k).imp_right ?_
  rintro ⟨gone, set, found, timed, dead⟩
  exact ⟨gone, set, found, timed, dead.trans_le later⟩

theorem tracks_push (tracks : Tracks texts times clock past inner ks) (later : clock ≤ now) (sessionId : String)
    (msg : ConvMessage) :
    Tracks texts times now (past ++ [(now, .convPush sessionId msg)])
      (InProc.step inner now (.convPush sessionId msg)).1
      (RedisWorkingMemory.step server texts times ks now (.convPush sessionId msg)).1 := by
  obtain ⟨kept, has, entry⟩ := tracks.list sessionId
  obtain ⟨kept', still, keyspace⟩ := convPush_keyspace server now msg entry
  have sets : ∀ k, lastSet k (past ++ [(now, .convPush sessionId msg)]) = lastSet k past :=
    fun k => lastSet_other k (by simp) (by simp)
  refine ⟨fun s => ?_, fun s => ?_, fun k => ?_, fun k => ?_⟩
  · by_cases same : sessionId = s
    · subst same
      simp [InProc.step, tracks.conv]
    · simp [InProc.step, same, Function.update_of_ne (Ne.symm same), tracks.conv]
  · by_cases same : sessionId = s
    · subst same
      exact ⟨kept' ++ [(now, msg)], by simpa using kept_snoc has still, by simp [keyspace]⟩
    · rw [keyspace, Function.update_of_ne (by simpa [conv_inj] using Ne.symm same)]
      simpa [same] using tracks.list s
  · rw [sets]
    exact tracks.value_later later k
  · rw [sets, keyspace, Function.update_of_ne (conv_ne_kv sessionId k).symm, tracks.text]

/-- An operation that pushes nothing leaves the conversations as they are. -/
theorem Tracks.of_kv {inner' : Inner} {ks' : Keyspace Text} {op : Op} (tracks : Tracks texts times clock past inner ks)
    (other : ∀ sessionId msg, op ≠ .convPush sessionId msg) (conv : inner'.conv = inner.conv)
    (lists : ∀ s, ks' (convKey s) = ks (convKey s))
    (value : ∀ k, inner'.kv k = (lastSet k (past ++ [(now, op)])).map innerEntry ∨
      (inner'.kv k = none ∧ ∃ set ∈ lastSet k (past ++ [(now, op)]),
        set.2.1.isZero = false ∧ set.1 + set.2.1.asNanos < now))
    (text : ∀ k, ks' ("daimon:kv:" ++ k) = (lastSet k (past ++ [(now, op)])).map (redisEntry texts)) :
    Tracks texts times now (past ++ [(now, op)]) inner' ks' where
  conv s := by rw [pushes_other s other, conv, tracks.conv]
  list s := by
    rw [pushes_other s other, lists]
    exact tracks.list s
  value := value
  text := text

theorem redis_read (server : Server) (ks : Keyspace Text) (now : Nat) {op : Op} (read : op.isRead) :
    (RedisWorkingMemory.step server texts times ks now op).1 = ks := by
  cases op with
  | convRecent | kvGet =>
      simp only [RedisWorkingMemory.step]
      split <;> rfl
  | convPush | kvSet | kvDelete => cases read

theorem tracks_recent (tracks : Tracks texts times clock past inner ks) (later : clock ≤ now) (sessionId : String)
    (n : UInt64) :
    Tracks texts times now (past ++ [(now, .convRecent sessionId n)])
      (InProc.step inner now (.convRecent sessionId n)).1
      (RedisWorkingMemory.step server texts times ks now (.convRecent sessionId n)).1 := by
  have sets : ∀ k, lastSet k (past ++ [(now, .convRecent sessionId n)]) = lastSet k past :=
    fun k => lastSet_other k (by simp) (by simp)
  rw [redis_read server ks now rfl]
  refine tracks.of_kv (by simp) rfl (fun _ => rfl) (fun k => ?_) fun k => ?_
  · rw [sets]
    exact tracks.value_later later k
  · rw [sets, tracks.text]

theorem tracks_set (tracks : Tracks texts times clock past inner ks) (later : clock ≤ now) {agentId key : String}
    {value : Json} {ttl : Duration} (alike : Alike texts past now (.kvSet agentId key value ttl)) :
    Tracks texts times now (past ++ [(now, .kvSet agentId key value ttl)])
      (InProc.step inner now (.kvSet agentId key value ttl)).1
      (RedisWorkingMemory.step server texts times ks now (.kvSet agentId key value ttl)).1 := by
  cases accepts : Server.setexAccepts now (max ttl.secs.toNat 1) with
  | true =>
      have fits := instantFits_of_accepts accepts
      have set : (InProc.step inner now (.kvSet agentId key value ttl)).1 =
          { inner with kv := Function.update inner.kv (kvKey agentId key) (some (innerEntry (now, ttl, value))) } := by
        by_cases zero : ttl.isZero <;> simp [InProc.step, innerEntry, zero, fits]
      simp only [set, RedisWorkingMemory.step, Server.setEx, accepts, if_true, redis_kvKey]
      refine tracks.of_kv (by simp) rfl (fun s => Function.update_of_ne (conv_ne_kv s _) _ _) (fun k => ?_) fun k => ?_
      · by_cases same : kvKey agentId key = k
        · simp [same, accepts]
        · simpa [same, Function.update_of_ne (Ne.symm same)] using tracks.value_later later k
      · by_cases same : kvKey agentId key = k
        · simp [same, accepts, redisEntry, redisDeadline]
        · rw [Function.update_of_ne (by simpa using Ne.symm same)]
          simpa [same] using tracks.text k
  | false =>
      obtain ⟨timed, unfit⟩ := alike.resolve_left (by simp [accepts])
      simp only [InProc.step, timed, unfit, RedisWorkingMemory.step, Server.setEx, accepts, Bool.false_eq_true,
        if_false]
      refine tracks.of_kv (by simp) rfl (fun _ => rfl) (fun k => ?_) fun k => ?_
      · simpa [accepts] using tracks.value_later later k
      · simpa [accepts] using tracks.text k

theorem tracks_delete (tracks : Tracks texts times clock past inner ks) (later : clock ≤ now)
    (agentId key : String) :
    Tracks texts times now (past ++ [(now, .kvDelete agentId key)])
      (InProc.step inner now (.kvDelete agentId key)).1
      (RedisWorkingMemory.step server texts times ks now (.kvDelete agentId key)).1 := by
  simp only [InProc.step, RedisWorkingMemory.step, Server.del, redis_kvKey]
  refine tracks.of_kv (by simp) rfl (fun s => Function.update_of_ne (conv_ne_kv s _) _ _) (fun k => ?_) fun k => ?_
  · by_cases same : kvKey agentId key = k
    · simp [same]
    · simpa [same, Function.update_of_ne (Ne.symm same)] using tracks.value_later later k
  · by_cases same : kvKey agentId key = k
    · simp [same]
    · rw [Function.update_of_ne (by simpa using Ne.symm same)]
      simpa [same] using tracks.text k

theorem expired_innerEntry {last : Option (Nat × Duration × Json)} :
    InProc.expired now (last.map innerEntry) = true ↔
      ∃ set ∈ last, set.2.1.isZero = false ∧ set.1 + set.2.1.asNanos < now := by
  cases last with
  | none => simp [InProc.expired]
  | some set => cases zero : set.2.1.isZero <;> simp [InProc.expired, innerEntry, zero]

theorem tracks_get (tracks : Tracks texts times clock past inner ks) (later : clock ≤ now) (agentId key : String) :
    Tracks texts times now (past ++ [(now, .kvGet agentId key)])
      (InProc.step inner now (.kvGet agentId key)).1
      (RedisWorkingMemory.step server texts times ks now (.kvGet agentId key)).1 := by
  have sets : ∀ k, lastSet k (past ++ [(now, .kvGet agentId key)]) = lastSet k past :=
    fun k => lastSet_other k (by simp) (by simp)
  rw [redis_read server ks now rfl]
  refine tracks.of_kv (by simp) rfl (fun _ => rfl) (fun k => ?_) fun k => ?_
  · rw [sets]
    have before := tracks.value_later later k
    simp only [InProc.step]
    split
    · rename_i dead
      by_cases same : kvKey agentId key = k
      · subst same
        refine Or.inr ⟨Function.update_self .., ?_⟩
        rcases before with held | ⟨-, removed⟩
        · exact (expired_innerEntry).mp (held ▸ dead)
        · exact removed
      · simpa [Function.update_of_ne (Ne.symm same)] using before
    · exact before
  · rw [sets, tracks.text]

theorem inProc_get (inner : Inner) (now : Nat) (agentId key : String) :
    (InProc.step inner now (.kvGet agentId key)).2 =
      .value (if InProc.expired now (inner.kv (kvKey agentId key)) then none
        else (inner.kv (kvKey agentId key)).map Prod.fst) := by
  simp only [InProc.step]
  split <;> simp

theorem redis_get_absent {agentId key : String}
    (absent : server.lookup ks now (RedisWorkingMemory.kvKey agentId key) = none) :
    (RedisWorkingMemory.step server texts times ks now (.kvGet agentId key)).2 = .value none := by
  simp [RedisWorkingMemory.step, RedisWorkingMemory.kvGet, Server.get, absent, bind, Except.bind, pure, Except.pure]

theorem redis_get_present {agentId key : String} {value : Json} {deadline : Option Nat}
    (present : server.lookup ks now (RedisWorkingMemory.kvKey agentId key) =
      some ⟨.string (texts.encode value), deadline⟩) (survives : texts.decode (texts.encode value) = .ok value) :
    (RedisWorkingMemory.step server texts times ks now (.kvGet agentId key)).2 = .value (some value) := by
  simp [RedisWorkingMemory.step, RedisWorkingMemory.kvGet, Server.get, present, survives, bind, Except.bind, pure,
    Except.pure]

theorem answer_get (tracks : Tracks texts times clock past inner ks) (later : clock ≤ now) {agentId key : String}
    (alike : Alike texts past now (.kvGet agentId key)) :
    (InProc.step inner now (.kvGet agentId key)).2 =
      (RedisWorkingMemory.step server texts times ks now (.kvGet agentId key)).2 := by
  have held := tracks.value_later later (kvKey agentId key)
  have entry := tracks.text (kvKey agentId key)
  rw [← redis_kvKey] at entry
  simp only [Alike] at alike
  rw [inProc_get]
  cases last : lastSet (kvKey agentId key) past with
  | none =>
      have absent : inner.kv (kvKey agentId key) = none := by simpa [last] using held
      rw [redis_get_absent (by simp [Server.lookup, entry, last])]
      simp [absent]
  | some set =>
      obtain ⟨t, ttl, value⟩ := set
      simp only [last] at alike held entry
      rcases alike with ⟨⟨alive, timed⟩, survives⟩ | ⟨gone, timed, dead⟩
      · have lookup : server.lookup ks now (RedisWorkingMemory.kvKey agentId key) =
            some (redisEntry texts (t, ttl, value)) := by
          simp [Server.lookup, entry, redisEntry, server.kept alive]
        have fresh : ¬(ttl.isZero = false ∧ t + ttl.asNanos < now) := by
          rintro ⟨nonzero, dead⟩
          rcases timed with zero | within
          · simp [zero] at nonzero
          · omega
        have kept : inner.kv (kvKey agentId key) = some (innerEntry (t, ttl, value)) := by
          rcases held with held | ⟨-, _, ⟨rfl⟩, expired⟩
          · exact held
          · exact absurd expired fresh
        have unexpired : InProc.expired now (some (innerEntry (t, ttl, value))) = false := by
          rw [Bool.eq_false_iff, ne_eq, ← Option.map_some, expired_innerEntry]
          rintro ⟨_, ⟨rfl⟩, expired⟩
          exact fresh expired
        rw [redis_get_present lookup survives, kept, unexpired]
        rfl
      · have lookup : server.lookup ks now (RedisWorkingMemory.kvKey agentId key) = none := by
          simp [Server.lookup, entry, redisEntry, server.removed gone]
        rw [redis_get_absent lookup]
        rcases held with held | ⟨held, -⟩
        · have expired : InProc.expired now (inner.kv (kvKey agentId key)) = true := by
            rw [held]
            exact (expired_innerEntry).mpr ⟨_, rfl, timed, dead⟩
          rw [if_pos expired]
        · simp [held]

theorem bmod_small {n : Int} (low : -0x8000000000000000 ≤ n) (high : n < 0x8000000000000000) :
    n.bmod 0x10000000000000000 = n := by
  apply Int.bmod_eq_of_le
  · omega
  · omega

theorem start_eq {len n : Nat} (few : len < 0x100000000) (positive : n < 0x8000000000000000) :
    RedisWorkingMemory.start len n = len - n := by
  unfold RedisWorkingMemory.start
  rw [bmod_small (n := n) (by omega) (by omega), bmod_small (by omega) (by omega)]
  exact Int.toNat_sub len n

theorem drop_suffix_eq {α : Type*} {all kept : List α} {n : Nat} (suffix : kept <:+ all)
    (has : all.drop (all.length - n) <:+ kept) : kept.drop (kept.length - n) = all.drop (all.length - n) := by
  have shorter := suffix.length_le
  have enough := has.length_le
  have ofAll : kept.drop (kept.length - n) <:+ all := (List.drop_suffix _ _).trans suffix
  rw [List.length_drop] at enough
  rw [List.suffix_iff_eq_drop.mp ofAll, List.length_drop]
  congr 1
  omega

theorem redis_recent_absent {sessionId : String} {n : UInt64}
    (absent : server.lookup ks now (convKey sessionId) = none) :
    (RedisWorkingMemory.step server texts times ks now (.convRecent sessionId n)).2 = .messages [] := by
  simp [RedisWorkingMemory.step, RedisWorkingMemory.convRecent, Server.llen, Server.lrange, absent, bind, Except.bind,
    pure, Except.pure]

theorem redis_recent_present {sessionId : String} {n : UInt64} {kept : List (Nat × ConvMessage)} {deadline : Option Nat}
    (present : server.lookup ks now (convKey sessionId) =
      some ⟨.list (kept.map fun m => texts.encode (m.2.toValue times)), deadline⟩) :
    (RedisWorkingMemory.step server texts times ks now (.convRecent sessionId n)).2 =
      .messages ((kept.drop (RedisWorkingMemory.start kept.length n.toNat)).map Prod.snd) := by
  have decoded := decodeConv_encode_all texts times
    ((kept.drop (RedisWorkingMemory.start kept.length n.toNat)).map Prod.snd)
  rw [List.map_map] at decoded
  have raw : (fun m => texts.encode (ConvMessage.toValue times m)) ∘ Prod.snd =
      fun m : Nat × ConvMessage => texts.encode (m.2.toValue times) := rfl
  rw [raw] at decoded
  simp only [RedisWorkingMemory.step, RedisWorkingMemory.convRecent, Server.llen, Server.lrange, present, bind,
    Except.bind, List.length_map, ← List.map_drop, decoded]

theorem answer_recent (tracks : Tracks texts times clock past inner ks) {sessionId : String} {n : UInt64}
    (alike : Alike texts past now (.convRecent sessionId n)) :
    (InProc.step inner now (.convRecent sessionId n)).2 =
      (RedisWorkingMemory.step server texts times ks now (.convRecent sessionId n)).2 := by
  obtain ⟨few, positive, chain⟩ := alike
  obtain ⟨kept, has, entry⟩ := tracks.list sessionId
  rw [List.isChain_append] at chain
  have inProc : (InProc.step inner now (.convRecent sessionId n)).2 =
      .messages (((pushes sessionId past).drop ((pushes sessionId past).length - n.toNat)).map Prod.snd) := by
    simp [InProc.step, tracks.conv]
  rw [inProc]
  rcases lookup_convEntry server now entry with ⟨absent, far⟩ | ⟨last, final, found⟩
  · have window : (pushes sessionId past).drop ((pushes sessionId past).length - n.toNat) = [] := by
      rcases List.eq_nil_or_concat ((pushes sessionId past).drop ((pushes sessionId past).length - n.toNat)) with
        empty | ⟨front, last, ends⟩
      · exact empty
      · have final : last ∈ (pushes sessionId past).getLast? := by
          obtain ⟨front', all⟩ := List.drop_suffix ((pushes sessionId past).length - n.toNat) (pushes sessionId past)
          rw [← all, ends]
          simp
        exact absurd (chain.2.2 last.1 (by simp [ends]) now (by simp)) (far last final)
    rw [redis_recent_absent absent, window, List.map_nil]
  · have window := drop_suffix_eq has.suffix (has.complete _ (List.drop_suffix _ _) chain.1)
    have shorter := has.suffix.length_le
    have nonempty : pushes sessionId past ≠ [] := by
      intro empty
      simp [empty] at final
    rw [redis_recent_present found, start_eq (by omega) (positive.resolve_right nonempty), window]

theorem tracks_step (server : Server) (tracks : Tracks texts times clock past inner ks) (later : clock ≤ now) {op : Op}
    (alike : Alike texts past now op) :
    Tracks texts times now (past ++ [(now, op)]) (InProc.step inner now op).1
      (RedisWorkingMemory.step server texts times ks now op).1 := by
  cases op with
  | convPush sessionId msg => exact tracks_push tracks later sessionId msg
  | convRecent sessionId n => exact tracks_recent tracks later sessionId n
  | kvSet agentId key value ttl => exact tracks_set tracks later alike
  | kvGet agentId key => exact tracks_get tracks later agentId key
  | kvDelete agentId key => exact tracks_delete tracks later agentId key

theorem answer_step (tracks : Tracks texts times clock past inner ks) (later : clock ≤ now) {op : Op}
    (alike : Alike texts past now op) (read : op.isRead) :
    (InProc.step inner now op).2 = (RedisWorkingMemory.step server texts times ks now op).2 := by
  cases op with
  | convRecent sessionId n => exact answer_recent tracks alike
  | kvGet agentId key => exact answer_get tracks later alike
  | convPush | kvSet | kvDelete => cases read

theorem reads_eq {rest : List (Nat × Op)} (tracks : Tracks texts times clock past inner ks)
    (ordered : (clock :: rest.map Prod.fst).IsChain (· ≤ ·)) (alike : AllAlike texts past rest) :
    reads InProc.step inner rest = reads (RedisWorkingMemory.step server texts times) ks rest := by
  induction rest generalizing clock past inner ks with
  | nil => rfl
  | cons e rest ih =>
      obtain ⟨now, op⟩ := e
      obtain ⟨later : clock ≤ now, ordered⟩ := List.isChain_cons_cons.mp ordered
      obtain ⟨here, remaining⟩ := alike
      have same := ih (tracks_step server tracks later here) ordered remaining
      simp only [reads, same]
      split
      · rename_i read
        rw [answer_step tracks later here read]
      · rfl

end Tracks

/-! ## Pairs -/

def Op.On (agentId key : String) : Op → Prop
  | .kvSet a k _ _ | .kvGet a k | .kvDelete a k => a = agentId ∧ k = key
  | _ => False

/-- No operation on the first pair changes what is read for the second. -/
def Apart {σ : Type} (step : σ → Nat → Op → σ × Answer) (first second : String × String) : Prop :=
  ∀ (s : σ) (now later : Nat) (op : Op), Op.On first.1 first.2 op →
    (step (step s now op).1 later (.kvGet second.1 second.2)).2 = (step s later (.kvGet second.1 second.2)).2

section Apart
variable {Text : Type} {server : Server} {texts : JsonText Text} {times : TimeText} {first second : String × String}

theorem inProc_frame {op : Op} (on : Op.On first.1 first.2 op) {k : String} (other : kvKey first.1 first.2 ≠ k)
    (s : Inner) (now : Nat) : (InProc.step s now op).1.kv k = s.kv k := by
  cases op with
  | convPush | convRecent => cases on
  | kvSet agentId key value ttl =>
      obtain ⟨rfl, rfl⟩ := on
      simp only [InProc.step]
      split_ifs <;> simp [Function.update_of_ne other.symm]
  | kvGet agentId key =>
      obtain ⟨rfl, rfl⟩ := on
      simp only [InProc.step]
      split_ifs <;> simp [Function.update_of_ne other.symm]
  | kvDelete agentId key =>
      obtain ⟨rfl, rfl⟩ := on
      simp [InProc.step, Function.update_of_ne other.symm]

theorem redis_frame {op : Op} (on : Op.On first.1 first.2 op) {k : String} (other : kvKey first.1 first.2 ≠ k)
    (ks : Keyspace Text) (now : Nat) :
    (RedisWorkingMemory.step server texts times ks now op).1 ("daimon:kv:" ++ k) = ks ("daimon:kv:" ++ k) := by
  have apart : "daimon:kv:" ++ k ≠ "daimon:kv:" ++ kvKey first.1 first.2 := by simpa using other.symm
  cases op with
  | convPush | convRecent => cases on
  | kvSet agentId key value ttl =>
      obtain ⟨rfl, rfl⟩ := on
      simp only [RedisWorkingMemory.step, Server.setEx, redis_kvKey]
      split_ifs <;> simp [Function.update_of_ne apart]
  | kvGet agentId key => rw [redis_read server ks now rfl]
  | kvDelete agentId key =>
      obtain ⟨rfl, rfl⟩ := on
      simp [RedisWorkingMemory.step, Server.del, redis_kvKey, Function.update_of_ne apart]

theorem redis_get_congr {ks ks' : Keyspace Text} {agentId key : String} (now : Nat)
    (same : ks ("daimon:kv:" ++ kvKey agentId key) = ks' ("daimon:kv:" ++ kvKey agentId key)) :
    (RedisWorkingMemory.step server texts times ks now (.kvGet agentId key)).2 =
      (RedisWorkingMemory.step server texts times ks' now (.kvGet agentId key)).2 := by
  have found : server.get ks now (RedisWorkingMemory.kvKey agentId key) =
      server.get ks' now (RedisWorkingMemory.kvKey agentId key) := by
    simp only [Server.get, Server.lookup, redis_kvKey, same]
  have read : RedisWorkingMemory.kvGet server texts ks now agentId key =
      RedisWorkingMemory.kvGet server texts ks' now agentId key := by
    simp only [RedisWorkingMemory.kvGet, found]
  simp only [RedisWorkingMemory.step, read]
  split <;> rfl

def oneSecond : Duration := ⟨1, ⟨0, by decide⟩⟩

theorem apart_inProc_iff : Apart InProc.step first second ↔ kvKey first.1 first.2 ≠ kvKey second.1 second.2 := by
  constructor
  · intro apart same
    have changed := apart InProc.new 0 0 (.kvSet first.1 first.2 .null ⟨0, 0⟩) ⟨rfl, rfl⟩
    simp [InProc.step, Duration.isZero, same, InProc.new, InProc.expired] at changed
  · intro other s now later op on
    simp only [inProc_get, inProc_frame on other]

theorem apart_redis_iff : Apart (RedisWorkingMemory.step server texts times) first second ↔
    kvKey first.1 first.2 ≠ kvKey second.1 second.2 := by
  constructor
  · intro apart same
    have changed := apart RedisWorkingMemory.new 0 0 (.kvSet first.1 first.2 .null oneSecond) ⟨rfl, rfl⟩
    have absent : server.lookup (RedisWorkingMemory.new : Keyspace Text) 0
        (RedisWorkingMemory.kvKey second.1 second.2) = none := rfl
    have alive : server.gone 1000000000 0 = false := server.kept (by decide)
    have present : server.lookup (RedisWorkingMemory.step server texts times RedisWorkingMemory.new 0
        (.kvSet first.1 first.2 .null oneSecond)).1 0 (RedisWorkingMemory.kvKey second.1 second.2) =
          some ⟨.string (texts.encode .null), some 1000000000⟩ := by
      simp [RedisWorkingMemory.step, Server.setEx, Server.setexAccepts, oneSecond, redis_kvKey, same, Server.lookup,
        alive]
    rw [redis_get_absent absent, redis_get_present present (texts.round_trip _ rfl)] at changed
    cases changed
  · intro other s now later op on
    exact redis_get_congr later (redis_frame on other s now)

/-- The backends agree on every read that finds a value on the same side of both deadlines, and a conversation that
never rested for a day; and pairs are kept apart exactly by their flattened keys. -/
theorem backends_agree {history : List (Nat × Op)} (ordered : (history.map Prod.fst).IsChain (· ≤ ·))
    (alike : AllAlike texts [] history) :
    reads InProc.step InProc.new history =
        reads (RedisWorkingMemory.step server texts times) RedisWorkingMemory.new history ∧
      ∀ first second : String × String,
        (Apart InProc.step first second ∧ Apart (RedisWorkingMemory.step server texts times) first second) ↔
          kvKey first.1 first.2 ≠ kvKey second.1 second.2 := by
  refine ⟨reads_eq tracks_new ?_ alike, fun first second => ?_⟩
  · cases history with
    | nil => exact List.isChain_singleton 0
    | cons e rest => exact List.isChain_cons_cons.mpr ⟨Nat.zero_le _, ordered⟩
  · rw [apart_inProc_iff, apart_redis_iff, and_self]

end Apart

def question : ConvMessage := ⟨"user", "status?", none, 0⟩

theorem backends_agree_on_session :
    reads InProc.step InProc.new [(0, .convPush "s" question), (5, .kvSet "a" "k" .null oneSecond),
        (7, .convRecent "s" 64), (9, .kvGet "a" "k"), (2000000000, .kvGet "a" "k")] =
      reads (RedisWorkingMemory.step Server.millis JsonText.values TimeText.tallies) RedisWorkingMemory.new
        [(0, .convPush "s" question), (5, .kvSet "a" "k" .null oneSecond), (7, .convRecent "s" 64),
          (9, .kvGet "a" "k"), (2000000000, .kvGet "a" "k")] := by
  refine (backends_agree (by decide) ?_).1
  have survives : JsonText.values.decode (JsonText.values.encode .null) = .ok .null := rfl
  simp [AllAlike, Alike, pushes, lastSet, kvKey, Server.setexAccepts, oneSecond, HeldByBoth, HeldByNeither,
    redisDeadline, Duration.isZero, Duration.asNanos, day, survives]

/-- A value set with no ttl stays in process and is gone from Redis after a second; and two pairs share a key. -/
theorem backends_differ :
    reads InProc.step InProc.new [(0, .kvSet "a" "k" .null ⟨0, 0⟩), (10000000000, .kvGet "a" "k")] =
        [.value (some .null)] ∧
      reads (RedisWorkingMemory.step Server.millis JsonText.values TimeText.tallies) RedisWorkingMemory.new
        [(0, .kvSet "a" "k" .null ⟨0, 0⟩), (10000000000, .kvGet "a" "k")] = [.value none] ∧
      ¬Apart InProc.step ("a:b", "c") ("a", "b:c") ∧
      ¬Apart (RedisWorkingMemory.step Server.millis JsonText.values TimeText.tallies) ("a:b", "c") ("a", "b:c") := by
  refine ⟨rfl, rfl, ?_, ?_⟩
  · rw [apart_inProc_iff]
    decide
  · rw [apart_redis_iff]
    decide

end Daimon.Proof.Redis
