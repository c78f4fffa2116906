import Mathlib.Data.List.Perm.Subperm
import Daimon.Gateway.Matrix
import Daimon.Lib.Lists
import Daimon.Lib.Run

/-!
# Matrix ingress

What one response does to the loop, and what is lost and kept over starts and crashes.
-/

namespace Daimon.Proof.Gateway.Matrix
open Daimon.Lib Daimon.Gateway Daimon.Gateway.Matrix
open Daimon.Driver.NetworkResponse (structFields)

/-! ## A response and its events -/

section Decode
variable {ε : Type} (event : Json → Option ε)

def decodeRoom (room : String × List Json) : Option (String × List ε) := (room.2.mapM event).map (room.1, ·)

def decodeAll (raw : SyncResponse Json) : Option (SyncResponse ε) :=
  (raw.join.mapM (decodeRoom event)).map fun join => ⟨raw.nextBatch, join⟩

theorem decodeDefault_bind {α β : Type} {decode : Json → Option α} {decode' : Json → Option β} {next : β → Option α}
    {a : α} {b : β} (bound : ∀ value, decode value = (decode' value).bind next) (default : next b = some a)
    (field : Option Json) : decodeDefault a decode field = (decodeDefault b decode' field).bind next := by
  cases field with
  | none => simp [decodeDefault, default]
  | some value => exact bound value

theorem decodeEvents_eq (value : Json) : SyncResponse.decodeEvents event value =
    (SyncResponse.decodeEvents some value).bind fun items => items.mapM event := by
  cases value <;> simp [SyncResponse.decodeEvents, mapM_some]

theorem decodeTimeline_eq (value : Json) : SyncResponse.decodeTimeline event value =
    (SyncResponse.decodeTimeline some value).bind fun items => items.mapM event := by
  simp only [SyncResponse.decodeTimeline]
  split
  · exact decodeDefault_bind (decodeEvents_eq event) rfl _
  · rfl

theorem decodeJoinedRoom_eq (value : Json) : SyncResponse.decodeJoinedRoom event value =
    (SyncResponse.decodeJoinedRoom some value).bind fun items => items.mapM event := by
  simp only [SyncResponse.decodeJoinedRoom]
  split
  · exact decodeDefault_bind (decodeTimeline_eq event) rfl _
  · rfl

theorem decodeJoin_eq (value : Json) : SyncResponse.decodeJoin event value =
    (SyncResponse.decodeJoin some value).bind fun rooms => rooms.mapM (decodeRoom event) := by
  cases value with
  | object rooms =>
      simp only [SyncResponse.decodeJoin]
      induction rooms with
      | nil => rfl
      | cons room rooms ih =>
          simp only [List.mapM_cons, Option.bind_eq_bind, ih, decodeJoinedRoom_eq event room.2]
          cases SyncResponse.decodeJoinedRoom some room.2 with
          | none => rfl
          | some items =>
              cases rooms.mapM fun room => (SyncResponse.decodeJoinedRoom some room.2).map (room.1, ·) <;>
                simp [decodeRoom]
  | _ => rfl

theorem decodeRooms_eq (value : Json) : SyncResponse.decodeRooms event value =
    (SyncResponse.decodeRooms some value).bind fun rooms => rooms.mapM (decodeRoom event) := by
  simp only [SyncResponse.decodeRooms]
  split
  · exact decodeDefault_bind (decodeJoin_eq event) rfl _
  · rfl

theorem fromValue_eq (value : Json) : SyncResponse.fromValue event value =
    (SyncResponse.fromValue some value).bind (decodeAll event) := by
  simp only [SyncResponse.fromValue]
  split
  · rename_i nextBatch rooms fields
    cases nextBatch.bind Json.asStr? with
    | none => rfl
    | some nextBatch =>
        have decoded : decodeDefault [] (SyncResponse.decodeRooms event) rooms =
            (decodeDefault [] (SyncResponse.decodeRooms some) rooms).bind fun rooms => rooms.mapM (decodeRoom event) :=
          decodeDefault_bind (decodeRooms_eq event) rfl rooms
        simp only [Option.bind_eq_bind, Option.bind_some, decoded, Option.bind_assoc]
        congr 1
        funext join
        exact Option.map_eq_bind.symm
  · rfl

def events (sync : SyncResponse ε) : List (String × ε) := sync.join.flatMap fun room => room.2.map (room.1, ·)

variable {event} {raw : SyncResponse Json} {sync : SyncResponse ε}

theorem decodeAll_isSome : (decodeAll event raw).isSome ↔ ∀ e ∈ events raw, (event e.2).isSome := by
  simp only [decodeAll, Option.isSome_map, mapM_isSome, decodeRoom, events, List.mem_flatMap, List.mem_map]
  constructor
  · rintro all e ⟨room, member, item, within, rfl⟩
    exact all room member item within
  · intro all room member item within
    exact all (room.1, item) ⟨room, member, item, within, rfl⟩

theorem filterMap_events {α : Type} (decoded : decodeAll event raw = some sync) (read : String → ε → Option α) :
    (events sync).filterMap (fun e => read e.1 e.2) = (events raw).filterMap fun e => (event e.2).bind (read e.1) := by
  obtain ⟨join, rooms, rfl⟩ := Option.map_eq_some_iff.mp decoded
  simp only [events, List.filterMap_flatMap, List.filterMap_map]
  refine flatMap_of_mapM (fun room room' decoded => ?_) rooms
  obtain ⟨items, inner, rfl⟩ := Option.map_eq_some_iff.mp decoded
  simp only [List.filterMap_eq_flatMap_toList, Function.comp_def]
  exact flatMap_of_mapM (fun item ev decoded => by simp [decoded]) inner

end Decode

section Ingress
variable {hash : HashOrder} {botId : String}

/-- The messages for the handler among events: text messages of others, each read on its own. -/
def wellFormed (botId : String) (es : List (String × Json)) : List InboundMessage :=
  es.filterMap fun e => (Event.fromValue e.2).bind fun ev =>
    (ev.message e.1).filter fun msg => msg.platformHandle ≠ botId

theorem dispatched_perm (hash : HashOrder) (botId : String) {raw : SyncResponse Json} {sync : SyncResponse Event}
    (decoded : decodeAll Event.fromValue raw = some sync) :
    ((textMessages hash sync).filter fun msg => msg.platformHandle ≠ botId).Perm (wellFormed botId (events raw)) := by
  have read := filterMap_events decoded fun roomId ev =>
    (Event.message roomId ev).filter fun msg => msg.platformHandle ≠ botId
  rw [wellFormed, ← read]
  have rooms := ((hash.perm sync.join).flatMap_right fun room => room.2.filterMap (Event.message room.1)).filter
    fun msg => msg.platformHandle ≠ botId
  refine rooms.trans (List.Perm.of_eq ?_)
  simp only [events, List.filterMap_flatMap, List.filterMap_map, List.filter_flatMap]
  congr 1
  funext room
  simp [List.filter_filterMap]

theorem iteration_eq (value : Json) :
    iteration hash botId (some value) = ((SyncResponse.fromValue some value).bind (decodeAll Event.fromValue)).map
      fun sync => ((textMessages hash sync).filter fun msg => msg.platformHandle ≠ botId, sync.nextBatch) := by
  rw [← fromValue_eq, Option.map_eq_bind]
  rfl

theorem iteration_iff {value : Json} {raw : SyncResponse Json} (shaped : SyncResponse.fromValue some value = some raw) :
    (∃ messages, iteration hash botId (some value) = some (messages, raw.nextBatch) ∧
        messages.Perm (wellFormed botId (events raw))) ↔
      ∀ e ∈ events raw, (Event.fromValue e.2).isSome := by
  rw [← decodeAll_isSome, iteration_eq, shaped, Option.bind_some]
  constructor
  · rintro ⟨messages, done, -⟩
    obtain ⟨sync, decoded, -⟩ := Option.map_eq_some_iff.mp done
    exact Option.isSome_iff_exists.mpr ⟨sync, decoded⟩
  · intro some
    obtain ⟨sync, decoded⟩ := Option.isSome_iff_exists.mp some
    obtain ⟨join, -, eq⟩ := Option.map_eq_some_iff.mp decoded
    refine ⟨_, ?_, dispatched_perm hash botId decoded⟩
    rw [decoded, Option.map_some, ← eq]

/-! ## Runs -/

variable {token : Nat → String} {w w' : World} {label : Label}

/-- The homeserver answers `/sync` with the token of the end of its timeline, and after a `since` token with all
events behind it. -/
def Honest (token : Nat → String) (w : World) : Label → Prop
  | .initial (some value) => ∀ raw, SyncResponse.fromValue some value = some raw →
      raw.nextBatch = token w.timeline.length
  | .sync (some value) => ∀ raw, SyncResponse.fromValue some value = some raw →
      raw.nextBatch = token w.timeline.length ∧
        ∀ n, w.poller = .polling (token n) → (w.timeline.drop n).Subperm (events raw)
  | _ => True

/-- Once the poller has been started, each start finds the cursor that was saved. -/
def FindsCursor (w : World) : Label → Prop
  | .load answered => w.seed.isSome → answered ∧ w.row.isSome
  | _ => True

def Uses (w : World) (since : String) : Prop := w.row = some since ∨ w.poller = .polling since

/-- Every message between the first start and position `n` was given to the handler, as often as it was sent. -/
def Covered (botId : String) (w : World) (start n : Nat) (pending : List InboundMessage) : Prop :=
  ∀ msg, (wellFormed botId ((w.timeline.take n).drop start)).count msg ≤ w.handled.count msg + pending.count msg

def NothingLost (token : Nat → String) (botId : String) (w : World) : Prop :=
  ∀ start ∈ w.seed, ∀ n, Uses w (token n) → Covered botId w start n []

/-- The position a token stands for, and what was handled up to it. -/
def Reached (token : Nat → String) (botId : String) (w : World) (start : Nat) (since : String)
    (pending : List InboundMessage) : Prop :=
  ∃ n, since = token n ∧ start ≤ n ∧ n ≤ w.timeline.length ∧ Covered botId w start n pending

structure Inv (token : Nat → String) (botId : String) (w : World) : Prop where
  fresh : w.seed = none → w.row = none ∧ (w.poller = .down ∨ w.poller = .starting ∨ w.poller = .cold)
  cold : w.poller = .cold → w.seed = none
  row : ∀ start ∈ w.seed, ∀ since ∈ w.row, Reached token botId w start since []
  seeding : ∀ start ∈ w.seed, ∀ next, w.poller = .seeding next → Reached token botId w start next []
  polling : ∀ start ∈ w.seed, ∀ since, w.poller = .polling since → Reached token botId w start since []
  dispatching : ∀ start ∈ w.seed, ∀ since pending next, w.poller = .dispatching since pending next →
    Reached token botId w start next pending

theorem inv_new (timeline : List (String × Json)) : Inv token botId (World.new timeline) :=
  ⟨fun _ => ⟨rfl, Or.inl rfl⟩, nofun, nofun, nofun, nofun, nofun⟩

theorem Inv.nothingLost (distinct : Function.Injective token) (inv : Inv token botId w) :
    NothingLost token botId w := by
  intro start seeded n used
  have reached : Reached token botId w start (token n) [] :=
    used.elim (inv.row start seeded _) (inv.polling start seeded _)
  obtain ⟨m, same, -, -, covered⟩ := reached
  obtain rfl := distinct same
  exact covered

theorem Inv.seeded (inv : Inv token botId w)
    (running : ¬ (w.poller = .down ∨ w.poller = .starting ∨ w.poller = .cold)) : w.seed ≠ none :=
  fun unseeded => running (inv.fresh unseeded).2

theorem Reached.post {start : Nat} {since : String} {pending : List InboundMessage} {e : String × Json}
    (reached : Reached token botId w start since pending) :
    Reached token botId { w with timeline := w.timeline ++ [e] } start since pending := by
  obtain ⟨n, same, after, within, covered⟩ := reached
  refine ⟨n, same, after, by simp; omega, fun msg => ?_⟩
  simpa [List.take_append_of_le_length within] using covered msg

theorem Inv.stopped (inv : Inv token botId w) {poller : Poller} (stopped : poller = .down ∨ poller = .starting) :
    Inv token botId { w with poller } := by
  rcases stopped with rfl | rfl
  · exact ⟨fun unseeded => ⟨(inv.fresh unseeded).1, Or.inl rfl⟩, nofun, inv.row, nofun, nofun, nofun⟩
  · exact ⟨fun unseeded => ⟨(inv.fresh unseeded).1, Or.inr (Or.inl rfl)⟩, nofun, inv.row, nofun, nofun, nofun⟩

theorem Inv.resume (inv : Inv token botId w) {since : String} (saved : w.row = some since) :
    Inv token botId { w with poller := .polling since } := by
  refine ⟨fun unseeded => ?_, nofun, inv.row, nofun, ?_, nofun⟩
  · rw [(inv.fresh unseeded).1] at saved
    cases saved
  · rintro start seeded _ ⟨rfl⟩
    exact inv.row start seeded since saved

theorem inv_load (inv : Inv token botId w) {answered : Bool} (finds : FindsCursor w (.load answered))
    (taken : step hash botId w (.load answered) = some w') : Inv token botId w' := by
  simp only [step] at taken
  split at taken
  · split at taken
    · rename_i since loaded
      obtain rfl := Option.some.inj taken
      refine inv.resume ?_
      cases answered with
      | true => exact loaded
      | false => cases loaded
    · rename_i loaded
      obtain rfl := Option.some.inj taken
      have unseeded : w.seed = none := by
        by_contra seeded
        obtain ⟨rfl, saved⟩ := finds (Option.isSome_iff_ne_none.mpr seeded)
        rw [Option.isSome_iff_ne_none] at saved
        exact saved loaded
      exact ⟨fun _ => ⟨(inv.fresh unseeded).1, Or.inr (Or.inr rfl)⟩, fun _ => unseeded, inv.row, nofun, nofun, nofun⟩
  · cases taken

theorem Reached.here (botId : String) (w : World) :
    Reached token botId w w.timeline.length (token w.timeline.length) [] := by
  refine ⟨w.timeline.length, rfl, le_rfl, le_rfl, fun msg => ?_⟩
  simp [wellFormed]

theorem inv_initial (inv : Inv token botId w) {response : Option Json} (honest : Honest token w (.initial response))
    (taken : step hash botId w (.initial response) = some w') : Inv token botId w' := by
  simp only [step] at taken
  split at taken
  · rename_i cold
    split at taken
    · rename_i sync decoded
      obtain rfl := Option.some.inj taken
      obtain ⟨value, rfl, strict⟩ := Option.bind_eq_some_iff.mp decoded
      rw [fromValue_eq] at strict
      obtain ⟨raw, shaped, all⟩ := Option.bind_eq_some_iff.mp strict
      obtain ⟨join, -, rfl⟩ := Option.map_eq_some_iff.mp all
      have unseeded := inv.cold cold
      have unsaved := (inv.fresh unseeded).1
      rw [unseeded, Option.none_or]
      refine ⟨nofun, nofun, ?_, ?_, nofun, nofun⟩
      · intro start _ since saved
        rw [unsaved] at saved
        cases saved
      · rintro _ ⟨rfl⟩ _ ⟨rfl⟩
        rw [honest raw shaped]
        exact Reached.here botId w
    · obtain rfl := Option.some.inj taken
      exact inv.stopped (Or.inl rfl)
  · cases taken

theorem wellFormed_append (es fs : List (String × Json)) :
    wellFormed botId (es ++ fs) = wellFormed botId es ++ wellFormed botId fs := List.filterMap_append

theorem count_wellFormed_le (botId : String) {es fs : List (String × Json)} (within : es.Subperm fs) (msg : InboundMessage) :
    (wellFormed botId es).count msg ≤ (wellFormed botId fs).count msg := by
  obtain ⟨gs, perm, sub⟩ := within
  have same : (wellFormed botId gs).count msg = (wellFormed botId es).count msg := (perm.filterMap _).count_eq msg
  rw [← same]
  exact (sub.filterMap _).count_le msg

/-- The events after position `n` are handed on: the cursor may go to the end of the timeline. -/
theorem Reached.extend {start n : Nat} {es : List (String × Json)} {messages : List InboundMessage}
    (after : start ≤ n) (within : n ≤ w.timeline.length) (covered : Covered botId w start n [])
    (returned : (w.timeline.drop n).Subperm es) (dispatched : messages.Perm (wellFormed botId es)) :
    Reached token botId w start (token w.timeline.length) messages := by
  refine ⟨w.timeline.length, rfl, after.trans within, le_rfl, fun msg => ?_⟩
  have split : w.timeline.drop start = (w.timeline.take n).drop start ++ w.timeline.drop n := by
    conv_lhs => rw [← List.take_append_drop n w.timeline]
    rw [List.drop_append_of_le_length (by simp [after, within])]
  have before := covered msg
  have behind := count_wellFormed_le botId returned msg
  have handed := dispatched.count_eq msg
  rw [List.take_length, split, wellFormed_append, List.count_append]
  simp only [List.count_nil] at before
  omega

theorem inv_sync (inv : Inv token botId w) {response : Option Json} (honest : Honest token w (.sync response))
    (taken : step hash botId w (.sync response) = some w') : Inv token botId w' := by
  simp only [step] at taken
  split at taken
  · rename_i since polling
    split at taken
    · rename_i messages next done
      obtain rfl := Option.some.inj taken
      cases response with
      | none => cases done
      | some value =>
          rw [iteration_eq] at done
          obtain ⟨sync, strict, ends⟩ := Option.map_eq_some_iff.mp done
          obtain ⟨raw, shaped, all⟩ := Option.bind_eq_some_iff.mp strict
          obtain ⟨rfl, rfl⟩ := Prod.mk.injEq .. ▸ ends
          have dispatched := dispatched_perm hash botId all
          obtain ⟨join, -, rfl⟩ := Option.map_eq_some_iff.mp all
          obtain ⟨lands, returned⟩ := honest raw shaped
          have seeded := inv.seeded (by simp [polling])
          refine ⟨fun unseeded => absurd unseeded seeded, nofun, inv.row, nofun, nofun, ?_⟩
          rintro start isSeed _ _ _ ⟨rfl, rfl, rfl⟩
          obtain ⟨n, rfl, after, within, covered⟩ := inv.polling start isSeed since polling
          rw [lands]
          exact Reached.extend after within covered (returned n polling) dispatched
    · obtain rfl := Option.some.inj taken
      exact inv
  · cases taken

theorem inv_handle (inv : Inv token botId w) (taken : step hash botId w .handle = some w') :
    Inv token botId w' := by
  simp only [step] at taken
  split at taken
  · rename_i since msg pending next dispatching
    obtain rfl := Option.some.inj taken
    have more : ∀ {start n : Nat} {rest : List InboundMessage}, Covered botId w start n rest →
        Covered botId { w with poller := .dispatching since pending next, handled := w.handled ++ [msg] } start n
          rest := by
      intro start n rest covered m
      have := covered m
      simp only [List.count_append]
      omega
    have seeded := inv.seeded (by simp [dispatching])
    refine ⟨fun unseeded => absurd unseeded seeded, nofun, ?_, nofun, nofun, ?_⟩
    · intro start seeded since saved
      obtain ⟨n, same, after, within, covered⟩ := inv.row start seeded since saved
      exact ⟨n, same, after, within, more covered⟩
    · rintro start seeded _ _ _ ⟨rfl, rfl, rfl⟩
      obtain ⟨n, same, after, within, covered⟩ := inv.dispatching start seeded _ _ _ dispatching
      refine ⟨n, same, after, within, fun m => ?_⟩
      have counted := covered m
      simp only [List.count_append, List.count_cons, List.count_nil] at counted ⊢
      omega
  · cases taken

theorem inv_save (inv : Inv token botId w) {outcome : Saved} (taken : step hash botId w (.save outcome) = some w') :
    Inv token botId w' := by
  have advance : ∀ next, (∀ start ∈ w.seed, Reached token botId w start next []) → w.seed ≠ none →
      Inv token botId { w with row := outcome.store next w.row, poller := .polling next } := by
    intro next reached seeded
    refine ⟨fun unseeded => absurd unseeded seeded, nofun, ?_, nofun, ?_, nofun⟩
    · intro start isSeed since saved
      simp only [Saved.store] at saved
      split at saved
      · obtain rfl := Option.some.inj saved
        exact reached start isSeed
      · exact inv.row start isSeed since saved
    · rintro start isSeed _ ⟨rfl⟩
      exact reached start isSeed
  simp only [step] at taken
  split at taken
  · rename_i next seeding
    obtain rfl := Option.some.inj taken
    exact advance next (fun start isSeed => inv.seeding start isSeed next seeding) (inv.seeded (by simp [seeding]))
  · rename_i since next dispatching
    obtain rfl := Option.some.inj taken
    exact advance next (fun start isSeed => inv.dispatching start isSeed _ _ _ dispatching)
      (inv.seeded (by simp [dispatching]))
  · cases taken

theorem inv_step (inv : Inv token botId w) (honest : Honest token w label) (finds : FindsCursor w label)
    (taken : step hash botId w label = some w') : Inv token botId w' := by
  cases label with
  | post roomId event =>
      obtain rfl := Option.some.inj taken
      exact ⟨inv.fresh, inv.cold, fun start seeded since saved => (inv.row start seeded since saved).post,
        fun start seeded next at' => (inv.seeding start seeded next at').post,
        fun start seeded since at' => (inv.polling start seeded since at').post,
        fun start seeded since pending next at' => (inv.dispatching start seeded since pending next at').post⟩
  | whoami answered =>
      simp only [step] at taken
      split at taken
      · obtain rfl := Option.some.inj taken
        exact inv.stopped (by cases answered <;> simp)
      · cases taken
  | load answered => exact inv_load inv finds taken
  | initial response => exact inv_initial inv honest taken
  | sync response => exact inv_sync inv honest taken
  | handle => exact inv_handle inv taken
  | save outcome => exact inv_save inv taken
  | crash =>
      obtain rfl := Option.some.inj taken
      exact inv.stopped (Or.inl rfl)

/-! ## One iteration -/

theorem run_batch {since next : String} {messages : List InboundMessage} (calls : Nat) {outcome : Saved} {u : World} :
    run (step hash botId) { w with poller := .dispatching since messages next }
        (List.replicate calls .handle ++ [.save outcome]) = some u ↔
      calls = messages.length ∧ u = { w with
        poller := .polling next, handled := w.handled ++ messages, row := outcome.store next w.row } := by
  induction messages generalizing w calls with
  | nil =>
      cases calls with
      | zero => simp [run, step, eq_comm]
      | succ calls => simp [run, step, List.replicate_succ]
  | cons msg messages ih =>
      cases calls with
      | zero => simp [run, step]
      | succ calls =>
          have rest := ih (w := { w with handled := w.handled ++ [msg] }) calls
          simp only [List.replicate_succ, List.cons_append, run, step, Option.bind_some]
          simpa using rest

/-- The loop takes the response, hands on `messages` and goes on from `next`. -/
def Iterates (hash : HashOrder) (botId : String) (w : World) (value : Json) (outcome : Saved)
    (messages : List InboundMessage) (next : String) : Prop :=
  run (step hash botId) w (.sync (some value) :: (List.replicate messages.length .handle ++ [.save outcome])) =
    some { w with poller := .polling next, handled := w.handled ++ messages, row := outcome.store next w.row }

theorem iterates_iff {since next : String} {value : Json} {outcome : Saved} {messages : List InboundMessage}
    (polling : w.poller = .polling since) :
    Iterates hash botId w value outcome messages next ↔ iteration hash botId (some value) = some (messages, next) := by
  rw [Iterates, run]
  cases done : iteration hash botId (some value) with
  | none =>
      have stays : step hash botId w (.sync (some value)) = some w := by simp [step, polling, done]
      rw [stays, Option.bind_some]
      cases messages <;> simp [run, step, polling, List.replicate_succ]
  | some taken =>
      obtain ⟨given, next'⟩ := taken
      have goes : step hash botId w (.sync (some value)) =
          some { w with poller := .dispatching since given next' } := by simp [step, polling, done]
      rw [goes, Option.bind_some, run_batch]
      simp only [World.mk.injEq, Poller.polling.injEq, List.append_cancel_left_eq, Option.some.injEq, Prod.mk.injEq,
        true_and, and_true]
      constructor
      · rintro ⟨-, -, rfl, rfl⟩
        exact ⟨rfl, rfl⟩
      · rintro ⟨rfl, rfl⟩
        exact ⟨rfl, rfl, rfl, rfl⟩

end Ingress

/-! ## A room -/

def sorted : HashOrder := ⟨id, fun _ => List.Perm.refl _⟩

def tally (n : Nat) : String := String.ofList (List.replicate n 's')

theorem tally_injective : Function.Injective tally := by
  intro n m same
  have lengths := congrArg (fun text => text.toList.length) same
  simpa [tally] using lengths

def textEvent (body : Json) : Json :=
  .object [("content", .object [("body", body), ("msgtype", .string "m.text")]), ("sender", .string "@op:hs"),
    ("type", .string "m.room.message")]

def response (next : Nat) (es : List Json) : Json :=
  .object [("next_batch", .string (tally next)),
    ("rooms", .object [("join", .object [("!r:hs", .object [("timeline", .object [("events", .array es)])])])])]

def greeting : Json := textEvent (.string "hi daimon")

def firstMessage : List Label :=
  [.whoami true, .load true, .initial (some (response 0 [])), .save .done, .post "!r:hs" greeting,
    .sync (some (response 1 [greeting])), .handle, .save .done]

theorem response_shape (next : Nat) (es : List Json) :
    SyncResponse.fromValue some (response next es) = some ⟨tally next, [("!r:hs", es)]⟩ := by
  simp [SyncResponse.fromValue, response, structFields, Json.asStr?, decodeDefault, SyncResponse.decodeRooms,
    SyncResponse.decodeJoin, SyncResponse.decodeJoinedRoom, SyncResponse.decodeTimeline, SyncResponse.decodeEvents,
    List.lookup_cons, mapM_some]

theorem honest_initial {w : World} {next : Nat} {es : List Json} (ends : w.timeline.length = next) :
    Honest tally w (.initial (some (response next es))) := by
  intro raw shaped
  rw [response_shape] at shaped
  obtain rfl := Option.some.inj shaped
  rw [ends]

theorem honest_sync {w : World} {next n : Nat} {es : List Json} (ends : w.timeline.length = next)
    (polling : w.poller = .polling (tally n)) (events : w.timeline.drop n = es.map ("!r:hs", ·)) :
    Honest tally w (.sync (some (response next es))) := by
  intro raw shaped
  rw [response_shape] at shaped
  obtain rfl := Option.some.inj shaped
  refine ⟨by rw [ends], fun m polling' => ?_⟩
  obtain rfl := tally_injective (Poller.polling.inj (polling.symm.trans polling'))
  rw [events]
  simpa [Matrix.events] using List.Subperm.refl _

/-- The database does not answer the second start's load, which is then taken for a cold start. -/
def secondStart : List Label :=
  [.whoami true, .load true, .initial (some (response 0 [])), .save .done, .crash, .post "!r:hs" greeting,
    .whoami true, .load false, .initial (some (response 1 [greeting])), .save .done]

end Daimon.Proof.Gateway.Matrix
