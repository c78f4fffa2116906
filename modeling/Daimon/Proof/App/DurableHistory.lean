import Daimon.Lib.Lists
import Daimon.Proof.App.DeletedSession
import Daimon.Proof.App.Sessions

/-!
# The durable history

What a turn pushes to the working memory it is to append to the durable history. It appends the message of the user, the
replies and the results of the memory tools, and not the results of the other tools.
-/

namespace Daimon.Proof.App
open Daimon.Core Daimon.App.Chat Lib
open Daimon.App (Claims)

/-! ## One turn -/

@[simp] def pushed? : Effect → Option ChatTurnDto
  | .push role content toolUseId => some ⟨role, content, toolUseId⟩
  | _ => none

def pushes (effects : List Effect) : List ChatTurnDto := effects.filterMap pushed?

/-- What a session of the user records: it refuses the turns of others. -/
@[simp] def recorded? (a : Uuid) : Effect → Option ChatTurnDto
  | .append owner role content toolUseId => if owner = a then some ⟨role, content, toolUseId⟩ else none
  | _ => none

def records (a : Uuid) (effects : List Effect) : List ChatTurnDto := effects.filterMap (recorded? a)

section Turn
variable {a : Uuid}

@[simp] theorem pushes_append (first second : List Effect) : pushes (first ++ second) = pushes first ++ pushes second :=
  List.filterMap_append

@[simp] theorem records_append (first second : List Effect) :
    records a (first ++ second) = records a first ++ records a second := List.filterMap_append

@[simp] theorem pushes_cons (effect : Effect) (rest : List Effect) :
    pushes (effect :: rest) = (pushed? effect).toList ++ pushes rest := by
  cases effect <;> rfl

@[simp] theorem records_cons (effect : Effect) (rest : List Effect) :
    records a (effect :: rest) = (recorded? a effect).toList ++ records a rest := by
  rw [records, List.filterMap_cons]
  split <;> simp_all [records]

@[simp] theorem pushes_nil : pushes [] = [] := rfl

@[simp] theorem records_nil : records a [] = [] := rfl

@[simp] theorem pushes_emits (events : List Gateway.TurnEvent) : pushes (events.map .emit) = [] :=
  filterMap_emits (fun _ => rfl) events

@[simp] theorem records_emits (events : List Gateway.TurnEvent) : records a (events.map .emit) = [] :=
  filterMap_emits (fun _ => rfl) events

@[simp] theorem pushes_mirror (owner : Option Uuid) (role content : String) (id : Option String) :
    pushes (mirror owner role content id) = [] := by cases owner <;> rfl

@[simp] theorem records_mirror (role content : String) (id : Option String) :
    records a (mirror (some a) role content id) = [⟨role, content, id⟩] := by simp [mirror]

variable {answers : Answers} {send : ChatSend} {history : List ChatMessage}

@[simp] theorem pushes_memoryOutput (call : ToolCall) : pushes (memoryOutput answers history call).1 = [] := by
  refine List.filterMap_eq_nil_iff.mpr fun effect member => ?_
  obtain ⟨kind, record, rfl⟩ := memoryOutput_captures answers history call effect member
  rfl

@[simp] theorem records_memoryOutput (call : ToolCall) : records a (memoryOutput answers history call).1 = [] := by
  refine List.filterMap_eq_nil_iff.mpr fun effect member => ?_
  obtain ⟨kind, record, rfl⟩ := memoryOutput_captures answers history call effect member
  rfl

theorem runTool_part (call : ToolCall) :
    Part (isMemoryTool call.name = true) (records a (runTool answers send (some a) history call).effects)
      (pushes (runTool answers send (some a) history call).effects) := by
  unfold runTool
  by_cases memory : isMemoryTool call.name = true
  · simp only [memory, if_true, records_append, pushes_append, records_memoryOutput, pushes_memoryOutput, records_cons,
      pushes_cons, recorded?, pushed?, records_mirror, pushes_mirror, records_nil, pushes_nil, Option.toList_none,
      Option.toList_some, List.append_nil, List.nil_append]
    exact Part.refl _
  · simp only [memory, Bool.false_eq_true, if_false, records_cons, pushes_cons, recorded?, pushed?, records_nil,
      pushes_nil, Option.toList_none, Option.toList_some, List.append_nil, List.nil_append]
    exact Part.missing (List.cons_ne_nil _ _)

theorem runTools_part (calls : List ToolCall) (history : List ChatMessage) :
    Part (∀ call ∈ calls, isMemoryTool call.name = true)
      (records a (runTools answers send (some a) history calls).effects)
      (pushes (runTools answers send (some a) history calls).effects) := by
  induction calls generalizing history with
  | nil => exact (Part.refl []).of_iff (by simp)
  | cons call rest ih =>
      simp only [runTools, records_append, pushes_append, List.forall_mem_cons]
      exact (runTool_part call).append (ih _)

theorem spoken_part (reply : Reply) :
    Part True (records a (spoken answers send (some a) history reply))
      (pushes (spoken answers send (some a) history reply)) := by
  simp only [spoken, records_append, pushes_append, records_cons, pushes_cons, recorded?, pushed?, records_emits,
    pushes_emits, records_mirror, pushes_mirror, records_nil, pushes_nil, Option.toList_none, Option.toList_some,
    List.append_nil, List.nil_append]
  exact Part.refl _

variable (answers send) in
/-- All tools that the LLM asks for in these rounds of the loop are memory tools. -/
def OnlyMemory (owner : Option Uuid) : Nat → List ChatMessage → Prop
  | 0, _ => True
  | left + 1, history => ∀ stream reply, answers.completeStream history = .ok stream →
      Reply.empty.read answers.parseInput send.sessionId stream = (reply, none) → reply.finalStop = .toolUse →
      (∀ call ∈ reply.completedToolCalls, isMemoryTool call.name = true) ∧
        OnlyMemory owner left
          (runTools answers send owner (history ++ [assistant reply]) reply.completedToolCalls).history

theorem onlyMemory_iff {left : Nat} {stream : LlmStream} {reply : Reply} {owner : Option Uuid}
    (completed : answers.completeStream history = .ok stream)
    (read : Reply.empty.read answers.parseInput send.sessionId stream = (reply, none)) :
    OnlyMemory answers send owner (left + 1) history ↔ (reply.finalStop = .toolUse →
      (∀ call ∈ reply.completedToolCalls, isMemoryTool call.name = true) ∧ OnlyMemory answers send owner left
        (runTools answers send owner (history ++ [assistant reply]) reply.completedToolCalls).history) := by
  constructor
  · exact fun only => only stream reply completed read
  · intro only _ _ completed' read'
    obtain rfl := Except.ok.inj (completed.symm.trans completed')
    obtain rfl := congrArg Prod.fst (read.symm.trans read')
    exact only

theorem turnLoop_part (left : Nat) (history : List ChatMessage) :
    Part (OnlyMemory answers send (some a) left history)
      (records a (turnLoop answers send (some a) left history).effects)
      (pushes (turnLoop answers send (some a) left history).effects) := by
  induction left, history using turnLoop_induction answers send (some a) with
  | exhausted history => exact Part.refl []
  | failed left history e failed =>
      have only : OnlyMemory answers send (some a) (left + 1) history := by simp [OnlyMemory, failed]
      rw [turnLoop_failed failed]
      exact (Part.refl []).of_iff (iff_of_true trivial only)
  | broken left history stream reply e completed read =>
      have only : OnlyMemory answers send (some a) (left + 1) history := by
        intro _ _ completed' read'
        obtain rfl := Except.ok.inj (completed.symm.trans completed')
        cases read.symm.trans read'
      rw [turnLoop_broken completed read]
      simpa [only] using Part.refl []
  | closed left history stream reply completed read stopped =>
      have only := (@onlyMemory_iff _ _ _ left _ _ (some a) completed read).mpr fun again => absurd again stopped
      rw [turnLoop_closed completed read stopped]
      simpa [only] using spoken_part reply
  | again left history stream reply completed read stop ih =>
      rw [turnLoop_again completed read stop]
      simp only [records_append, pushes_append]
      refine (((spoken_part reply).append (runTools_part _ _)).append ih).of_iff ?_
      rw [onlyMemory_iff completed read, forall_prop_of_true stop, true_and]

/-! ## One event -/

variable (backend : Backend) (a : Uuid) (sessionId : String)

/-- The session belongs to the user, or there is nothing of it. -/
def Belongs (w : World) : Prop :=
  match w.chatSessions sessionId with
  | some session => session.ownerId = a
  | none => w.tables.turnsOf sessionId = []

/-- It is a turn of the user that opens the session, every write to the durable history is done, and the session is not
deleted. -/
def Written (w : World) : Event → Prop
  | .chatSend send _ stores => send.sessionId = sessionId →
      (∀ i, (stores.moments i).appended = .done) ∧
        (w.chatSessions sessionId = none → userIdForActor w.users send.actorId = some a)
  | .forget other => other ≠ sessionId

/-- If the turn reads the conversation, its user is found to be the owner, and the LLM asks for no other than the memory
tools. -/
def Mirrors (w : World) : Event → Prop
  | .chatSend send answers stores => Loads sessionId (.chatSend send answers stores) →
      w.historyOwner send stores = some a ∧
        OnlyMemory answers send (some a) maxLoops
          ((window backend w sessionId (.chatSend send answers stores)).map convToChat ++ [.user send.userMessage])
  | .forget _ => True

/-- What an event pushes to the session. -/
def pushedIn (w : World) : Event → List ChatTurnDto
  | .chatSend send answers stores =>
      if send.sessionId = sessionId then pushes (w.turn backend send answers stores).effects else []
  | .forget _ => []

def pushedTo : World → List Event → List ChatTurnDto
  | _, [] => []
  | w, event :: rest => pushedIn backend sessionId w event ++ pushedTo (next backend w event) rest

variable {backend a sessionId} {w : World} {stores : Stores}

theorem turn_part : Part (Mirrors backend a send.sessionId w (.chatSend send answers stores))
    (records a (w.turn backend send answers stores).effects) (pushes (w.turn backend send answers stores).effects) := by
  by_cases loads : Loads send.sessionId (.chatSend send answers stores)
  · have opens := loads.2.1
    simp only [Mirrors, forall_prop_of_true loads, turn_loaded loads.2.2, window]
    by_cases own : w.historyOwner send stores = some a
    · rw [own, handleChatSend_opened opens]
      simp only [records_append, pushes_append, records_mirror, pushes_mirror, records_cons, pushes_cons, recorded?,
        pushed?, records_nil, pushes_nil, Option.toList_none, Option.toList_some, List.append_nil, List.nil_append,
        true_and]
      exact ((Part.refl _).append (turnLoop_part _ _)).of_iff (iff_of_eq (true_and _))
    · have unrecorded : records a (w.turn backend send answers stores).effects = [] := by
        refine List.filterMap_eq_nil_iff.mpr fun effect member => ?_
        cases effect with
        | append owner role content id =>
            have other : owner ≠ a := by
              rintro rfl
              exact own (owner_of_turn member)
            simp [other]
        | emit | finish | request | push | capture | dispatch | decide => rfl
      rw [turn_loaded loads.2.2] at unrecorded
      rw [unrecorded]
      refine (Part.missing ?_).of_iff (iff_of_false not_false fun both => own both.1)
      rw [handleChatSend_opened opens]
      simp
  · obtain ⟨message, refused⟩ := @turn_refused backend w _ _ _ loads
    rw [refused]
    exact (Part.refl []).of_iff (iff_of_true trivial fun also => absurd also loads)

end Turn

/-! ## The durable tables -/

section Durable
variable {backend : Backend} {a : Uuid} {sessionId : String} {w : World} {moments : Nat → Moment}

def durable (sessionId : String) (w : World) : List ChatTurnDto := (w.tables.turnsOf sessionId).map ChatTurn.dto

theorem perform_append (belongs : Belongs a sessionId w) {owner : Uuid} {role content : String} {id : Option String}
    (own : w.chatSessions sessionId = none → owner = a) :
    let w' := w.appendChatTurn .done owner ⟨sessionId, role, content, id⟩
    (∃ session, w'.chatSessions sessionId = some session ∧ session.ownerId = a) ∧
      durable sessionId w' = durable sessionId w ++ (recorded? a (.append owner role content id)).toList := by
  unfold Belongs at belongs
  cases row : w.chatSessions sessionId with
  | none =>
      obtain rfl := own row
      simp [World.appendChatTurn, row, World.insertTurn, durable, Tables.turnsOf, World.tables, ChatTurn.dto]
  | some session =>
      simp only [row] at belongs
      by_cases same : owner = a
      · simp [World.appendChatTurn, row, World.insertTurn, durable, Tables.turnsOf, World.tables, ChatTurn.dto, same,
          belongs]
      · have refused : session.ownerId ≠ owner := fun equal => same (equal.symm.trans belongs)
        have kept : w.appendChatTurn .done owner ⟨sessionId, role, content, id⟩ = w := by
          simp [World.appendChatTurn, row, refused]
        rw [kept]
        exact ⟨⟨session, row, belongs⟩, by simp [same]⟩

theorem performAll_durable {effects : List Effect} {i : Nat} (done : ∀ i, (moments i).appended = .done)
    (belongs : Belongs a sessionId w)
    (own : w.chatSessions sessionId = none → ∀ owner role content id, .append owner role content id ∈ effects → owner = a) :
    Belongs a sessionId (w.performAll backend sessionId moments i effects) ∧
      durable sessionId (w.performAll backend sessionId moments i effects) = durable sessionId w ++ records a effects := by
  induction effects generalizing w i with
  | nil => exact ⟨belongs, (List.append_nil _).symm⟩
  | cons effect rest ih =>
      rw [World.performAll, records_cons]
      have later : w.chatSessions sessionId = none → ∀ owner role content id,
          .append owner role content id ∈ rest → owner = a :=
        fun none owner role content id member => own none owner role content id (List.mem_cons_of_mem _ member)
      cases effect with
      | append owner role content id =>
          obtain ⟨still, grown⟩ := perform_append belongs fun none => own none owner role content id List.mem_cons_self
          rw [World.perform, done i, ← List.append_assoc, ← grown]
          obtain ⟨session, row, theirs⟩ := still
          refine ih ?_ fun none => absurd (row.symm.trans none) (by simp)
          rw [Belongs, row]
          exact theirs
      | push role content id => exact ih belongs later
      | emit | finish | request | capture | dispatch | decide => exact ih belongs later

/-- The durable tables have the same of the session. -/
structure SameSession (sessionId : String) (w w' : World) : Prop where
  row : w'.chatSessions sessionId = w.chatSessions sessionId
  turns : w'.tables.turnsOf sessionId = w.tables.turnsOf sessionId

theorem SameSession.trans {w' w'' : World} (first : SameSession sessionId w w') (second : SameSession sessionId w' w'') :
    SameSession sessionId w w'' := ⟨second.row.trans first.row, second.turns.trans first.turns⟩

theorem append_apart {outcome : Appended} {owner : Uuid} {turn : ChatTurn} (apart : turn.sessionId ≠ sessionId) :
    SameSession sessionId w (w.appendChatTurn outcome owner turn) := by
  constructor
  · unfold World.appendChatTurn
    split
    · rfl
    · split
      · cases outcome <;> exact Function.update_of_ne (Ne.symm apart) _ _
      · split
        · cases outcome <;> rfl
        · rfl
  · simp only [Tables.turnsOf, World.tables, appendChatTurn_chatTurns]
    split_ifs
    · simp [apart]
    · rfl

theorem performAll_apart {effects : List Effect} {i : Nat} {other : String} (apart : other ≠ sessionId) :
    SameSession sessionId w (w.performAll backend other moments i effects) := by
  induction effects generalizing w i with
  | nil => exact ⟨rfl, rfl⟩
  | cons effect rest ih =>
      rw [World.performAll]
      cases effect with
      | append owner role content id => exact (append_apart apart).trans ih
      | push role content id =>
          have same : SameSession sessionId w (w.perform backend other (moments i) (.push role content id)) := ⟨rfl, rfl⟩
          exact same.trans ih
      | emit | finish | request | capture | dispatch | decide => exact ih

theorem forget_apart {other : String} (apart : other ≠ sessionId) :
    SameSession sessionId w { w with
      chatSessions := Function.update w.chatSessions other none
      chatTurns := w.chatTurns.filter fun turn => turn.sessionId ≠ other } := by
  refine ⟨Function.update_of_ne (Ne.symm apart) _ _, ?_⟩
  simp only [Tables.turnsOf, World.tables, List.filter_filter]
  refine List.filter_congr fun turn _ => ?_
  by_cases own : turn.sessionId = sessionId
  · simp [own, Ne.symm apart]
  · simp [own]

/-! ## Runs -/

theorem step_apart {w' : World} {event : Event} (belongs : Belongs a sessionId w) (same : SameSession sessionId w w')
    (silent : ¬ Loads sessionId event) (nothing : pushedIn backend sessionId w event = []) :
    Belongs a sessionId w' ∧ ∃ recorded, durable sessionId w' = durable sessionId w ++ recorded ∧
      Part (Mirrors backend a sessionId w event) recorded (pushedIn backend sessionId w event) := by
  refine ⟨?_, [], ?_, ?_⟩
  · rw [Belongs, same.row, same.turns]
    exact belongs
  · rw [durable, same.turns, List.append_nil, durable]
  · rw [nothing]
    refine (Part.refl []).of_iff (iff_of_true trivial ?_)
    cases event with
    | forget => trivial
    | chatSend send answers stores => exact fun loads => absurd loads silent

theorem step_durable {w' : World} {event : Event} (belongs : Belongs a sessionId w)
    (written : Written a sessionId w event) (taken : step backend w event = some w') :
    Belongs a sessionId w' ∧ ∃ recorded, durable sessionId w' = durable sessionId w ++ recorded ∧
      Part (Mirrors backend a sessionId w event) recorded (pushedIn backend sessionId w event) := by
  cases event with
  | forget other =>
      obtain rfl := Option.some.inj taken
      exact step_apart belongs (forget_apart written) not_false rfl
  | chatSend send answers stores =>
      obtain rfl := Option.some.inj taken
      by_cases same : send.sessionId = sessionId
      · subst same
        obtain ⟨done, opened⟩ := written rfl
        have own : w.chatSessions send.sessionId = none → ∀ owner role content id,
            .append owner role content id ∈ (w.turn backend send answers stores).effects → owner = a := by
          intro none owner role content id member
          have theirs := owner_of_turn member
          simp only [World.historyOwner, opened none] at theirs
          split at theirs
          · exact (Option.some.inj theirs).symm
          · cases theirs
        obtain ⟨still, grown⟩ := performAll_durable (i := 0) done belongs own
        refine ⟨still, _, grown, ?_⟩
        rw [pushedIn, if_pos rfl]
        exact turn_part
      · exact step_apart belongs (performAll_apart same) (fun loads => same loads.1) (if_neg same)

theorem run_durable {w' : World} {events : List Event} (belongs : Belongs a sessionId w)
    (written : AllSteps (step backend) (Written a sessionId) w events) (reached : run (step backend) w events = some w') :
    Belongs a sessionId w' ∧ ∃ recorded, durable sessionId w' = durable sessionId w ++ recorded ∧
      Part (AllSteps (step backend) (Mirrors backend a sessionId) w events) recorded
        (pushedTo backend sessionId w events) := by
  induction events generalizing w with
  | nil =>
      obtain rfl := Option.some.inj reached
      exact ⟨belongs, [], (List.append_nil _).symm, Part.refl []⟩
  | cons event rest ih =>
      obtain ⟨u, taken, later⟩ := (run_cons).mp reached
      obtain ⟨now, remaining⟩ := (allSteps_cons taken).mp written
      have same : next backend w event = u := by rw [next, taken, Option.getD_some]
      obtain ⟨between, first, grown, part⟩ := step_durable belongs now taken
      obtain ⟨still, second, grown', part'⟩ := ih between remaining later
      refine ⟨still, first ++ second, by rw [grown', grown, List.append_assoc], ?_⟩
      rw [allSteps_cons taken, pushedTo, same]
      exact part.append part'

/-! ## Loading -/

theorem loadChatSession_durable (belongs : Belongs a sessionId w) {reader : Except String Claims} {db : Statements}
    {turns : List ChatTurnDto} (loaded : loadChatSession w.tables reader db sessionId = .ok turns) :
    turns = (durable sessionId w).take loadLimit := by
  rw [loadChatSession_ok loaded, durable, List.map_take]
  split
  · rfl
  · rename_i absent
    have none : w.chatSessions sessionId = none := by simpa [World.tables] using absent
    rw [Belongs, none] at belongs
    simp [belongs]

theorem loadChatSession_owner (belongs : Belongs a sessionId w) {claims : Claims} (own : claims.userId = a) :
    loadChatSession w.tables (.ok claims) answering sessionId = .ok ((durable sessionId w).take loadLimit) := by
  have owner : sessionOwner w.tables answering sessionId = .ok ((w.chatSessions sessionId).map ChatSession.ownerId) := rfl
  have loaded : ∃ turns, loadChatSession w.tables (.ok claims) answering sessionId = .ok turns := by
    unfold loadChatSession
    rw [owner]
    cases row : w.chatSessions sessionId with
    | none => exact ⟨_, rfl⟩
    | some session =>
        rw [Belongs, row] at belongs
        have same : session.ownerId = claims.userId := belongs.trans own.symm
        refine ⟨((w.tables.turnsOf sessionId).take loadLimit).map ChatTurn.dto, ?_⟩
        simp only [bind, Except.bind, Option.map_some, same, not_true_eq_false, false_and, if_false]
        rfl
  obtain ⟨turns, loaded⟩ := loaded
  rw [loaded, loadChatSession_durable belongs loaded]

/-- The durable history of a session of a user is what was pushed to it exactly if each of its turns that reads the
conversation finds its owner and asks for no other than the memory tools. Of up to 500 such messages all are loaded. -/
theorem durable_history_mirrors (backend : Backend) (users : String → Option Uuid) (a : Uuid) (sessionId : String)
    {events : List Event} {w : World}
    (written : AllSteps (step backend) (Written a sessionId) (World.new users) events)
    (reached : run (step backend) (World.new users) events = some w) :
    let pushed := pushedTo backend sessionId (World.new users) events
    let mirrors := AllSteps (step backend) (Mirrors backend a sessionId) (World.new users) events
    (durable sessionId w = pushed ↔ mirrors) ∧
      (mirrors → pushed.length ≤ loadLimit →
        (∀ reader db turns, loadChatSession w.tables reader db sessionId = .ok turns → turns = pushed) ∧
          ∀ claims, claims.userId = a → loadChatSession w.tables (.ok claims) answering sessionId = .ok pushed) := by
  have start : Belongs a sessionId (World.new users) := rfl
  obtain ⟨belongs, recorded, grown, part⟩ := run_durable start written reached
  obtain rfl : recorded = durable sessionId w := grown.symm
  refine ⟨part.complete, fun mirrors few => ?_⟩
  have whole := part.complete.mpr mirrors
  have all : (durable sessionId w).take loadLimit = durable sessionId w := by
    rw [whole]
    exact List.take_of_length_le few
  rw [← whole, ← all]
  refine ⟨fun reader db turns loaded => ?_, fun claims own => loadChatSession_owner belongs own⟩
  exact loadChatSession_durable belongs loaded

end Durable

/-! ## Two sessions -/

theorem greeting_mirrored :
    ∃ w, run (step .inProc) (World.new twoUsers) [saying "user:ana" "hi" none] = some w ∧
      durable "s1" w = [⟨"user", "hi", none⟩, ⟨"assistant", "hello", none⟩] ∧
      loadChatSession w.tables (.ok anaClaims) answering "s1" =
        .ok [⟨"user", "hi", none⟩, ⟨"assistant", "hello", none⟩] := by
  have written : AllSteps (step .inProc) (Written 1 "s1") (World.new twoUsers) [saying "user:ana" "hi" none] :=
    ⟨fun _ => ⟨fun _ => rfl, fun _ => rfl⟩, trivial⟩
  have mirrors : AllSteps (step .inProc) (Mirrors .inProc 1 "s1") (World.new twoUsers)
      [saying "user:ana" "hi" none] := by
    refine ⟨fun _ => ⟨rfl, fun stream reply completed read again => ?_⟩, trivial⟩
    obtain rfl := Except.ok.inj completed
    obtain rfl := congrArg Prod.fst read
    cases again
  have result := durable_history_mirrors .inProc twoUsers 1 "s1" written rfl
  exact ⟨_, rfl, result.1.mpr mirrors, (result.2 mirrors (by decide)).2 anaClaims rfl⟩

/-- The result of a ping is pushed and is not in the durable history. -/
theorem ping_not_mirrored :
    AllSteps (step .inProc) (Written 1 "s1") (World.new twoUsers) [ask "is the router up?"] ∧
      ∃ w, run (step .inProc) (World.new twoUsers) [ask "is the router up?"] = some w ∧
        ⟨"tool", "tool dispatch error: timeout", some "t1"⟩ ∈
          pushedTo .inProc "s1" (World.new twoUsers) [ask "is the router up?"] ∧
        durable "s1" w ≠ pushedTo .inProc "s1" (World.new twoUsers) [ask "is the router up?"] ∧
        ∃ turns, loadChatSession w.tables (.ok anaClaims) answering "s1" = .ok turns ∧
          ¬ turns <:+ pushedTo .inProc "s1" (World.new twoUsers) [ask "is the router up?"] := by
  refine ⟨⟨fun _ => ⟨fun _ => rfl, fun _ => rfl⟩, trivial⟩, _, rfl, ?_, ?_, _, rfl, ?_⟩
  all_goals decide

end Daimon.Proof.App
