import Daimon.App.ChatBubble
import Daimon.Lib.Run
import Daimon.Proof.App.Turn

/-!
# What the browser shows and what the history keeps

The text that the operator sees of the assistant is the text that the conversation keeps, and then the start of a reply
that broke off, whatever the operator sends in between.
-/

namespace Daimon.Proof.ChatBubble
open Daimon.Core Daimon.App Daimon.App.ChatBubble Lib
open Daimon.App.Chat (Answers ChatSend ChatMessage ContentDelta Effect LlmStream Outcome Reply ToolCall)
open Daimon.Gateway (TurnEvent)
open Daimon.Redis (ConvMessage)

/-! ## The socket -/

/-- What the client makes of a message. -/
def incoming : WsServerMsg → IncomingMsg
  | .agentTokenDelta agentId sessionId contentDelta => .agentTokenDelta agentId sessionId contentDelta
  | .agentToolUse agentId sessionId tool params => .agentToolUse agentId sessionId tool params
  | .agentToolResult agentId sessionId tool output isError => .agentToolResult agentId sessionId tool output isError
  | .agentDone agentId sessionId stopReason inputTokens outputTokens =>
      .agentDone agentId sessionId stopReason inputTokens outputTokens
  | .error message => .error message
  | .snapshot _ _ | .update _ _ | .pong => .other

theorem decodeU32_jsonU32 (n : UInt32) : IncomingMsg.decodeU32 (jsonU32 n) = some n := by
  have fits : n.toNat < 0x100000000 := n.toNat_lt
  simp [IncomingMsg.decodeU32, jsonU32, Json.asU64?, fits]

/-- The client reads each message of the server. -/
theorem fromValue_toValue (msg : WsServerMsg) : IncomingMsg.fromValue msg.toValue = some (incoming msg) := by
  cases msg <;>
    simp [WsServerMsg.toValue, IncomingMsg.fromValue, Json.get?_ofFields, Json.asStr?, Json.asBool?, decodeU32_jsonU32,
      incoming, List.lookup_cons]

/-! ## What is shown -/

/-- The texts of the turns of one kind, in order. -/
def textsOf (kind : TurnKind) (turns : List Turn) : List String := (turns.filter fun t => t.kind = kind).map Turn.content

def assistantText (b : Bubble) : String := String.join (textsOf .assistant b.turns)

def userTexts (b : Bubble) : List String := textsOf .user b.turns

theorem textsOf_append (kind : TurnKind) (turns more : List Turn) :
    textsOf kind (turns ++ more) = textsOf kind turns ++ textsOf kind more := by
  simp [textsOf]

theorem assistantText_push (b : Bubble) (kind : TurnKind) (content : String) :
    assistantText (b.push kind content) = if kind = .assistant then assistantText b ++ content else assistantText b := by
  simp only [assistantText, Bubble.push, textsOf_append]
  split_ifs with same <;> simp [textsOf, same]

theorem userTexts_push (b : Bubble) (kind : TurnKind) (content : String) :
    userTexts (b.push kind content) = if kind = .user then userTexts b ++ [content] else userTexts b := by
  simp only [userTexts, Bubble.push, textsOf_append]
  split_ifs with same <;> simp [textsOf, same]

theorem pushDelta_shown (b : Bubble) (delta : String) :
    assistantText (b.pushDelta delta) = assistantText b ++ delta ∧ userTexts (b.pushDelta delta) = userTexts b := by
  unfold Bubble.pushDelta
  split
  · rename_i content last
    obtain ⟨before, turns⟩ := List.getLast?_eq_some_iff.mp last
    constructor
    · simp [assistantText, turns, textsOf, String.append_assoc]
    · simp [userTexts, turns, textsOf]
  · exact ⟨assistantText_push b .assistant delta, userTexts_push b .assistant delta⟩

/-- What a message adds to the text of the assistant. -/
def shownText : WsServerMsg → String
  | .agentTokenDelta _ _ contentDelta => contentDelta
  | _ => ""

variable {display : Json → String} {b b' : Bubble}

theorem receive_shown {msg : WsServerMsg} (received : b.receive display msg.toValue = some b') :
    assistantText b' = assistantText b ++ shownText msg ∧ userTexts b' = userTexts b := by
  rw [Bubble.receive, fromValue_toValue] at received
  cases msg with
  | snapshot scope data =>
      cases received
      exact ⟨String.append_empty.symm, rfl⟩
  | update scope data =>
      cases received
      exact ⟨String.append_empty.symm, rfl⟩
  | pong =>
      cases received
      exact ⟨String.append_empty.symm, rfl⟩
  | error message =>
      cases received
      have pushed := assistantText_push b .system ("error: " ++ message)
      have same := userTexts_push b .system ("error: " ++ message)
      exact ⟨pushed.trans String.append_empty.symm, same⟩
  | agentTokenDelta agentId sessionId contentDelta =>
      cases received
      exact pushDelta_shown b contentDelta
  | agentToolUse agentId sessionId tool params =>
      cases received
      simp [assistantText_push, userTexts_push, shownText]
  | agentToolResult agentId sessionId tool output isError =>
      obtain ⟨body, -, rfl⟩ := Option.map_eq_some_iff.mp received
      simp [assistantText_push, userTexts_push, shownText]
  | agentDone agentId sessionId stopReason inputTokens outputTokens =>
      cases received
      exact ⟨String.append_empty.symm, rfl⟩

def received? : Bubble.Action → Option Json
  | .receive value => some value
  | .sendMessage _ => none

/-- What the operator sends; blanks are not sent. -/
def sent? : Bubble.Action → Option String
  | .sendMessage input => if trim input = "" then none else some (trim input)
  | .receive _ => none

theorem sendMessage_shown (b : Bubble) (input : String) :
    assistantText (b.sendMessage input) = assistantText b ∧
      userTexts (b.sendMessage input) = userTexts b ++ (sent? (.sendMessage input)).toList := by
  unfold Bubble.sendMessage
  by_cases blank : trim input = ""
  · simp [blank, sent?]
  · simp only [if_neg blank, sent?]
    constructor
    · change assistantText ((b.push .user (trim input)).push .assistant "") = assistantText b
      rw [assistantText_push, assistantText_push]
      simp
    · change userTexts ((b.push .user (trim input)).push .assistant "") = userTexts b ++ [trim input]
      rw [userTexts_push, userTexts_push]
      simp

theorem filterMap_cons_toList {α β : Type} (f : α → Option β) (x : α) (xs : List α) :
    (x :: xs).filterMap f = (f x).toList ++ xs.filterMap f := by
  rw [List.filterMap_cons]
  cases f x with
  | none => rfl
  | some y => rfl

/-- The client shows all that arrives, in order, and all that the operator sends. -/
theorem run_shown {actions : List Bubble.Action} {messages : List WsServerMsg}
    (carried : actions.filterMap received? = messages.map WsServerMsg.toValue)
    (ran : run (Bubble.step display) b actions = some b') :
    assistantText b' = assistantText b ++ String.join (messages.map shownText) ∧
      userTexts b' = userTexts b ++ actions.filterMap sent? := by
  induction actions generalizing b messages with
  | nil =>
      cases ran
      have none : messages = [] := List.map_eq_nil_iff.mp carried.symm
      simp [none]
  | cons action actions ih =>
      obtain ⟨mid, first, rest⟩ := (run_cons).mp ran
      rw [filterMap_cons_toList] at carried ⊢
      cases action with
      | sendMessage input =>
          cases first
          obtain ⟨text, users⟩ := sendMessage_shown b input
          obtain ⟨later, others⟩ := ih carried rest
          exact ⟨by rw [later, text], by rw [others, users, List.append_assoc]⟩
      | receive value =>
          have split : value :: actions.filterMap received? = messages.map WsServerMsg.toValue := carried
          obtain ⟨msg, messages, rfl, rfl, remaining⟩ := List.map_eq_cons_iff.mp split.symm
          obtain ⟨text, users⟩ := receive_shown first
          obtain ⟨later, others⟩ := ih remaining.symm rest
          constructor
          · rw [later, text, List.map_cons, String.join_cons, String.append_assoc]
          · rw [others, users]
            rfl

/-! ## Where it panics -/

def byteSize : List Char → Nat
  | [] => 0
  | c :: cs => c.utf8Size + byteSize cs

theorem cutBytes_eq_some_iff {n : Nat} {cs cut : List Char} :
    cutBytes n cs = some cut ↔ cut <+: cs ∧ byteSize cut = n := by
  induction cs generalizing n cut with
  | nil =>
      cases n with
      | zero => cases cut <;> simp [cutBytes, byteSize]
      | succ n => cases cut <;> simp [cutBytes, byteSize]
  | cons c rest ih =>
      have wide : 0 < c.utf8Size := c.utf8Size_pos
      cases n with
      | zero =>
          cases cut with
          | nil => simp [cutBytes, byteSize]
          | cons d cut =>
              have wide' : 0 < d.utf8Size := d.utf8Size_pos
              simp only [cutBytes, Option.some.injEq, reduceCtorEq, false_iff, not_and, byteSize]
              omega
      | succ n =>
          cases cut with
          | nil =>
              have here : ¬ byteSize [] = n + 1 := by simp [byteSize]
              simp only [cutBytes, here, and_false, iff_false]
              split <;> simp
          | cons d cut =>
              simp only [cutBytes, List.cons_prefix_cons]
              split_ifs with fits
              · simp only [Option.map_eq_some_iff, ih, List.cons.injEq, byteSize]
                constructor
                · rintro ⟨cut, ⟨first, size⟩, rfl, rfl⟩
                  exact ⟨⟨rfl, first⟩, by omega⟩
                · rintro ⟨⟨rfl, first⟩, size⟩
                  exact ⟨cut, ⟨first, by omega⟩, rfl, rfl⟩
              · simp only [false_iff, not_and, byteSize]
                rintro ⟨rfl, -⟩
                omega

/-- The byte at which a long output is cut lies within a character. -/
def SplitsChar (output : String) : Prop :=
  1200 < output.utf8ByteSize ∧ ∀ cut, cut <+: output.toList → byteSize cut ≠ 1200

theorem toolBody_eq_none_iff {output : String} : toolBody output = none ↔ SplitsChar output := by
  unfold toolBody
  split_ifs with long
  · rw [Option.map_eq_none_iff, Option.eq_none_iff_forall_ne_some]
    simp only [ne_eq, cutBytes_eq_some_iff, not_and, SplitsChar, long, true_and]
  · simp [SplitsChar, long]

def Panics : WsServerMsg → Prop
  | .agentToolResult _ _ _ output _ => SplitsChar output
  | _ => False

theorem receive_eq_none_iff {msg : WsServerMsg} : b.receive display msg.toValue = none ↔ Panics msg := by
  rw [Bubble.receive, fromValue_toValue]
  cases msg with
  | agentToolResult agentId sessionId tool output isError =>
      exact Option.map_eq_none_iff.trans toolBody_eq_none_iff
  | _ => exact iff_of_false (by simp [Bubble.onMessage, incoming]) id

/-- The page panics where a long output of a tool has no character boundary at its byte 1200, and nowhere else. -/
theorem bubble_panics_iff {actions : List Bubble.Action} {messages : List WsServerMsg}
    (carried : actions.filterMap received? = messages.map WsServerMsg.toValue) :
    run (Bubble.step display) b actions = none ↔ ∃ msg ∈ messages, Panics msg := by
  induction actions generalizing b messages with
  | nil =>
      have none : messages = [] := List.map_eq_nil_iff.mp carried.symm
      simp [none]
  | cons action actions ih =>
      rw [filterMap_cons_toList] at carried
      cases action with
      | sendMessage input =>
          have later : run (Bubble.step display) (b.sendMessage input) actions = none ↔ _ := ih carried
          exact later
      | receive value =>
          have split : value :: actions.filterMap received? = messages.map WsServerMsg.toValue := carried
          obtain ⟨msg, messages, rfl, rfl, remaining⟩ := List.map_eq_cons_iff.mp split.symm
          have first : b.receive display msg.toValue = none ↔ Panics msg := receive_eq_none_iff
          rw [List.exists_mem_cons_iff, ← first]
          simp only [run, Bubble.step]
          cases b.receive display msg.toValue with
          | none => simp
          | some next => simpa using ih remaining.symm

theorem utf8ByteSize_ofList (cs : List Char) : (String.ofList cs).utf8ByteSize = byteSize cs := by
  induction cs with
  | nil => rfl
  | cons c cs ih =>
      rw [String.ofList_cons, String.utf8ByteSize_append, String.utf8ByteSize_singleton, ih]
      rfl

theorem splitsChar_ofList {cs : List Char} (long : 1200 < byteSize cs) (inside : cutBytes 1200 cs = none) :
    SplitsChar (String.ofList cs) := by
  constructor
  · rw [utf8ByteSize_ofList]
    exact long
  · intro cut first size
    rw [String.toList_ofList] at first
    rw [(cutBytes_eq_some_iff).mpr ⟨first, size⟩] at inside
    cases inside

theorem byteSize_letters (n : Nat) (rest : List Char) : byteSize (List.replicate n 'a' ++ rest) = n + byteSize rest := by
  induction n with
  | zero => simp
  | succ n ih =>
      have letter : 'a'.utf8Size = 1 := rfl
      rw [List.replicate_succ, List.cons_append, byteSize, letter, ih]
      omega

theorem cutBytes_letters (n k : Nat) (rest : List Char) :
    cutBytes (k + n) (List.replicate n 'a' ++ rest) = (cutBytes k rest).map (List.replicate n 'a' ++ ·) := by
  induction n with
  | zero => simp
  | succ n ih =>
      have letter : 'a'.utf8Size = 1 := rfl
      rw [List.replicate_succ, List.cons_append, ← Nat.add_assoc]
      simp [cutBytes, letter, ih, Function.comp_def]

/-- 1199 letters and then one of two bytes. -/
def longOutput : String := String.ofList (List.replicate 1199 'a' ++ ['é'])

theorem longOutput_splits : SplitsChar longOutput := by
  apply splitsChar_ofList
  · rw [byteSize_letters]
    decide
  · exact (cutBytes_letters 1199 1 ['é']).trans rfl

theorem sample_panic : run (Bubble.step fun _ => "{}") ⟨[], false, "ready", [], "s1"⟩
    [.receive (WsServerMsg.agentToolResult "chat" "s1" "ssh.exec" longOutput false).toValue] = none := by
  have carried (msg : WsServerMsg) :
      [Bubble.Action.receive msg.toValue].filterMap received? = [msg].map WsServerMsg.toValue := rfl
  apply (bubble_panics_iff (carried _)).mpr
  exact ⟨_, List.mem_singleton_self _, longOutput_splits⟩

/-! ## What is kept -/

def said : Effect → String
  | .emit event => shownText (sinkMsg event)
  | _ => ""

def pushed : Effect → String
  | .push role content _ => if role = "assistant" then content else ""
  | _ => ""

example : pushed (.push "user" "hello" none) = "" := by simp [pushed]

def appended : Effect → String
  | .append _ role content _ => if role = "assistant" then content else ""
  | _ => ""

example : appended (.append 1 "user" "hello" none) = "" := by simp [appended]

/-- The text of the assistant on the socket, in the working memory and on the durable tier. -/
def shown (effects : List Effect) : String := String.join (effects.map said)

def kept (effects : List Effect) : String := String.join (effects.map pushed)

def durable (effects : List Effect) : String := String.join (effects.map appended)

theorem shown_append (effects more : List Effect) : shown (effects ++ more) = shown effects ++ shown more := by
  simp [shown, String.join_append]

theorem kept_append (effects more : List Effect) : kept (effects ++ more) = kept effects ++ kept more := by
  simp [kept, String.join_append]

theorem durable_append (effects more : List Effect) : durable (effects ++ more) = durable effects ++ durable more := by
  simp [durable, String.join_append]

def StreamBroke (effects : List Effect) : Prop := ∃ e, .emit (.error ("stream: " ++ e)) ∈ effects

/-- All that is shown is kept, but for a reply whose stream broke. -/
structure Kept (owner : Option Uuid) (effects : List Effect) (cut : String) : Prop where
  seen : shown effects = kept effects ++ cut
  whole : cut ≠ "" → StreamBroke effects
  mirrored : ∀ o, owner = some o → durable effects = kept effects

def Silent (effect : Effect) : Prop := said effect = "" ∧ pushed effect = "" ∧ appended effect = ""

theorem join_silent {α : Type} {f : α → String} {xs : List α} (silent : ∀ x ∈ xs, f x = "") :
    String.join (xs.map f) = "" := by
  induction xs with
  | nil => rfl
  | cons x xs ih =>
      rw [List.map_cons, String.join_cons, silent x List.mem_cons_self, String.empty_append]
      exact ih fun y member => silent y (List.mem_cons_of_mem x member)

theorem kept_silent {owner : Option Uuid} {effects : List Effect} (silent : ∀ effect ∈ effects, Silent effect) :
    Kept owner effects "" := by
  have first : shown effects = "" := join_silent fun effect member => (silent effect member).1
  have second : kept effects = "" := join_silent fun effect member => (silent effect member).2.1
  have third : durable effects = "" := join_silent fun effect member => (silent effect member).2.2
  exact ⟨by rw [first, second]; rfl, fun cut => absurd rfl cut, fun o _ => by rw [third, second]⟩

theorem Kept.append {owner : Option Uuid} {effects more : List Effect} {cut : String} (first : Kept owner effects "")
    (later : Kept owner more cut) : Kept owner (effects ++ more) cut := by
  constructor
  · rw [shown_append, kept_append, first.seen, later.seen, String.append_empty, String.append_assoc]
  · intro some
    obtain ⟨e, member⟩ := later.whole some
    exact ⟨e, List.mem_append_right _ member⟩
  · intro o owned
    rw [durable_append, kept_append, first.mirrored o owned, later.mirrored o owned]

theorem Kept.finished {owner : Option Uuid} {effects : List Effect} {cut : String} (keeps : Kept owner effects cut) :
    Kept owner (effects ++ [.finish]) cut := by
  have nothing : shown [Effect.finish] = "" ∧ kept [Effect.finish] = "" ∧ durable [Effect.finish] = "" :=
    ⟨rfl, rfl, rfl⟩
  constructor
  · rw [shown_append, kept_append, nothing.1, nothing.2.1, String.append_empty, String.append_empty, keeps.seen]
  · intro some
    obtain ⟨e, member⟩ := keeps.whole some
    exact ⟨e, List.mem_append_left _ member⟩
  · intro o owned
    rw [durable_append, kept_append, nothing.2.1, nothing.2.2, keeps.mirrored o owned]

theorem mirror_silent {owner : Option Uuid} {role : String} (other : role ≠ "assistant") (content : String)
    (id : Option String) : ∀ effect ∈ Chat.mirror owner role content id, Silent effect := by
  cases owner with
  | none => simp [Chat.mirror]
  | some o => simp [Chat.mirror, Silent, said, pushed, appended, other]

section Turn
variable (answers : Answers) (send : ChatSend) (owner : Option Uuid)

theorem runTool_silent (history : List ChatMessage) (call : ToolCall) :
    ∀ effect ∈ (Chat.runTool answers send owner history call).effects, Silent effect := by
  unfold Chat.runTool
  split
  · intro effect member
    simp only [List.mem_append, List.mem_singleton, or_assoc] at member
    rcases member with captured | rfl | mirrored | rfl
    · obtain ⟨kind, record, rfl⟩ := App.memoryOutput_captures answers history call effect captured
      exact ⟨rfl, rfl, rfl⟩
    · exact ⟨rfl, rfl, rfl⟩
    · exact mirror_silent (by decide) _ _ effect mirrored
    · exact ⟨rfl, rfl, rfl⟩
  · simp [Silent, said, pushed, appended, sinkMsg, shownText]

theorem runTools_silent (history : List ChatMessage) (calls : List ToolCall) :
    ∀ effect ∈ (Chat.runTools answers send owner history calls).effects, Silent effect := by
  induction calls generalizing history with
  | nil => simp [Chat.runTools]
  | cons call rest ih =>
      intro effect member
      rcases List.mem_append.mp member with now | later
      · exact runTool_silent answers send owner history call effect now
      · exact ih _ effect later

/-- The deltas that a reply has emitted make its text. -/
def Faithful (reply : Reply) : Prop := shown (reply.events.map .emit) = reply.accumulatedText

theorem delta_faithful {parseInput : String → Option Json} {sessionId : String} {reply : Reply}
    (faithful : Faithful reply) (d : ContentDelta) : Faithful (reply.delta parseInput sessionId d) := by
  cases d with
  | textDelta text =>
      have grown := shown_append (reply.events.map .emit) [.emit (.tokenDelta sessionId text)]
      rw [faithful] at grown
      simp only [Faithful, Reply.delta, List.map_append]
      exact grown
  | toolUseStart id name => exact faithful
  | toolUseInputDelta partialJson => exact faithful
  | toolUseStop id =>
      unfold Faithful Reply.delta
      cases reply.pendingTool with
      | none => exact faithful
      | some p =>
          simp only [List.map_append, shown_append]
          exact String.append_empty.trans faithful
  | messageStop stopReason usage => exact faithful

theorem read_faithful {parseInput : String → Option Json} {sessionId : String} {reply : Reply}
    (faithful : Faithful reply) (stream : LlmStream) : Faithful (reply.read parseInput sessionId stream).1 := by
  induction stream generalizing reply with
  | nil => exact faithful
  | cons item rest ih =>
      cases item with
      | error e => exact faithful
      | ok d => exact ih (delta_faithful faithful d)

theorem reply_faithful {parseInput : String → Option Json} {sessionId : String} {stream : LlmStream} {reply : Reply}
    {e : Option String} (read : Reply.empty.read parseInput sessionId stream = (reply, e)) : Faithful reply := by
  have start : Faithful Reply.empty := rfl
  have faithful : Faithful (Reply.empty.read parseInput sessionId stream).1 := read_faithful start stream
  rwa [read] at faithful

theorem emitted_unkept (events : List TurnEvent) :
    kept (events.map .emit) = "" ∧ durable (events.map .emit) = "" := by
  constructor
  · apply join_silent
    simp [pushed]
  · apply join_silent
    simp [appended]

theorem mirror_durable {o : Uuid} (owned : owner = some o) (text : String) :
    durable (Chat.mirror owner "assistant" text none) = text := by
  simp [owned, Chat.mirror, durable, appended]

theorem mirror_unshown (text : String) :
    shown (Chat.mirror owner "assistant" text none) = "" ∧ kept (Chat.mirror owner "assistant" text none) = "" := by
  cases owner <;> simp [Chat.mirror, shown, kept, said, pushed]

theorem spoken_kept (history : List ChatMessage) {reply : Reply} (faithful : Faithful reply) :
    Kept owner (App.spoken answers send owner history reply) "" := by
  obtain ⟨unkept, undurable⟩ := emitted_unkept reply.events
  obtain ⟨unshown, unpushed⟩ := mirror_unshown owner reply.accumulatedText
  have asked : Kept owner [.request (Chat.completionRequest answers send history)] "" :=
    kept_silent fun effect member => List.mem_singleton.mp member ▸ ⟨rfl, rfl, rfl⟩
  have told : Kept owner (reply.events.map .emit ++ Chat.mirror owner "assistant" reply.accumulatedText none ++
      [.push "assistant" reply.accumulatedText none]) "" := by
    constructor
    · rw [shown_append, shown_append, kept_append, kept_append, faithful, unshown, unkept, unpushed]
      simp [shown, kept, said, pushed]
    · exact absurd rfl
    · intro o owned
      rw [durable_append, durable_append, kept_append, kept_append, undurable, mirror_durable owner owned, unkept, unpushed]
      simp [durable, kept, appended, pushed]
  have both := asked.append told
  simpa only [App.spoken, List.cons_append, List.nil_append, List.append_assoc] using both

theorem broken_kept (history : List ChatMessage) {reply : Reply} (faithful : Faithful reply) (e : String) :
    Kept owner (.request (Chat.completionRequest answers send history) :: reply.events.map .emit ++
      [.emit (.error ("stream: " ++ e))]) reply.accumulatedText := by
  obtain ⟨unkept, undurable⟩ := emitted_unkept reply.events
  have asked : Kept owner [.request (Chat.completionRequest answers send history)] "" :=
    kept_silent fun effect member => List.mem_singleton.mp member ▸ ⟨rfl, rfl, rfl⟩
  have broke : Kept owner (reply.events.map .emit ++ [.emit (.error ("stream: " ++ e))]) reply.accumulatedText := by
    constructor
    · rw [shown_append, kept_append, faithful, unkept]
      simp [shown, kept, said, pushed, sinkMsg, shownText]
    · intro _
      exact ⟨e, List.mem_append_right _ (List.mem_singleton_self _)⟩
    · intro o owned
      rw [durable_append, kept_append, undurable, unkept]
      rfl
  exact asked.append broke

theorem turnLoop_kept (left : Nat) (history : List ChatMessage) :
    ∃ cut, Kept owner (Chat.turnLoop answers send owner left history).effects cut := by
  induction left, history using App.turnLoop_induction answers send owner with
  | exhausted history =>
      refine ⟨"", kept_silent ?_⟩
      simp [Chat.turnLoop, Silent, said, pushed, appended, sinkMsg, shownText]
  | failed left history e failed =>
      rw [App.turnLoop_failed failed]
      refine ⟨"", kept_silent ?_⟩
      simp [Silent, said, pushed, appended, sinkMsg, shownText]
  | broken left history stream reply e completed read =>
      rw [App.turnLoop_broken completed read]
      have faithful := reply_faithful read
      exact ⟨reply.accumulatedText, broken_kept answers send owner history faithful e⟩
  | closed left history stream reply completed read stopped =>
      rw [App.turnLoop_closed completed read stopped]
      have faithful := reply_faithful read
      refine ⟨"", (spoken_kept answers send owner history faithful).append (kept_silent ?_)⟩
      simp [Silent, said, pushed, appended, sinkMsg, shownText]
  | again left history stream reply completed read stop ih =>
      rw [App.turnLoop_again completed read stop]
      have faithful := reply_faithful read
      obtain ⟨cut, later⟩ := ih
      have tools : Kept owner (Chat.runTools answers send owner (history ++ [App.assistant reply])
          reply.completedToolCalls).effects "" := kept_silent (runTools_silent answers send owner _ _)
      exact ⟨cut, ((spoken_kept answers send owner history faithful).append tools).append later⟩

theorem handleChatSend_kept (recent : Except String (List ConvMessage)) :
    ∃ cut, Kept owner (Chat.handleChatSend answers send owner recent).effects cut := by
  by_cases opened : App.Opens answers send ∧ ∃ list, recent = .ok list
  · obtain ⟨opens, list, rfl⟩ := opened
    obtain ⟨cut, turn⟩ := turnLoop_kept answers send owner Chat.maxLoops
      (list.map Chat.convToChat ++ [.user send.userMessage])
    have asked : Kept owner (Chat.mirror owner "user" send.userMessage none ++
        [.push "user" send.userMessage none]) "" := by
      apply kept_silent
      intro effect member
      rcases List.mem_append.mp member with mirrored | last
      · exact mirror_silent (by decide) _ _ effect mirrored
      · rw [List.mem_singleton.mp last]
        exact ⟨rfl, rfl, rfl⟩
    rw [App.handleChatSend_opened opens list]
    exact ⟨cut, (asked.append turn).finished⟩
  · have closed : App.Opens answers send → ∃ e, recent = .error e := by
      intro opens
      cases recent with
      | error e => exact ⟨e, rfl⟩
      | ok list => exact absurd ⟨opens, list, rfl⟩ opened
    obtain ⟨message, refused⟩ := App.handleChatSend_refused closed
    rw [refused]
    refine ⟨"", kept_silent ?_⟩
    simp [Chat.refuse, Silent, said, pushed, appended, sinkMsg, shownText]

end Turn

/-! ## The conversation -/

/-- A message of the operator, and all that the server knows as it answers. -/
structure Exchange where
  answers : Answers
  send : ChatSend
  owner : Option Uuid
  recent : Except String (List ConvMessage)

def Exchange.effects (x : Exchange) : List Effect :=
  (Chat.handleChatSend x.answers x.send x.owner x.recent).effects

/-- The socket also carries answers to pings, and what is broadcast. -/
def ofTurn : WsServerMsg → Bool
  | .snapshot _ _ | .update _ _ | .pong => false
  | _ => true

theorem join_ofTurn (messages : List WsServerMsg) :
    String.join ((messages.filter ofTurn).map shownText) = String.join (messages.map shownText) := by
  induction messages with
  | nil => rfl
  | cons msg messages ih =>
      rw [List.filter_cons, List.map_cons, String.join_cons, ← ih]
      cases turn : ofTurn msg with
      | true => exact String.join_cons
      | false =>
          have blank : shownText msg = "" := by cases msg <;> simp_all [ofTurn, shownText]
          rw [blank, String.empty_append]
          rfl

theorem join_wire (effects : List Effect) : String.join ((wire effects).map shownText) = shown effects := by
  induction effects with
  | nil => rfl
  | cons effect effects ih =>
      have split : shown (effect :: effects) = said effect ++ shown effects := String.join_cons
      cases effect with
      | emit event => rw [split, ← ih, wire, List.map_cons, String.join_cons, said]
      | _ => exact ih.trans (split.trans String.empty_append).symm

theorem join_exchanges (exchanges : List Exchange) :
    String.join ((exchanges.flatMap fun x => wire x.effects).map shownText) =
      String.join (exchanges.map fun x => shown x.effects) := by
  induction exchanges with
  | nil => rfl
  | cons x exchanges ih =>
      rw [List.flatMap_cons, List.map_append, String.join_append, ih, join_wire, List.map_cons, String.join_cons]

def answering (stream : LlmStream) : Exchange where
  answers := ⟨fun _ => none, .ok (), ⟨"", true⟩, fun _ => .ok stream, fun _ => none, fun _ => .ok (),
    fun _ _ => .error "", fun _ _ => .error "", fun _ => ""⟩
  send := ⟨"user:ana", "s1", "Is it up?", none, none⟩
  owner := some 9
  recent := .ok []

def answered : List Exchange :=
  [answering [.ok (.textDelta "It is"), .error "reset"],
    answering [.ok (.textDelta "It is "), .ok (.textDelta "up."), .ok (.messageStop .endTurn ⟨9, 4⟩)]]

def onSocket : List WsServerMsg := .pong :: answered.flatMap fun x => wire x.effects

def seenByAna : List Bubble.Action :=
  .sendMessage "Is it up?" :: (onSocket.take 2).map (fun msg => .receive msg.toValue) ++
    .sendMessage " " :: .sendMessage "Well?" :: (onSocket.drop 2).map fun msg => .receive msg.toValue

end Daimon.Proof.ChatBubble
