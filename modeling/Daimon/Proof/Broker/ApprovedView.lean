import Daimon.Proof.Broker.WriteGate

/-!
# What an approval says about the operation

The row an operator decides on carries a summary of the operation: the kind, and for a shell command
its first 80 characters, for an HTTP call its method and path, for SNMP its oid.
-/

namespace Daimon.Proof.Broker
open Daimon.Core Lib Daimon.Broker

/-- The operations agree on everything the row of an approval records. -/
def AgreeOnRecord : Op → Op → Prop
  | .shellCommand command _, .shellCommand command' _ => takeChars 80 command = takeChars 80 command'
  | .http method path _ _ _, .http method' path' _ _ _ => method = method' ∧ path = path'
  | .snmpGet oid, .snmpGet oid' => oid = oid'
  | .snmpSet oid _, .snmpSet oid' _ => oid = oid'
  | .snmpWalk oid, .snmpWalk oid' => oid = oid'
  | _, _ => False

theorem httpSummary_inj (method method' : HttpMethod) (path path' : String) :
    "http:" ++ method.debug ++ ":" ++ path = "http:" ++ method'.debug ++ ":" ++ path' ↔
      method = method' ∧ path = path' := by
  cases method <;> cases method' <;>
    simp [← String.toList_inj, HttpMethod.debug]

theorem opSummaryFor_eq_iff (op op' : Op) : opSummaryFor op = opSummaryFor op' ↔ AgreeOnRecord op op' := by
  cases op <;> cases op' <;>
    simp only [opSummaryFor, AgreeOnRecord, httpSummary_inj] <;>
    simp [← String.toList_inj]

theorem takeChars_of_length_le {n : Nat} {text : String} (short : text.toList.length ≤ n) :
    takeChars n text = text := by
  rw [takeChars, List.take_of_length_le short, String.ofList_toList]

theorem takeChars_append {n : Nat} {text : String} (long : n ≤ text.toList.length) (more : String) :
    takeChars n (text ++ more) = takeChars n text := by
  rw [takeChars, takeChars, String.toList_append, List.take_append_of_le_length long]

/-! ## Rows and operations of a run -/

def FitsRequest (req : ExecRequest) : Event → Prop
  | .guard _ (.enqueued row) => row.subject = subjectOf req
  | .guard _ _ => True
  | .transportStarted _ _ op _ => op = req.op

theorem advance_enqueued {g : Guard.Config} {s : Guard.State} {a : Guard.PreFlight} {phase : Guard.Phase}
    {answer : Guard.Answer} {r : Guard.StepResult} {row : Guard.ApprovalRecord}
    (moved : Guard.advance g s a phase answer = some r) (member : .enqueued row ∈ r.events) :
    row.subject = a.subject := by
  cases Guard.advance_cases moved with
  | @enqueue id _ inserted =>
      obtain rfl : row = Guard.ApprovalTable.newRow id s.now a.subject := by simpa using member
      rfl
  | publish sent =>
      rcases sent with rfl | ⟨-, rfl⟩
      · cases member
      · simp at member
  | undecided seen =>
      rcases seen with ⟨-, rfl⟩ | ⟨row, -, -, rfl⟩
      · cases member
      · simp at member
  | _ => simp at member

theorem stepCall_fits (b : Config) (s : Guard.State) (i : Nat) (req : ExecRequest) (phase : Phase)
    (answer : Answer) (r : CallStep) (moved : stepCall b s i req phase answer = some r) (e : Event)
    (member : e ∈ r.events) : callOf e = i ∧ FitsRequest req e := by
  cases stepCall_move moved with
  | preFlight attached advanced =>
      obtain ⟨event, emitted, rfl⟩ := List.mem_map.mp member
      refine ⟨rfl, ?_⟩
      cases event with
      | enqueued row => exact advance_enqueued advanced emitted
      | published id subject => trivial
      | polled row => trivial
  | start registered =>
      obtain rfl := List.mem_singleton.mp member
      exact ⟨rfl, rfl⟩
  | _ => simp at member

theorem params_eq_iff {req req' : ExecRequest} (target : req.targetRef.display = req'.targetRef.display) :
    (subjectOf req).params = (subjectOf req').params ↔ AgreeOnRecord req.op req'.op := by
  have ordered : "op_summary" < "target_ref" := by decide
  have fields (r : ExecRequest) : (subjectOf r).params = .object
      [("op_summary", .string (opSummaryFor r.op)), ("target_ref", .string r.targetRef.display)] := by
    simp [subjectOf, preFlightArgs, Json.ofFields, Json.insertField, ordered]
  rw [fields, fields, ← opSummaryFor_eq_iff]
  simp [target]

theorem approved_record_determines (b : Config) (g : Guard.Config) (actions actions' : List Action)
    (w w' : World) (reached : run (step (b.withGuard g)) .new actions = some w)
    (reached' : run (step (b.withGuard g)) .new actions' = some w')
    (call call' : Nat) (row row' : Guard.ApprovalRecord)
    (enqueued : .guard call (.enqueued row) ∈ w.log) (enqueued' : .guard call' (.enqueued row') ∈ w'.log)
    (target target' : TransportTarget) (op op' : Op) (credential credential' : Credential)
    (started : .transportStarted call target op credential ∈ w.log)
    (started' : .transportStarted call' target' op' credential' ∈ w'.log)
    (sameTarget : row.targetRef = row'.targetRef) :
    (row.params = row'.params ↔ AgreeOnRecord op op') ∧
    (∀ command command' timeout timeout', op = .shellCommand command timeout →
      op' = .shellCommand command' timeout' → command.toList.length ≤ 80 → command'.toList.length ≤ 80 →
      row.params = row'.params → command = command') := by
  obtain ⟨c, found, subject⟩ := run_events (stepCall_fits _) reached _ enqueued
  obtain ⟨d, foundStart, rfl⟩ := run_events (stepCall_fits _) reached _ started
  obtain rfl : c = d := Option.some.inj (found.symm.trans foundStart)
  obtain ⟨c', found', subject'⟩ := run_events (stepCall_fits _) reached' _ enqueued'
  obtain ⟨d', foundStart', rfl⟩ := run_events (stepCall_fits _) reached' _ started'
  obtain rfl : c' = d' := Option.some.inj (found'.symm.trans foundStart')
  have params : row.params = (subjectOf c.req).params := congrArg Guard.ApprovalSubject.params subject
  have params' : row'.params = (subjectOf c'.req).params := congrArg Guard.ApprovalSubject.params subject'
  have ref : row.targetRef = some c.req.targetRef.display :=
    congrArg Guard.ApprovalSubject.targetRef subject
  have ref' : row'.targetRef = some c'.req.targetRef.display :=
    congrArg Guard.ApprovalSubject.targetRef subject'
  have display : c.req.targetRef.display = c'.req.targetRef.display :=
    Option.some.inj (ref.symm.trans (sameTarget.trans ref'))
  have agree : row.params = row'.params ↔ AgreeOnRecord c.req.op c'.req.op := by
    rw [params, params']
    exact params_eq_iff display
  refine ⟨agree, ?_⟩
  intro command command' timeout timeout' isShell isShell' short short' same
  have view := agree.mp same
  rw [isShell, isShell'] at view
  simpa only [AgreeOnRecord, takeChars_of_length_le short, takeChars_of_length_le short'] using view

def longWrite (comment : String) : ExecRequest :=
  (ExecRequest.new "user:alice" ⟨"mikrotik-edge"⟩ (.shellCommand
    ("/ip firewall filter add chain=forward action=drop dst-address=185.60.216.0/24 comment=" ++ comment)
    30)).withCapabilityMeta sampleWrite

theorem longWrite_targetRef (comment : String) : (longWrite comment).targetRef = ⟨"mikrotik-edge"⟩ := rfl

theorem longWrite_capability (comment : String) :
    (longWrite comment).guardCapability = "network.routeros.firewall_add_drop_rule" := rfl

/-- The row of `req` and the start of its operation are in the log. -/
structure Recorded (req : ExecRequest) (w : World) (row : Guard.ApprovalRecord) (target : TransportTarget)
    (credential : Credential) : Prop where
  reached : run (step (sampleBroker.withGuard sampleGuard)) .new (park req ++ approve ++ [.advance 0 .go]) = some w
  enqueued : .guard 0 (.enqueued row) ∈ w.log
  subject : row.subject = subjectOf req
  started : .transportStarted 0 target req.op credential ∈ w.log

/-- Where the operation of a single approved call starts, and with which credential. -/
def soleStart : List Event → Option (TransportTarget × Credential)
  | [.guard 0 (.enqueued _), .guard 0 (.polled _), .transportStarted 0 target _ credential] =>
      some (target, credential)
  | _ => none

theorem recorded_of_any {req : ExecRequest} {target : TransportTarget} {credential : Credential}
    (ran : (run (step (sampleBroker.withGuard sampleGuard)) .new
      (park req ++ approve ++ [.advance 0 .go])).any (fun w => soleStart w.log = some (target, credential)) = true) :
    ∃ w row, Recorded req w row target credential := by
  obtain ⟨w, reached, shaped⟩ := (Option.any_eq_true _ _).mp ran
  have requested := first_request reached
  have ofRequest (e : Event) (logged : e ∈ w.log) (own : callOf e = 0) : FitsRequest req e := by
    obtain ⟨call, found, fits⟩ := run_events (stepCall_fits _) reached e logged
    rw [own] at found
    rw [found, Option.map_some] at requested
    exact Option.some.inj requested ▸ fits
  have shaped := of_decide_eq_true shaped
  unfold soleStart at shaped
  split at shaped
  case h_1 row seen target' op credential' log =>
    obtain ⟨rfl, rfl⟩ := Prod.mk.inj (Option.some.inj shaped)
    have enqueued : .guard 0 (.enqueued row) ∈ w.log := by simp [log]
    have started : .transportStarted 0 target' op credential' ∈ w.log := by simp [log]
    obtain rfl : op = req.op := ofRequest _ started rfl
    exact ⟨w, row, reached, enqueued, ofRequest _ enqueued rfl, started⟩
  case h_2 => cases shaped

theorem lab_recorded : ∃ w row, Recorded (longWrite "lab") w row ⟨"10.100.10.1", 22⟩ (.sshPassword "admin" "secret") :=
  recorded_of_any (by decide +kernel)

theorem production_recorded :
    ∃ w row, Recorded (longWrite "production") w row ⟨"10.100.10.1", 22⟩ (.sshPassword "admin" "secret") :=
  recorded_of_any (by decide +kernel)

theorem targetRef_longWrite {comment : String} {w : World} {row : Guard.ApprovalRecord} {target : TransportTarget}
    {credential : Credential} (recorded : Recorded (longWrite comment) w row target credential) :
    row.targetRef = some (TargetRef.display ⟨"mikrotik-edge"⟩) := by
  have subject : row.targetRef = (subjectOf (longWrite comment)).targetRef :=
    congrArg Guard.ApprovalSubject.targetRef recorded.subject
  rw [subject]
  simp only [subjectOf, preFlightArgs, longWrite_targetRef]

theorem capability_longWrite {comment : String} {w : World} {row : Guard.ApprovalRecord} {target : TransportTarget}
    {credential : Credential} (recorded : Recorded (longWrite comment) w row target credential) :
    row.capability = "network.routeros.firewall_add_drop_rule" := by
  have subject : row.capability = (subjectOf (longWrite comment)).capability :=
    congrArg Guard.ApprovalSubject.capability recorded.subject
  rw [subject]
  simp only [subjectOf, preFlightArgs, longWrite_capability]

/-- The first 80 characters end before the comment. -/
theorem longWrite_view (comment comment' : String) : AgreeOnRecord (longWrite comment).op (longWrite comment').op := by
  have long : 80 ≤
      "/ip firewall filter add chain=forward action=drop dst-address=185.60.216.0/24 comment=".toList.length := by
    rw [String.toList_ofList]
    decide
  simp only [AgreeOnRecord, longWrite, ExecRequest.withCapabilityMeta, ExecRequest.new]
  rw [takeChars_append long, takeChars_append long]

/-- Two drop rules that differ past the 80th character of their command, each approved and run. -/
def LongRuns (w w' : World) : Prop :=
  run (step (sampleBroker.withGuard sampleGuard)) .new
    (park (longWrite "lab") ++ approve ++ [.advance 0 .go]) = some w ∧
  run (step (sampleBroker.withGuard sampleGuard)) .new
    (park (longWrite "production") ++ approve ++ [.advance 0 .go]) = some w'

theorem longWrite_record_determines :
    ∃ w w' row row' op op' target credential, LongRuns w w' ∧
      .guard 0 (.enqueued row) ∈ w.log ∧ .guard 0 (.enqueued row') ∈ w'.log ∧
      .transportStarted 0 target op credential ∈ w.log ∧
      .transportStarted 0 target op' credential ∈ w'.log ∧
      (row.params = row'.params ↔ AgreeOnRecord op op') := by
  obtain ⟨w, row, lab⟩ := lab_recorded
  obtain ⟨w', row', production⟩ := production_recorded
  have sameTarget := (targetRef_longWrite lab).trans (targetRef_longWrite production).symm
  have agree := (approved_record_determines sampleBroker sampleGuard _ _ w w' lab.reached production.reached 0 0 _ _
    lab.enqueued production.enqueued _ _ _ _ _ _ lab.started production.started sameTarget).1
  exact ⟨w, w', row, row', _, _, _, _, ⟨lab.reached, production.reached⟩, lab.enqueued, production.enqueued,
    lab.started, production.started, agree⟩

theorem approved_record_leaves_op_open :
    ∃ w w' row row' op op' target credential, LongRuns w w' ∧
      .guard 0 (.enqueued row) ∈ w.log ∧ .guard 0 (.enqueued row') ∈ w'.log ∧
      .transportStarted 0 target op credential ∈ w.log ∧
      .transportStarted 0 target op' credential ∈ w'.log ∧
      row.capability = row'.capability ∧ row.targetRef = row'.targetRef ∧ row.params = row'.params ∧
      op ≠ op' := by
  obtain ⟨w, row, lab⟩ := lab_recorded
  obtain ⟨w', row', production⟩ := production_recorded
  have sameTarget := (targetRef_longWrite lab).trans (targetRef_longWrite production).symm
  have sameCapability := (capability_longWrite lab).trans (capability_longWrite production).symm
  have params : row.params = (subjectOf (longWrite "lab")).params := congrArg Guard.ApprovalSubject.params lab.subject
  have params' : row'.params = (subjectOf (longWrite "production")).params :=
    congrArg Guard.ApprovalSubject.params production.subject
  have sameParams : row.params = row'.params := by
    rw [params, params']
    exact (params_eq_iff (by simp only [longWrite_targetRef])).mpr (longWrite_view "lab" "production")
  have different : (longWrite "lab").op ≠ (longWrite "production").op := by decide
  exact ⟨w, w', row, row', _, _, _, _, ⟨lab.reached, production.reached⟩, lab.enqueued, production.enqueued,
    lab.started, production.started, sameCapability, sameTarget, sameParams, different⟩

end Daimon.Proof.Broker
