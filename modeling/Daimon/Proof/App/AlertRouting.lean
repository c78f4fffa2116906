import Daimon.App.AlertRouting
import Daimon.Proof.App.Gateways

/-!
# Who is alerted

An alert goes to those whom its rule names and whose handle was bound to an active user when the router asked, to all of
them whatever the adapters and the table of deliveries answer, and to nobody else. A bare reply decides only an approval
whose alert was sent as the message replied to.
-/

namespace Daimon.Proof.AlertRouting
open Daimon.Core Daimon.App Daimon.App.AlertRouting Lib
open Daimon.App.AlertRouter (Alert AlertClass)
open Daimon.App.Inbound (AlertDelivery resolveApprovalByReply)

def passed (checked : List (Recipient × Except Unit Bool)) : List Recipient :=
  (checked.filter fun c => isWelcome c.2).map Prod.fst

def rows (job : Job) : List DeliveryRow := job.sent.map fun s => deliveryRow job.alert s.1 s.2

def World.jobs (w : World) : List Job := w.routed ++ w.current.toList

section Run
variable {enabled : List String} {w w' : World} {action : Action} {job job' : Job}

/-! ## What a step can do -/

/-- How an alert on its way gets further. -/
inductive Moved (enabled : List String) (accounts : Accounts) (job : Job) : Job → Prop
  | checked {r : Recipient} {todo found : List Recipient} {answered : Bool} (phase : job.phase = .resolving (r :: todo) found) :
      Moved enabled accounts job { job with
        checked := job.checked ++ [(r, isEnrolledActive accounts answered r)]
        phase := .resolving todo (if isWelcome (isEnrolledActive accounts answered r) then found ++ [r] else found) }
  | resolved {found : List Recipient} (phase : job.phase = .resolving [] found) :
      Moved enabled accounts job { job with phase := .delivering found }
  | sent {r : Recipient} {todo : List Recipient} {answer : Answer} (phase : job.phase = .delivering (r :: todo))
      (isEnabled : r.channel ∈ enabled) :
      Moved enabled accounts job { job with
        sent := job.sent ++ [(r, answer)], phase := .recording (deliveryRow job.alert r answer) todo }
  | skipped {r : Recipient} {todo : List Recipient} (phase : job.phase = .delivering (r :: todo))
      (disabled : r.channel ∉ enabled) : Moved enabled accounts job { job with phase := .delivering todo }

theorem check_moved {answered : Bool} (checked : job.check w.accounts answered = some job') :
    Moved enabled w.accounts job job' := by
  unfold Job.check at checked
  split at checked
  · rename_i phase
    cases checked
    exact .checked phase
  · cases checked

theorem resolved_moved (resolved : job.resolved = some job') : Moved enabled w.accounts job job' := by
  unfold Job.resolved at resolved
  split at resolved
  · rename_i phase
    cases resolved
    exact .resolved phase
  · cases resolved

theorem deliver_moved {answer : Answer} (delivered : job.deliver enabled answer = some job') :
    Moved enabled w.accounts job job' := by
  unfold Job.deliver at delivered
  split at delivered
  · rename_i phase
    split at delivered
    · rename_i isEnabled
      cases delivered
      exact .sent phase isEnabled
    · rename_i disabled
      cases delivered
      exact .skipped phase disabled
  · cases delivered

theorem recorded_cases {row : DeliveryRow} (recorded : job.recorded = some (row, job')) :
    ∃ todo, job.phase = .recording row todo ∧ job' = { job with phase := .delivering todo } := by
  unfold Job.recorded at recorded
  split at recorded
  · rename_i phase
    cases recorded
    exact ⟨_, phase, rfl⟩
  · cases recorded

inductive Stepped (enabled : List String) (w : World) : World → Prop
  | outside {accounts : Accounts} {config : String → Option Json} : Stepped enabled w { w with accounts, config }
  | started {alert : Alert} (idle : w.current = none) : Stepped enabled w { w with
      current := some ⟨alert, namedRecipients w.config alert, [], [], .resolving (namedRecipients w.config alert) []⟩ }
  | moved {job job' : Job} (here : w.current = some job) (moved : Moved enabled w.accounts job job') :
      Stepped enabled w { w with current := some job' }
  | recorded {job : Job} {row : DeliveryRow} {todo : List Recipient} {now : Nat} {saved : Bool}
      (here : w.current = some job) (phase : job.phase = .recording row todo) : Stepped enabled w { w with
        deliveries := if saved then w.deliveries ++ [(row, now)] else w.deliveries
        current := some { job with phase := .delivering todo } }
  | finished {job : Job} (here : w.current = some job) (phase : job.phase = .delivering []) :
      Stepped enabled w { w with current := none, routed := w.routed ++ [job] }

theorem step_stepped (taken : step enabled w action = some w') : Stepped enabled w w' := by
  cases action with
  | administer accounts =>
      cases taken
      exact .outside
  | configure config =>
      cases taken
      exact .outside
  | route alert =>
      simp only [step] at taken
      split at taken
      · rename_i idle
        cases taken
        exact .started idle
      · cases taken
  | check answered =>
      obtain ⟨job', moved, rfl⟩ := Option.map_eq_some_iff.mp taken
      obtain ⟨job, here, checked⟩ := Option.bind_eq_some_iff.mp moved
      exact .moved here (check_moved checked)
  | resolved =>
      obtain ⟨job', moved, rfl⟩ := Option.map_eq_some_iff.mp taken
      obtain ⟨job, here, resolved⟩ := Option.bind_eq_some_iff.mp moved
      exact .moved here (resolved_moved resolved)
  | deliver answer =>
      obtain ⟨job', moved, rfl⟩ := Option.map_eq_some_iff.mp taken
      obtain ⟨job, here, delivered⟩ := Option.bind_eq_some_iff.mp moved
      exact .moved here (deliver_moved delivered)
  | record now saved =>
      obtain ⟨⟨row, job'⟩, recorded, rfl⟩ := Option.map_eq_some_iff.mp taken
      obtain ⟨job, here, recorded⟩ := Option.bind_eq_some_iff.mp recorded
      obtain ⟨todo, phase, rfl⟩ := recorded_cases recorded
      exact .recorded here phase
  | finish =>
      obtain ⟨job, found, rfl⟩ := Option.map_eq_some_iff.mp taken
      obtain ⟨here, phase⟩ := Option.filter_eq_some_iff.mp found
      exact .finished here (of_decide_eq_true phase)

/-! ## What is left of an alert -/

variable (enabled) in
/-- Nobody who was found and has a channel is forgotten. -/
def Kept (job : Job) : Prop :=
  match job.phase with
  | .resolving todo found => job.checked.map Prod.fst ++ todo = job.named ∧ found = passed job.checked ∧ job.sent = []
  | .delivering todo => job.checked.map Prod.fst = job.named ∧
      job.sent.map Prod.fst ++ todo.filter (fun r => r.channel ∈ enabled) =
        (passed job.checked).filter fun r => r.channel ∈ enabled
  | .recording row todo => job.checked.map Prod.fst = job.named ∧
      job.sent.map Prod.fst ++ todo.filter (fun r => r.channel ∈ enabled) =
        ((passed job.checked).filter fun r => r.channel ∈ enabled) ∧ (rows job).getLast? = some row

theorem passed_snoc (checked : List (Recipient × Except Unit Bool)) (r : Recipient) (answer : Except Unit Bool) :
    passed (checked ++ [(r, answer)]) = if isWelcome answer then passed checked ++ [r] else passed checked := by
  unfold passed
  split_ifs with found
  · simp [found]
  · simp [found]

theorem kept_moved {accounts : Accounts} (kept : Kept enabled job) (moved : Moved enabled accounts job job') :
    Kept enabled job' := by
  cases moved with
  | @checked r todo found answered phase =>
      rw [Kept, phase] at kept
      obtain ⟨named, rfl, unsent⟩ := kept
      refine ⟨?_, ?_, unsent⟩
      · rw [List.map_append, List.append_assoc]
        exact named
      · exact (passed_snoc _ _ _).symm
  | @resolved found phase =>
      rw [Kept, phase] at kept
      obtain ⟨named, rfl, unsent⟩ := kept
      refine ⟨?_, ?_⟩
      · rw [← named, List.append_nil]
      · rw [unsent]
        rfl
  | @sent r todo answer phase isEnabled =>
      rw [Kept, phase] at kept
      obtain ⟨named, whole⟩ := kept
      refine ⟨named, ?_, ?_⟩
      · rw [← whole, List.filter_cons_of_pos (by simpa using isEnabled)]
        simp
      · simp [rows]
  | @skipped r todo phase disabled =>
      rw [Kept, phase] at kept
      obtain ⟨named, whole⟩ := kept
      refine ⟨named, ?_⟩
      rw [← whole, List.filter_cons_of_neg (by simpa using disabled)]

theorem kept_recorded {row : DeliveryRow} {todo : List Recipient} (kept : Kept enabled job)
    (phase : job.phase = .recording row todo) : Kept enabled { job with phase := .delivering todo } := by
  rw [Kept, phase] at kept
  exact ⟨kept.1, kept.2.1⟩

theorem sent_kept {r : Recipient} {answer : Answer} (kept : Kept enabled job) (sent : (r, answer) ∈ job.sent) :
    r.channel ∈ enabled ∧ r ∈ job.named ∧ (r, .ok true) ∈ job.checked := by
  have reached : job.checked.map Prod.fst ⊆ job.named ∧ r ∈ (passed job.checked).filter fun r => r.channel ∈ enabled := by
    unfold Kept at kept
    split at kept
    · rw [kept.2.2] at sent
      cases sent
    · rw [← kept.1, ← kept.2]
      exact ⟨List.Subset.refl _, List.mem_append_left _ (List.mem_map_of_mem sent)⟩
    · rw [← kept.1, ← kept.2.1]
      exact ⟨List.Subset.refl _, List.mem_append_left _ (List.mem_map_of_mem sent)⟩
  obtain ⟨found, isEnabled⟩ := List.mem_filter.mp reached.2
  obtain ⟨⟨r', answer'⟩, member, rfl⟩ := List.mem_map.mp found
  obtain ⟨checked, welcome⟩ := List.mem_filter.mp member
  obtain rfl : answer' = .ok true := by
    unfold isWelcome at welcome
    split at welcome
    · assumption
    · cases welcome
  exact ⟨of_decide_eq_true isEnabled, reached.1 (List.mem_map_of_mem checked), checked⟩

/-! ## Everyone is served -/

variable (enabled) in
def Complete (job : Job) : Prop :=
  job.checked.map Prod.fst = job.named ∧
    job.sent.map Prod.fst = (passed job.checked).filter fun r => r.channel ∈ enabled

/-- The rows that were up for insertion. -/
def settledRows (job : Job) : List DeliveryRow :=
  match job.phase with
  | .recording _ _ => (rows job).dropLast
  | _ => rows job

variable (enabled) in
structure Routing (w : World) : Prop where
  current : ∀ job, w.current = some job → Kept enabled job
  routed : ∀ job ∈ w.routed, Complete enabled job
  inserted : (w.deliveries.map Prod.fst).Sublist (w.routed.flatMap rows ++ w.current.toList.flatMap settledRows)

theorem settledRows_moved {accounts : Accounts} (moved : Moved enabled accounts job job') :
    settledRows job' = settledRows job := by
  cases moved with
  | checked phase => simp [settledRows, phase, rows]
  | resolved phase => simp [settledRows, phase, rows]
  | sent phase isEnabled => simp [settledRows, phase, rows]
  | skipped phase disabled => simp [settledRows, phase, rows]

theorem complete_of_kept (kept : Kept enabled job) (phase : job.phase = .delivering []) : Complete enabled job := by
  rw [Kept, phase] at kept
  obtain ⟨named, whole⟩ := kept
  exact ⟨named, by rw [← whole, List.filter_nil, List.append_nil]⟩

theorem rows_recorded {row : DeliveryRow} {todo : List Recipient} (kept : Kept enabled job)
    (phase : job.phase = .recording row todo) : settledRows job ++ [row] = rows job := by
  rw [Kept, phase] at kept
  rw [settledRows, phase]
  exact List.dropLast_append_getLast? row kept.2.2

theorem step_routing (routing : Routing enabled w) (taken : step enabled w action = some w') : Routing enabled w' := by
  cases step_stepped taken with
  | outside => exact ⟨routing.current, routing.routed, routing.inserted⟩
  | @started alert idle =>
      refine ⟨?_, routing.routed, ?_⟩
      · rintro job ⟨⟩
        exact ⟨rfl, rfl, rfl⟩
      · have before := routing.inserted
        rw [idle] at before
        exact before
  | @moved job job' here moved =>
      refine ⟨?_, routing.routed, ?_⟩
      · rintro job ⟨⟩
        exact kept_moved (routing.current _ here) moved
      · have before := routing.inserted
        rw [here] at before
        simpa [settledRows_moved moved] using before
  | @recorded job row todo now saved here phase =>
      have kept := routing.current job here
      refine ⟨?_, routing.routed, ?_⟩
      · rintro job ⟨⟩
        exact kept_recorded kept phase
      · have before := routing.inserted
        rw [here] at before
        have after : settledRows { job with phase := .delivering todo } = settledRows job ++ [row] :=
          (rows_recorded kept phase).symm
        simp only [Option.toList_some, List.flatMap_singleton] at before ⊢
        rw [after, ← List.append_assoc]
        cases saved with
        | false => exact before.trans (List.sublist_append_left _ _)
        | true => simpa using before.append (List.Sublist.refl [row])
  | @finished job here phase =>
      have kept := routing.current job here
      refine ⟨nofun, ?_, ?_⟩
      · intro job' member
        rcases List.mem_append.mp member with old | last
        · exact routing.routed job' old
        · rw [List.mem_singleton.mp last]
          exact complete_of_kept kept phase
      · have before := routing.inserted
        rw [here] at before
        have settled : settledRows job = rows job := by rw [settledRows, phase]
        simpa [settled] using before

theorem routing_new (accounts : Accounts) (config : String → Option Json) :
    Routing enabled (.new accounts config) :=
  ⟨nofun, nofun, List.Sublist.refl []⟩

theorem settledRows_sublist (job : Job) : (settledRows job).Sublist (rows job) := by
  unfold settledRows
  split
  · exact List.dropLast_sublist _
  · exact List.Sublist.refl _

theorem run_routing {accounts : Accounts} {config : String → Option Json} {actions : List Action}
    (reached : run (step enabled) (.new accounts config) actions = some w) : Routing enabled w :=
  invariant_of_run (fun _ _ _ routing taken => step_routing routing taken) (routing_new accounts config) reached

theorem alert_rows {accounts : Accounts} {config : String → Option Json} {actions : List Action}
    (reached : run (step enabled) (.new accounts config) actions = some w) :
    (w.deliveries.map Prod.fst).Sublist ((World.jobs w).flatMap rows) := by
  apply (run_routing reached).inserted.trans
  rw [World.jobs, List.flatMap_append]
  apply (List.Sublist.refl _).append
  cases w.current with
  | none => exact List.Sublist.refl _
  | some job => simpa using settledRows_sublist job

/-- However the adapters and the inserts fare, an alert that was routed was checked against everyone its rule names, in
the rule's order, and sent once to each who was found and whose channel is enabled; and the table of deliveries holds at
most one row for each thing sent. -/
theorem alert_reaches_everyone (enabled : List String) (accounts : Accounts) (config : String → Option Json)
    (actions : List Action) (w : World) (reached : run (step enabled) (.new accounts config) actions = some w) :
    (∀ job ∈ w.routed, job.checked.map Prod.fst = job.named ∧
      job.sent.map Prod.fst = (passed job.checked).filter fun r => r.channel ∈ enabled) ∧
    (w.deliveries.map Prod.fst).Sublist ((World.jobs w).flatMap rows) :=
  ⟨(run_routing reached).routed, alert_rows reached⟩

/-! ## Nobody else -/

/-- The rule of an earlier state names everyone the alert is for, and each who was found was enrolled in a state after. -/
def Authorised (enabled : List String) (start : World) (past : List Action) (job : Job) : Prop :=
  ∃ before after v, past = before ++ after ∧ run (step enabled) start before = some v ∧
    job.named = namedRecipients v.config job.alert ∧
    ∀ r, (r, .ok true) ∈ job.checked → ∃ between later v', after = between ++ later ∧
      run (step enabled) v between = some v' ∧ isEnrolledActive v'.accounts true r = .ok true

variable {start : World} {past : List Action}

theorem Authorised.later (authorised : Authorised enabled start past job) (action : Action) :
    Authorised enabled start (past ++ [action]) job := by
  obtain ⟨before, after, v, rfl, reached, named, found⟩ := authorised
  refine ⟨before, after ++ [action], v, List.append_assoc _ _ _, reached, named, ?_⟩
  intro r member
  obtain ⟨between, later, v', rfl, ran, enrolled⟩ := found r member
  exact ⟨between, later ++ [action], v', List.append_assoc _ _ _, ran, enrolled⟩

theorem answered_of_enrolled {accounts : Accounts} {answered : Bool} {r : Recipient}
    (enrolled : isEnrolledActive accounts answered r = .ok true) : isEnrolledActive accounts true r = .ok true := by
  cases answered with
  | true => exact enrolled
  | false => cases enrolled

theorem moved_checked {accounts : Accounts} (moved : Moved enabled accounts job job') :
    job'.alert = job.alert ∧ job'.named = job.named ∧ ∀ r, (r, .ok true) ∈ job'.checked →
      (r, .ok true) ∈ job.checked ∨ isEnrolledActive accounts true r = .ok true := by
  cases moved with
  | checked phase =>
      refine ⟨rfl, rfl, ?_⟩
      intro r member
      rcases List.mem_append.mp member with old | new
      · exact Or.inl old
      · obtain ⟨rfl, answer⟩ := Prod.mk.inj (List.mem_singleton.mp new)
        exact Or.inr (answered_of_enrolled answer.symm)
  | resolved phase => exact ⟨rfl, rfl, fun r member => Or.inl member⟩
  | sent phase isEnabled => exact ⟨rfl, rfl, fun r member => Or.inl member⟩
  | skipped phase disabled => exact ⟨rfl, rfl, fun r member => Or.inl member⟩

theorem Authorised.moved (reached : run (step enabled) start past = some w) (moved : Moved enabled w.accounts job job')
    (authorised : Authorised enabled start past job) (action : Action) :
    Authorised enabled start (past ++ [action]) job' := by
  obtain ⟨alert, named, checks⟩ := moved_checked moved
  obtain ⟨before, after, v, rfl, begun, rule, found⟩ := authorised
  refine ⟨before, after ++ [action], v, List.append_assoc _ _ _, begun, ?_, ?_⟩
  · rw [alert, named, rule]
  · intro r member
    rcases checks r member with old | now
    · obtain ⟨between, later, v', rfl, ran, enrolled⟩ := found r old
      exact ⟨between, later ++ [action], v', List.append_assoc _ _ _, ran, enrolled⟩
    · rw [run_append begun] at reached
      exact ⟨after, [action], w, rfl, reached, now⟩

structure Traced (enabled : List String) (start : World) (past : List Action) (w : World) : Prop where
  reached : run (step enabled) start past = some w
  jobs : ∀ job ∈ World.jobs w, Authorised enabled start past job

theorem step_traced (past : List Action) (w : World) (action : Action) (w' : World)
    (traced : Traced enabled start past w) (taken : step enabled w action = some w') :
    Traced enabled start (past ++ [action]) w' := by
  obtain ⟨reached, jobs⟩ := traced
  have later (job : Job) (member : job ∈ World.jobs w) := (jobs job member).later action
  have earlier (job : Job) (member : job ∈ w.routed) : Authorised enabled start (past ++ [action]) job :=
    later job (List.mem_append_left _ member)
  have current (job : Job) (here : w.current = some job) : job ∈ World.jobs w :=
    List.mem_append_right _ (by simp [here])
  refine ⟨?_, ?_⟩
  · rw [run_append reached, run, taken]
    rfl
  cases step_stepped taken with
  | outside => exact later
  | started idle =>
      intro job member
      rcases List.mem_append.mp member with old | new
      · exact earlier job old
      · rw [List.mem_singleton.mp new]
        exact ⟨past, [action], w, rfl, reached, rfl, fun r member => absurd member List.not_mem_nil⟩
  | moved here moved =>
      intro job member
      rcases List.mem_append.mp member with old | new
      · exact earlier job old
      · rw [List.mem_singleton.mp new]
        exact (jobs _ (current _ here)).moved reached moved action
  | recorded here phase =>
      intro job member
      rcases List.mem_append.mp member with old | new
      · exact earlier job old
      · have before := later _ (current _ here)
        rw [List.mem_singleton.mp new]
        exact before
  | finished here phase =>
      intro job member
      rw [World.jobs, Option.toList_none, List.append_nil] at member
      rcases List.mem_append.mp member with old | new
      · exact earlier job old
      · rw [List.mem_singleton.mp new]
        exact later _ (current _ here)

theorem run_traced {accounts : Accounts} {config : String → Option Json} {actions : List Action}
    (reached : run (step enabled) (.new accounts config) actions = some w) :
    Traced enabled (.new accounts config) actions w := by
  have fresh : Traced enabled (.new accounts config) [] (.new accounts config) := ⟨rfl, by simp [World.jobs, World.new]⟩
  exact history_of_run step_traced fresh reached

theorem sent_complete {r : Recipient} {answer : Answer} (complete : Complete enabled job) (sent : (r, answer) ∈ job.sent) :
    r.channel ∈ enabled ∧ r ∈ job.named ∧ (r, .ok true) ∈ job.checked := by
  obtain ⟨named, whole⟩ := complete
  have kept : Kept enabled { job with phase := .delivering [] } :=
    ⟨named, by rw [List.filter_nil, List.append_nil, whole]⟩
  exact @sent_kept enabled { job with phase := .delivering [] } r answer kept sent

theorem enrolled_user {accounts : Accounts} {r : Recipient} (enrolled : isEnrolledActive accounts true r = .ok true) :
    ∃ gi ∈ accounts.identities, gi.channel = r.channel ∧ gi.platformHandle = r.toHandle ∧
      accounts.db.isActive gi.userId = true := by
  unfold isEnrolledActive at enrolled
  rw [if_neg (by decide)] at enrolled
  split at enrolled
  · cases enrolled
  · rename_i u found
    have member : u ∈ accounts.enrolled r.channel r.toHandle := by simp [found]
    obtain ⟨gi, bound, key, isUser, same, active⟩ := App.mem_enrolled.mp member
    obtain ⟨channel, handle⟩ := Prod.mk.inj key
    exact ⟨gi, bound, channel, handle, App.isActive_iff.mpr ⟨u, isUser, same, active⟩⟩
  · cases enrolled

/-- Whoever is sent an alert is named by the rule of the state in which the router took it up, on an enabled channel, and
was bound to an active user in a state after that. -/
def AlertedRightly (enabled : List String) (start : World) (past : List Action) (alert : Alert) (r : Recipient) : Prop :=
  r.channel ∈ enabled ∧ ∃ before between after v v' gi, past = before ++ (between ++ after) ∧
    run (step enabled) start before = some v ∧ r ∈ namedRecipients v.config alert ∧
    run (step enabled) v between = some v' ∧ gi ∈ v'.accounts.identities ∧ gi.channel = r.channel ∧
    gi.platformHandle = r.toHandle ∧ v'.accounts.db.isActive gi.userId = true

theorem alerted_rightly {accounts : Accounts} {config : String → Option Json} {actions : List Action} {r : Recipient}
    {answer : Answer} (reached : run (step enabled) (.new accounts config) actions = some w)
    (member : job ∈ World.jobs w) (sent : (r, answer) ∈ job.sent) :
    AlertedRightly enabled (.new accounts config) actions job.alert r := by
  have routing := run_routing reached
  obtain ⟨isEnabled, named, checked⟩ : r.channel ∈ enabled ∧ r ∈ job.named ∧ (r, .ok true) ∈ job.checked := by
    rcases List.mem_append.mp member with old | current
    · exact sent_complete (routing.routed job old) sent
    · exact sent_kept (routing.current job (Option.mem_toList.mp current)) sent
  obtain ⟨before, after, v, rfl, begun, rule, found⟩ := (run_traced reached).jobs job member
  obtain ⟨between, later, v', rfl, ran, enrolled⟩ := found r checked
  obtain ⟨gi, bound, channel, handle, active⟩ := enrolled_user enrolled
  exact ⟨isEnabled, before, between, later, v, v', gi, rfl, begun, rule ▸ named, ran, bound, channel, handle, active⟩

theorem newest_mem {table : List AlertDelivery} {row : AlertDelivery} (found : Inbound.newest table = some row) :
    row ∈ table := by
  induction table generalizing row with
  | nil => cases found
  | cons first rest ih =>
      rw [Inbound.newest] at found
      split at found
      · cases found
        exact List.mem_cons_self
      · rename_i other later
        split_ifs at found with older
        · cases found
          exact List.mem_cons_of_mem _ (ih later)
        · cases found
          exact List.mem_cons_self

theorem reply_decides_sent_alert (enabled : List String) (accounts : Accounts) (config : String → Option Json)
    (actions : List Action) (w : World) (reached : run (step enabled) (.new accounts config) actions = some w)
    (uuids : UuidText) (channel messageId : String) (id : Uuid)
    (resolved : resolveApprovalByReply uuids (w.deliveries.map correlationOf) channel messageId = some id) :
    ∃ job ∈ World.jobs w, job.alert.alertClass = .approval ∧ uuids.parse job.alert.signature = some id ∧
      ∃ r, (r, .ok (some messageId)) ∈ job.sent ∧ r.channel = channel ∧
        AlertedRightly enabled (.new accounts config) actions job.alert r := by
  obtain ⟨row, found, parsed⟩ := Option.bind_eq_some_iff.mp resolved
  obtain ⟨listed, replied⟩ := List.mem_filter.mp (newest_mem found)
  obtain ⟨⟨stored, now⟩, member, rfl⟩ := List.mem_map.mp listed
  have inserted := (alert_rows reached).subset (List.mem_map_of_mem member)
  obtain ⟨job, isJob, sent⟩ := List.mem_flatMap.mp inserted
  obtain ⟨⟨r, answer⟩, wasSent, rfl⟩ := List.mem_map.mp sent
  obtain ⟨matching, isApproval⟩ := Bool.and_eq_true_iff.mp replied
  obtain ⟨onChannel, isReply⟩ := Bool.and_eq_true_iff.mp matching
  obtain rfl : answer = .ok (some messageId) := by
    cases answer with
    | ok messageId' => exact congrArg Except.ok (of_decide_eq_true isReply)
    | error e => cases of_decide_eq_true isReply
  refine ⟨job, isJob, ?_, parsed, r, wasSent, of_decide_eq_true onChannel, alerted_rightly reached isJob wasSent⟩
  cases kind : job.alert.alertClass with
  | approval => rfl
  | anomaly =>
      have text : className job.alert.alertClass = "approval" := of_decide_eq_true isApproval
      rw [kind] at text
      exact absurd text (by decide)

end Run

/-! Ana is on call; the others that the rule names are not enrolled. -/

def onCall : Accounts where
  db := { App.staff with
    users := [⟨9, "ana", "", .active⟩]
    ids := List.nodup_singleton _
    usernames := List.nodup_singleton _ }
  identities := [⟨5, "telegram", "42", 9, none⟩]

def onCallRule (key : String) : Option Json :=
  if key = "channels.alerts.default" then some (.string "telegram:42, telegram:7,, ana ,matrix:!ops:lab") else none

def parked : Alert := ⟨.approval, "default", Uuid.hyphenated 1, ⟨"approval required", ""⟩⟩

def ana : Recipient := ⟨"telegram", "42"⟩

def alertRun : List Action :=
  [.route parked, .check true, .check true, .check true, .resolved, .deliver (.ok (some "100")), .record 3 true, .finish]

theorem sample_everyone_reached : ∃ w, run (step ["telegram"]) (.new onCall onCallRule) alertRun = some w ∧
    (∃ job ∈ w.routed, job.sent.map Prod.fst = (passed job.checked).filter fun r => r.channel ∈ ["telegram"]) ∧
    w.deliveries.map Prod.fst ≠ [] := by
  have ran : (run (step ["telegram"]) (.new onCall onCallRule) alertRun).any
      (fun w => !w.routed.isEmpty && w.deliveries.map Prod.fst ≠ []) = true := by decide +kernel
  obtain ⟨w, reached, done⟩ := (Option.any_eq_true _ _).mp ran
  obtain ⟨routed, stored⟩ := Bool.and_eq_true_iff.mp done
  have complete := (alert_reaches_everyone ["telegram"] onCall onCallRule alertRun w reached).1
  obtain ⟨job, member⟩ := List.exists_mem_of_ne_nil w.routed (by simpa using routed)
  exact ⟨w, reached, ⟨job, member, (complete job member).2⟩, of_decide_eq_true stored⟩

theorem sample_reply : ∃ w, run (step ["telegram"]) (.new onCall onCallRule) alertRun = some w ∧
    resolveApprovalByReply .hex (w.deliveries.map correlationOf) "telegram" "100" = some 1 ∧
    ∃ job ∈ World.jobs w, UuidText.hex.parse job.alert.signature = some 1 := by
  have ran : (run (step ["telegram"]) (.new onCall onCallRule) alertRun).any (fun w =>
      resolveApprovalByReply .hex (w.deliveries.map correlationOf) "telegram" "100" = some 1) = true := by decide +kernel
  obtain ⟨w, reached, resolved⟩ := (Option.any_eq_true _ _).mp ran
  obtain ⟨job, member, -, parsed, -⟩ := reply_decides_sent_alert ["telegram"] onCall onCallRule alertRun w reached .hex
    "telegram" "100" 1 (of_decide_eq_true resolved)
  exact ⟨w, reached, of_decide_eq_true resolved, job, member, parsed⟩

end Daimon.Proof.AlertRouting
