import Daimon.Driver.Reply
import Daimon.Transport.Ssh

/-!
# Exit statuses

What the exec loop collects from the messages before the first close, and when the exit status that it reports is the
one that the command had.
-/

namespace Daimon.Proof.Transport
open Daimon.Transport Daimon.Broker Daimon.Driver Lib

/-! ## What is sent -/

def upToClose (messages : List ChannelMsg) : List ChannelMsg := messages.takeWhile (· ≠ .close)

def stdoutOf : ChannelMsg → List UInt8
  | .data data => data
  | _ => []

def stderrOf : ChannelMsg → List UInt8
  | .extendedData data ext => if ext = 1 then data else []
  | _ => []

example : stderrOf (.extendedData [104, 105] 2) = [] := by simp [stderrOf]

def statusOf : ChannelMsg → Option UInt32
  | .exitStatus s => some s
  | _ => none

def lastStatus (messages : List ChannelMsg) : Option UInt32 := (messages.filterMap statusOf).getLast?

/-- The command has exited with 0 and no signal has killed it. -/
def CleanExit (messages : List ChannelMsg) : Prop :=
  .exitStatus 0 ∈ upToClose messages ∧ .exitSignal ∉ messages

structure ExitHonest (messages : List ChannelMsg) : Prop where
  streams : ∃ status, execShell messages = .shellCommand (fromUtf8Lossy ((upToClose messages).flatMap stdoutOf))
    (fromUtf8Lossy ((upToClose messages).flatMap stderrOf)) status
  zero : ∀ stdout stderr, execShell messages = .shellCommand stdout stderr 0 → CleanExit messages
  success : ∀ texts status payload, Connector.parseResult texts (execShell messages) = .ok (true, status, payload) →
    CleanExit messages

variable {messages : List ChannelMsg}

/-! ## The loop -/

theorem drain_eq (d : Drain) (messages : List ChannelMsg) :
    d.drain messages = (upToClose messages).foldl Drain.receive d := by
  induction messages generalizing d with
  | nil => rfl
  | cons msg rest ih =>
      cases msg with
      | close => rfl
      | _ => exact ih _

theorem receive_stdout (d : Drain) (msg : ChannelMsg) : (d.receive msg).stdout = d.stdout ++ stdoutOf msg := by
  cases msg with
  | extendedData data ext => by_cases isStderr : ext = 1 <;> simp [Drain.receive, stdoutOf, isStderr]
  | _ => simp [Drain.receive, stdoutOf]

theorem receive_stderr (d : Drain) (msg : ChannelMsg) : (d.receive msg).stderr = d.stderr ++ stderrOf msg := by
  cases msg with
  | extendedData data ext => by_cases isStderr : ext = 1 <;> simp [Drain.receive, stderrOf, isStderr]
  | _ => simp [Drain.receive, stderrOf]

theorem receive_exitStatus (d : Drain) (msg : ChannelMsg) :
    (d.receive msg).exitStatus = ((statusOf msg).map fun s => s.toInt32.toInt).getD d.exitStatus := by
  cases msg with
  | extendedData data ext => by_cases isStderr : ext = 1 <;> simp [Drain.receive, statusOf, isStderr]
  | _ => simp [Drain.receive, statusOf]

theorem foldl_stdout (d : Drain) (messages : List ChannelMsg) :
    (messages.foldl Drain.receive d).stdout = d.stdout ++ messages.flatMap stdoutOf := by
  induction messages generalizing d with
  | nil => simp
  | cons msg rest ih => rw [List.foldl_cons, ih, receive_stdout, List.flatMap_cons, List.append_assoc]

theorem foldl_stderr (d : Drain) (messages : List ChannelMsg) :
    (messages.foldl Drain.receive d).stderr = d.stderr ++ messages.flatMap stderrOf := by
  induction messages generalizing d with
  | nil => simp
  | cons msg rest ih => rw [List.foldl_cons, ih, receive_stderr, List.flatMap_cons, List.append_assoc]

theorem foldl_exitStatus (d : Drain) (messages : List ChannelMsg) : (messages.foldl Drain.receive d).exitStatus =
    ((lastStatus messages).map fun s => s.toInt32.toInt).getD d.exitStatus := by
  induction messages generalizing d with
  | nil => rfl
  | cons msg rest ih =>
      rw [List.foldl_cons, ih, receive_exitStatus]
      cases status : statusOf msg with
      | none => simp [lastStatus, status]
      | some s =>
          simp only [lastStatus, List.filterMap_cons_some status, List.getLast?_cons]
          cases (rest.filterMap statusOf).getLast? <;> rfl

theorem execShell_eq (messages : List ChannelMsg) : execShell messages =
    .shellCommand (fromUtf8Lossy ((upToClose messages).flatMap stdoutOf))
      (fromUtf8Lossy ((upToClose messages).flatMap stderrOf))
      (((lastStatus (upToClose messages)).map fun s => s.toInt32.toInt).getD 0) := by
  rw [execShell, sshResult, drain_eq, foldl_stdout, foldl_stderr, foldl_exitStatus]
  rfl

/-! ## The exit status -/

theorem asI32_eq_zero_iff {s : UInt32} : s.toInt32.toInt = 0 ↔ s = 0 := by
  constructor
  · intro zero
    have same : s.toInt32 = (0 : UInt32).toInt32 := Int32.toInt_inj.mp zero
    exact congrArg Int32.toUInt32 same
  · rintro rfl
    rfl

theorem mem_of_lastStatus {s : UInt32} (last : lastStatus messages = some s) : .exitStatus s ∈ messages := by
  obtain ⟨msg, member, status⟩ := List.mem_filterMap.mp (List.mem_of_getLast? last)
  cases msg with
  | exitStatus t =>
      obtain rfl := Option.some.inj status
      exact member
  | _ => cases status

theorem lastStatus_isSome {s : UInt32} (member : .exitStatus s ∈ messages) : ∃ t, lastStatus messages = some t := by
  have listed : s ∈ messages.filterMap statusOf := List.mem_filterMap.mpr ⟨_, member, rfl⟩
  exact ⟨_, List.getLast?_eq_some_getLast (List.ne_nil_of_mem listed)⟩

/-- A zero is reported for the last status if it is 0, and if there is none. -/
theorem reports_zero_iff (messages : List ChannelMsg) :
    (∃ stdout stderr, execShell messages = .shellCommand stdout stderr 0) ↔
    ∀ s, lastStatus (upToClose messages) = some s → s = 0 := by
  rw [execShell_eq]
  cases last : lastStatus (upToClose messages) with
  | none => simp
  | some s => simp [asI32_eq_zero_iff]

theorem parseResult_success {texts : Texts} {stdout stderr : String} {exitStatus status : Int} {payload : Json}
    (parsed : Connector.parseResult texts (.shellCommand stdout stderr exitStatus) = .ok (true, status, payload)) :
    exitStatus = 0 := by
  simp only [Connector.parseResult, Except.ok.injEq, Prod.mk.injEq] at parsed
  exact eq_of_beq parsed.1

/-- Exit 0 stands for a clean exit exactly if a status comes before the first close, and no signal comes with a last
status of 0. -/
theorem exit_honest_iff (messages : List ChannelMsg) :
    ExitHonest messages ↔ ∃ s, lastStatus (upToClose messages) = some s ∧ (s ≠ 0 ∨ .exitSignal ∉ messages) := by
  constructor
  · rintro ⟨-, zero, -⟩
    cases last : lastStatus (upToClose messages) with
    | none =>
        obtain ⟨stdout, stderr, reported⟩ := (reports_zero_iff messages).mpr (by simp [last])
        obtain ⟨t, some⟩ := lastStatus_isSome (zero _ _ reported).1
        cases last.symm.trans some
    | some s =>
        refine ⟨s, rfl, ?_⟩
        by_cases isZero : s = 0
        · obtain ⟨stdout, stderr, reported⟩ := (reports_zero_iff messages).mpr (by simp [last, isZero])
          exact .inr (zero _ _ reported).2
        · exact .inl isZero
  · rintro ⟨s, last, clean⟩
    have zero : ∀ stdout stderr, execShell messages = .shellCommand stdout stderr 0 → CleanExit messages := by
      intro stdout stderr reported
      obtain rfl : s = 0 := (reports_zero_iff messages).mp ⟨_, _, reported⟩ s last
      exact ⟨mem_of_lastStatus last, clean.resolve_left (absurd rfl)⟩
    refine ⟨⟨_, execShell_eq messages⟩, zero, fun texts status payload parsed => ?_⟩
    rw [execShell_eq] at parsed
    have reported := execShell_eq messages
    rw [parseResult_success parsed] at reported
    exact zero _ _ reported

/-- The first command was killed and the connection of the second one broke. -/
theorem killed_reports_zero :
    execShell [.data [0x61], .exitSignal, .eof, .close] = .shellCommand "a" "" 0 ∧
      ¬ ExitHonest [.data [0x61], .exitSignal, .eof, .close] ∧
      execShell [.data [0x61]] = .shellCommand "a" "" 0 ∧ ¬ ExitHonest [.data [0x61]] ∧
      ∀ texts, ∃ payload, Connector.parseResult texts (execShell [.data [0x61]]) = .ok (true, 0, payload) := by
  refine ⟨by decide, fun honest => ?_, by decide, fun honest => ?_, fun texts => ⟨_, rfl⟩⟩
  · exact absurd (honest.zero "a" "" (by decide)).1 (by decide)
  · exact absurd (honest.zero "a" "" (by decide)).1 (by decide)

end Daimon.Proof.Transport
